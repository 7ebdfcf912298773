import Misaka.Core.Codec

/-!
# Transactions and outpoints

The consensus wire types shared by every subsystem (`consensus/core/src/tx.rs`,
`consensus/core/src/subnets.rs`). Digests are natural numbers read big-endian, so the byte-wise
order of the source is the numeric one; amounts and scores are the natural numbers a `u64` holds.
-/

namespace Misaka

open Misaka.Core List

abbrev Bytes := List UInt8

/-! Header versions and algorithm ids, of `constants.rs` and `pow_layer0.rs`. -/

def BLOCK_VERSION : UInt16 := 1
def EVM_HEADER_VERSION : UInt16 := 2
def PALW_HEADER_VERSION : UInt16 := 3
def PALW_ANTISPAM_HEADER_VERSION : UInt16 := 4

def POW_ALGO_ID_KHEAVYHASH : UInt8 := 1
def POW_ALGO_ID_BLAKE2B_SHA3 : UInt8 := 3
def POW_ALGO_ID_PALW_REPLICA : UInt8 := 4

/-- Hundred per cent in basis points. -/
def PALW_PREMIUM_BPS_ONE : ℕ := 10000

/-- A 64-byte digest; `Hash64::default()` is `0`. -/
abbrev Hash64 := ℕ

abbrev BlockHash := Hash64

abbrev TransactionId := Hash64

/-- The big-endian bytes of a digest (`Hash64::as_byte_slice`). -/
def hash64Bytes (h : Hash64) : Bytes :=
  (List.range 64).map fun i => UInt8.ofNat (h >>> (8 * (63 - i)))

def hexDigit (n : ℕ) : Char := "0123456789abcdef".toList.getD n '0'

def hash64Hex (h : Hash64) : String :=
  String.ofList ((hash64Bytes h).flatMap fun b =>
    [hexDigit (b.toNat / 16), hexDigit (b.toNat % 16)])

def leBytes (width : ℕ) (n : ℕ) : Bytes :=
  (List.range width).map fun i => UInt8.ofNat (n >>> (8 * i))

/-- The integer spelled by little-endian bytes (`from_le_bytes`). -/
def leNat : Bytes → ℕ
  | [] => 0
  | b :: bs => b.toNat + 256 * leNat bs

@[simp] theorem length_leBytes (width n : ℕ) : (leBytes width n).length = width := by
  simp [leBytes]

theorem leBytes_succ (width n : ℕ) :
    leBytes (width + 1) n = UInt8.ofNat n :: leBytes width (n >>> 8) := by
  simp only [leBytes, range_succ_eq_map, map_cons, map_map, Nat.mul_zero,
    Nat.shiftRight_zero, List.cons.injEq, true_and]
  refine map_congr_left fun i _ => ?_
  rw [Function.comp_apply, ← Nat.shiftRight_add, Nat.mul_succ, Nat.add_comm]

theorem leNat_leBytes {width n : ℕ} (h : n < 256 ^ width) : leNat (leBytes width n) = n := by
  induction width generalizing n with
  | zero => exact (Nat.lt_one_iff.mp h).symm
  | succ width ih =>
    have hdiv : n >>> 8 = n / 256 := Nat.shiftRight_eq_div_pow n 8
    have hrest : n >>> 8 < 256 ^ width := by
      rw [hdiv]
      exact Nat.div_lt_of_lt_mul (by rwa [Nat.pow_succ, Nat.mul_comm] at h)
    rw [leBytes_succ, leNat, ih hrest, hdiv, UInt8.toNat_ofNat']
    exact Nat.mod_add_div n 256

theorem leBytes_leNat (bytes : Bytes) : leBytes bytes.length (leNat bytes) = bytes := by
  induction bytes with
  | nil => rfl
  | cons b bytes ih =>
    have hbyte := b.toNat_lt
    have hdiv : (b.toNat + 256 * leNat bytes) >>> 8 = leNat bytes := by
      rw [Nat.shiftRight_eq_div_pow]
      omega
    have hfirst : UInt8.ofNat (b.toNat + 256 * leNat bytes) = b := by
      rw [← UInt8.toNat_inj, UInt8.toNat_ofNat']
      omega
    rw [length_cons, leBytes_succ, leNat, hdiv, ih, hfirst]

theorem leBytes_inj {width n m : ℕ} (hn : n < 256 ^ width) (hm : m < 256 ^ width)
    (h : leBytes width n = leBytes width m) : n = m := by
  rw [← leNat_leBytes hn, h, leNat_leBytes hm]

@[simp] theorem length_hash64Bytes (h : Hash64) : (hash64Bytes h).length = 64 := by
  simp [hash64Bytes]

theorem hash64Bytes_eq_reverse (h : Hash64) : hash64Bytes h = (leBytes 64 h).reverse := by
  have hrange : (List.range 64).reverse = (List.range 64).map (63 - ·) := by decide
  rw [hash64Bytes, leBytes, ← map_reverse, hrange, map_map]
  rfl

theorem hash64Bytes_inj {a b : Hash64} (ha : a < 256 ^ 64) (hb : b < 256 ^ 64)
    (h : hash64Bytes a = hash64Bytes b) : a = b := by
  rw [hash64Bytes_eq_reverse, hash64Bytes_eq_reverse, reverse_inj] at h
  exact leBytes_inj ha hb h

theorem selfDelimiting_leBytes (width : ℕ) :
    SelfDelimiting {n | n < 256 ^ width} (leBytes width) :=
  .of_length (fun n _ => length_leBytes width n) fun _ hn _ hm => leBytes_inj hn hm

theorem selfDelimiting_hash64Bytes : SelfDelimiting {h | h < 256 ^ 64} hash64Bytes :=
  .of_length (fun h _ => length_hash64Bytes h) fun _ ha _ hb => hash64Bytes_inj ha hb

theorem selfDelimiting_byte : SelfDelimiting Set.univ fun b : UInt8 => [b] :=
  .of_length (fun _ _ => rfl) fun _ _ _ _ h => singleton_inj.mp h

structure TransactionOutpoint where
  transactionId : TransactionId
  index : ℕ
  deriving DecidableEq, Repr, Inhabited

structure ScriptPublicKey where
  version : ℕ
  script : Bytes
  deriving DecidableEq, Repr, Inhabited

structure TransactionInput where
  previousOutpoint : TransactionOutpoint
  signatureScript : Bytes
  sequence : ℕ
  sigOpCount : ℕ
  deriving DecidableEq, Repr, Inhabited

structure TransactionOutput where
  value : ℕ
  scriptPublicKey : ScriptPublicKey
  deriving DecidableEq, Repr, Inhabited

structure SubnetworkId where
  bytes : Bytes
  deriving DecidableEq, Repr, Inhabited

def SUBNETWORK_ID_SIZE : ℕ := 20

def SubnetworkId.fromByte (b : UInt8) : SubnetworkId :=
  ⟨b :: List.replicate (SUBNETWORK_ID_SIZE - 1) 0⟩

def SUBNETWORK_ID_NATIVE : SubnetworkId := .fromByte 0x00
def SUBNETWORK_ID_COINBASE : SubnetworkId := .fromByte 0x01
def SUBNETWORK_ID_STAKE_BOND : SubnetworkId := .fromByte 0x10
def SUBNETWORK_ID_STAKE_ATTESTATION_SHARD : SubnetworkId := .fromByte 0x11
def SUBNETWORK_ID_SLASHING_EVIDENCE : SubnetworkId := .fromByte 0x12
def SUBNETWORK_ID_STAKE_UNBOND : SubnetworkId := .fromByte 0x13
def SUBNETWORK_ID_PALW_BLOCK_AUTHORIZATION : SubnetworkId := .fromByte 0x38

/-- The first byte of an id of the replica lane's band, `0x30` to `0x3c`. -/
def SubnetworkId.palwTxKind (s : SubnetworkId) : Option UInt8 :=
  match s.bytes with
  | b :: rest => if 0x30 ≤ b && b ≤ 0x3c && rest.all (· == 0) then some b else none
  | [] => none

structure Transaction where
  version : ℕ
  inputs : List TransactionInput
  outputs : List TransactionOutput
  lockTime : ℕ
  subnetworkId : SubnetworkId
  gas : ℕ
  payload : Bytes
  mass : ℕ
  deriving DecidableEq, Repr, Inhabited

def Transaction.isCoinbase (tx : Transaction) : Bool :=
  tx.subnetworkId == SUBNETWORK_ID_COINBASE

def U64_MAX : ℕ := 2 ^ 64 - 1

def U128_MAX : ℕ := 2 ^ 128 - 1

end Misaka
