import Misaka.Chain.Transaction
import Misaka.Core.Fallible
import Misaka.Core.Regroup

/-!
# Address texts

The text form of an address (`crypto/addresses`): a network prefix, a colon, and the version byte
and payload regrouped into symbols of five bits, followed by eight symbols of checksum. Texts are
the bytes of their UTF-8 form.
-/

namespace Misaka.Addresses

open Misaka.Core List

inductive AddressError where
  | invalidPrefix (text : Bytes)
  | missingPrefix
  | invalidVersion (value : UInt8)
  | decodingError (c : Char)
  | badChecksumSize
  | badChecksum
  | badPayload
  deriving DecidableEq, Repr

def matching {α β : Type} [DecidableEq β] (cases : List α) (key : α → β) (e : AddressError)
    (value : β) : Except AddressError α :=
  match cases.find? (key · = value) with
  | some a => .ok a
  | none => .error e

theorem matching_eq_ok {α β : Type} [DecidableEq β] {cases : List α} {key : α → β}
    {e : AddressError} {value : β} {a : α} (hkey : Function.Injective key) (ha : a ∈ cases) :
    matching cases key e value = .ok a ↔ value = key a := by
  unfold matching
  cases hfound : cases.find? (key · = value) with
  | none =>
    have hne := List.find?_eq_none.mp hfound a ha
    simp only [decide_eq_true_eq] at hne
    simp [Ne.symm hne]
  | some b =>
    have hb : key b = value := by simpa using List.find?_some hfound
    rw [Except.ok.injEq, ← hb, hkey.eq_iff]

def ascii (text : String) : Bytes := text.toList.map fun c => UInt8.ofNat c.toNat

inductive Prefix where
  | mainnet
  | testnet
  | simnet
  | devnet
  deriving DecidableEq, Repr

def Prefix.asStr : Prefix → Bytes
  | .mainnet => ascii "misaka"
  | .testnet => ascii "misakatest"
  | .simnet => ascii "misakasim"
  | .devnet => ascii "misakadev"

def Prefix.tryFrom (text : Bytes) : Except AddressError Prefix :=
  matching [.mainnet, .testnet, .simnet, .devnet] Prefix.asStr (.invalidPrefix text) text

inductive Version where
  | pubKey
  | pubKeyECDSA
  | pubKeyHashMlDsa87
  | scriptHash
  deriving DecidableEq, Repr

def Version.byte : Version → UInt8
  | .pubKey => 0
  | .pubKeyECDSA => 1
  | .pubKeyHashMlDsa87 => 2
  | .scriptHash => 8

def Version.publicKeyLen : Version → ℕ
  | .pubKey => 32
  | .pubKeyECDSA => 33
  | .pubKeyHashMlDsa87 => 64
  | .scriptHash => 32

def Version.tryFrom (value : UInt8) : Except AddressError Version :=
  matching [.pubKey, .pubKeyECDSA, .pubKeyHashMlDsa87, .scriptHash] Version.byte
    (.invalidVersion value) value

structure Address where
  network : Prefix
  version : Version
  payload : Bytes
  length_eq : payload.length = version.publicKeyLen
  deriving DecidableEq, Repr

def Address.tryNew (network : Prefix) (version : Version) (payload : Bytes) :
    Except AddressError Address :=
  if h : payload.length = version.publicKeyLen then .ok ⟨network, version, payload, h⟩
  else .error .badPayload

def Address.bytes (a : Address) : Bytes := a.version.byte :: a.payload

def CHARSET : Bytes := ascii "qpzry9x8gf2tvdw0s3jn54khce6mua7l"

def REV_CHARSET : List ℕ := [
  100, 100, 100, 100, 100, 100, 100, 100, 100, 100, 100, 100, 100, 100, 100, 100, 100, 100, 100,
  100, 100, 100, 100, 100, 100, 100, 100, 100, 100, 100, 100, 100, 100, 100, 100, 100, 100, 100,
  100, 100, 100, 100, 100, 100, 100, 100, 100, 100, 15, 100, 10, 17, 21, 20, 26, 30, 7, 5, 100,
  100, 100, 100, 100, 100, 100, 100, 100, 100, 100, 100, 100, 100, 100, 100, 100, 100, 100, 100,
  100, 100, 100, 100, 100, 100, 100, 100, 100, 100, 100, 100, 100, 100, 100, 100, 100, 100, 100,
  29, 100, 24, 13, 25, 9, 8, 23, 100, 18, 22, 31, 27, 19, 100, 1, 0, 3, 16, 11, 28, 12, 14, 6, 4,
  2]

def GENERATORS : List (ℕ × ℕ) :=
  [(0x01, 0x98f2bc8e61), (0x02, 0x79b76d99e2), (0x04, 0xf33e5fb3c4), (0x08, 0xae2eabe2a8),
    (0x10, 0x1e4f43e470)]

def polymodStep (c d : ℕ) : ℕ :=
  GENERATORS.foldl (fun acc g => if (c >>> 35) &&& g.1 ≠ 0 then acc ^^^ g.2 else acc)
    ((c &&& 0x07ffffffff) <<< 5 ^^^ d)

def polymod (values : List ℕ) : ℕ := values.foldl polymodStep 1 ^^^ 1

def checksum (payload : List ℕ) (network : List ℕ) : ℕ :=
  polymod (network ++ [0] ++ payload ++ List.replicate 8 0)

/-- Bytes to symbols; the last is padded with zeros. -/
def conv8to5 (payload : Bytes) : List ℕ :=
  let b := regroup 8 5 (payload.map UInt8.toNat)
  if 0 < b.bits then b.out ++ [b.buff <<< (5 - b.bits)] else b.out

/-- Symbols to bytes; a rest below a byte is dropped. -/
def conv5to8 (payload : List ℕ) : Bytes := (regroup 5 8 payload).out.map UInt8.ofNat

def Prefix.symbols (network : Prefix) : List ℕ := network.asStr.map fun c => c.toNat &&& 0x1f

def checksumSymbols (network : Prefix) (payload : List ℕ) : List ℕ :=
  conv8to5 ((leBytes 8 (checksum payload network.symbols)).reverse.drop 3)

def chars (symbols : List ℕ) : Bytes := symbols.map fun c => CHARSET.getD c 0

def Address.encodePayload (a : Address) : Bytes :=
  let fivebitPayload := conv8to5 a.bytes
  chars (fivebitPayload ++ checksumSymbols a.network fivebitPayload)

def Address.text (a : Address) : Bytes := a.network.asStr ++ 58 :: a.encodePayload

def symbolOf (b : UInt8) : Except AddressError ℕ :=
  let i := REV_CHARSET.getD b.toNat 100
  if i = 100 then .error (.decodingError (Char.ofNat b.toNat)) else .ok i

def fromPayload (network : Prefix) : Bytes → Except AddressError Address
  | [] => .error .badPayload
  | versionByte :: payload => do
    let version ← Version.tryFrom versionByte
    Address.tryNew network version payload

/-- Symbols, checksum, then version and payload. -/
def Address.decodePayload (network : Prefix) (address : Bytes) : Except AddressError Address := do
  let addressU5 ← address.mapM symbolOf
  failIf (address.length < 8) .badPayload
  let payloadU5 := addressU5.take (address.length - 8)
  let checksumBytes := List.replicate 3 0 ++ conv5to8 (addressU5.drop (address.length - 8))
  failIf (checksumBytes.length ≠ 8) .badChecksumSize
  failIf (checksum payloadU5 network.symbols ≠ leNat checksumBytes.reverse) .badChecksum
  fromPayload network (conv5to8 payloadU5)

def splitOnce (sep : UInt8) : Bytes → Option (Bytes × Bytes)
  | [] => none
  | b :: rest =>
    if b = sep then some ([], rest)
    else (splitOnce sep rest).map fun parts => (b :: parts.1, parts.2)

/-- Reads an address from its text (`TryFrom<&str> for Address`). -/
def Address.tryFrom (value : Bytes) : Except AddressError Address :=
  match splitOnce 58 value with
  | some (network, payload) => do
    let network ← Prefix.tryFrom network
    Address.decodePayload network payload
  | none => .error .missingPrefix

def textOf (network : Prefix) (symbols : List ℕ) : Bytes :=
  network.asStr ++ 58 :: chars (symbols ++ checksumSymbols network symbols)

structure Carries (u : List ℕ) (bytes : Bytes) (r pad : ℕ) : Prop where
  symbol_lt : ∀ c ∈ u, c < 2 ^ 5
  bits_eq : 5 * u.length = 8 * bytes.length + r
  value_eq : spelled 5 u = spelled 8 (bytes.map UInt8.toNat) * 2 ^ r + pad
  pad_lt : pad < 2 ^ r

variable {network : Prefix} {a : Address} {u : List ℕ} {bytes bytes' text : Bytes} {r pad : ℕ}

theorem toNat_lt_of_mem {d : ℕ} (hd : d ∈ bytes.map UInt8.toNat) : d < 2 ^ 8 := by
  obtain ⟨b, -, rfl⟩ := mem_map.mp hd
  exact b.toNat_lt

theorem bytes_eq_of_spelled (hlen : bytes.length = bytes'.length)
    (h : spelled 8 (bytes.map UInt8.toNat) = spelled 8 (bytes'.map UInt8.toNat)) :
    bytes = bytes' := by
  refine map_injective_iff.mpr (fun _ _ => UInt8.toNat_inj.mp) ?_
  exact spelled_inj (by decide) (by simpa using hlen) (fun _ => toNat_lt_of_mem)
    (fun _ => toNat_lt_of_mem) h

theorem carries_conv8to5 (bytes : Bytes) : ∃ r < 5, Carries (conv8to5 bytes) bytes r 0 := by
  have hwidth : 0 < 5 := by decide
  obtain ⟨hspells, hbits⟩ :=
    regroup_spells 8 hwidth fun d (hd : d ∈ bytes.map UInt8.toNat) => toNat_lt_of_mem hd
  rw [length_map] at hspells
  unfold conv8to5
  generalize regroup 8 5 (bytes.map UInt8.toNat) = b at hspells hbits
  have hsize := hspells.bits_eq
  dsimp only
  split
  · -- a last symbol takes the bits that are left, with zeros below them
    refine ⟨5 - b.bits, by omega, ?_, ?_, ?_, by positivity⟩
    · intro c hc
      rcases mem_append.mp hc with hc | hc
      · exact hspells.out_lt c hc
      · rw [mem_singleton.mp hc, Nat.shiftLeft_eq]
        calc b.buff * 2 ^ (5 - b.bits) < 2 ^ b.bits * 2 ^ (5 - b.bits) :=
              Nat.mul_lt_mul_of_pos_right hspells.buff_lt (by positivity)
          _ = 2 ^ 5 := by rw [← pow_add, Nat.add_sub_cancel' hbits.le]
    · rw [length_append, length_singleton]
      omega
    · rw [spelled_concat, ← hspells.value_eq, Nat.shiftLeft_eq, add_mul, mul_assoc, ← pow_add,
        Nat.add_sub_cancel' hbits.le, add_zero]
  · next hnone =>
    have hzero : b.bits = 0 := Nat.eq_zero_of_not_pos hnone
    have hbuff : b.buff = 0 := by simpa [hzero] using hspells.buff_lt
    refine ⟨0, by decide, hspells.out_lt, by omega, ?_, by decide⟩
    simpa [hzero, hbuff] using hspells.value_eq

theorem exists_carries_conv5to8 (hu : ∀ c ∈ u, c < 2 ^ 5) :
    ∃ r < 8, ∃ pad, Carries u (conv5to8 u) r pad := by
  have hwidth : 0 < 8 := by decide
  obtain ⟨hspells, hbits⟩ := regroup_spells 5 hwidth hu
  have hout : (conv5to8 u).map UInt8.toNat = (regroup 5 8 u).out := by
    rw [conv5to8, map_map]
    refine (map_congr_left fun d hd => ?_).trans (map_id _)
    exact UInt8.toNat_ofNat_of_lt (hspells.out_lt d hd)
  refine ⟨_, hbits, _, hu, ?_, ?_, hspells.buff_lt⟩
  · rw [conv5to8, length_map, hspells.bits_eq]
  · rw [hout, hspells.value_eq]

variable {u' : List ℕ} {version : Version}

theorem Carries.unique (h : Carries u bytes r pad) (h' : Carries u' bytes r pad) : u = u' := by
  have hlen := h.bits_eq.trans h'.bits_eq.symm
  exact spelled_inj (by decide) (by omega) h.symbol_lt h'.symbol_lt
    (h.value_eq.trans h'.value_eq.symm)

theorem Carries.bytes_eq {r' pad' : ℕ} (h : Carries u bytes r pad)
    (h' : Carries u bytes' r' pad') (hr : r < 8) (hr' : r' < 8) :
    bytes = bytes' ∧ r = r' ∧ pad = pad' := by
  have hlen := h.bits_eq.symm.trans h'.bits_eq
  obtain rfl : r = r' := by omega
  have hvalue := h.value_eq.symm.trans h'.value_eq
  have hdiv := congrArg (· / 2 ^ r) hvalue
  have hmod := congrArg (· % 2 ^ r) hvalue
  simp only [Nat.mul_add_mod', Nat.mod_eq_of_lt h.pad_lt,
    Nat.mod_eq_of_lt h'.pad_lt] at hmod
  simp only [Nat.mul_comm _ (2 ^ r), Nat.mul_add_div (Nat.two_pow_pos r),
    Nat.div_eq_of_lt h.pad_lt, Nat.div_eq_of_lt h'.pad_lt, Nat.add_zero] at hdiv
  exact ⟨bytes_eq_of_spelled (by omega) hdiv, rfl, hmod⟩

theorem conv5to8_eq_iff (hu : ∀ c ∈ u, c < 2 ^ 5) :
    conv5to8 u = bytes ↔ ∃ r < 8, ∃ pad, Carries u bytes r pad := by
  constructor
  · rintro rfl
    exact exists_carries_conv5to8 hu
  · rintro ⟨r, hr, pad, h⟩
    obtain ⟨r', hr', pad', h'⟩ := exists_carries_conv5to8 hu
    exact (h'.bytes_eq h hr' hr).1

theorem polymodStep_lt {c d : ℕ} (hd : d < 2 ^ 5) : polymodStep c d < 2 ^ 40 := by
  have hmasked : (c &&& 0x07ffffffff) <<< 5 < 2 ^ 40 := by
    have h := Nat.and_le_right (n := c) (m := 0x07ffffffff)
    rw [Nat.shiftLeft_eq]
    omega
  have hstart := Nat.xor_lt_two_pow hmasked (hd.trans (by decide))
  have hgenerators : ∀ g ∈ GENERATORS, g.2 < 2 ^ 40 := by decide
  refine List.foldlRecOn (motive := fun acc => acc < 2 ^ 40) _ _ hstart fun acc hacc g hg => ?_
  split
  · exact Nat.xor_lt_two_pow hacc (hgenerators g hg)
  · exact hacc

theorem checksum_lt (hu : ∀ c ∈ u, c < 2 ^ 5) : checksum u network.symbols < 2 ^ 40 := by
  have hnetwork : ∀ c ∈ network.symbols, c < 2 ^ 5 := by
    intro c hc
    obtain ⟨b, -, rfl⟩ := mem_map.mp hc
    exact Nat.lt_of_le_of_lt Nat.and_le_right (by decide)
  have hvalues : ∀ c ∈ network.symbols ++ [0] ++ u ++ List.replicate 8 0, c < 2 ^ 5 := by
    simp only [mem_append, mem_singleton, mem_replicate]
    rintro c (((hc | rfl) | hc) | ⟨-, rfl⟩)
    exacts [hnetwork c hc, by decide, hu c hc, by decide]
  refine Nat.xor_lt_two_pow ?_ (by decide)
  refine List.foldlRecOn (motive := fun c => c < 2 ^ 40) _ _ (by decide) fun c _ d hd => ?_
  exact polymodStep_lt (hvalues d hd)

theorem leNat_eq_spelled (bytes : Bytes) :
    leNat bytes.reverse = spelled 8 (bytes.map UInt8.toNat) := by
  rw [spelled, ← map_reverse]
  induction bytes.reverse with
  | nil => rfl
  | cons b rest ih => rw [leNat, map_cons, Nat.ofDigits_cons, ih]; rfl

theorem checksum_eq_iff {cs : List ℕ} (hu : ∀ c ∈ u, c < 2 ^ 5) (hcs : ∀ c ∈ cs, c < 2 ^ 5)
    (hlen : cs.length = 8) :
    checksum u network.symbols = leNat (List.replicate 3 0 ++ conv5to8 cs).reverse ↔
      cs = checksumSymbols network u := by
  have hfits : checksum u network.symbols < 256 ^ 5 := (checksum_lt hu).trans_eq (by decide)
  unfold checksumSymbols
  generalize checksum u network.symbols = sum at hfits
  have hlow : (leBytes 8 sum).reverse.drop 3 = (leBytes 5 sum).reverse := rfl
  have hvalue : spelled 8 ((leBytes 5 sum).reverse.map UInt8.toNat) = sum := by
    rw [← leNat_eq_spelled, reverse_reverse, leNat_leBytes hfits]
  have hread : leNat (List.replicate 3 0 ++ conv5to8 cs).reverse =
      spelled 8 ((conv5to8 cs).map UInt8.toNat) := by
    rw [leNat_eq_spelled, map_append, spelled, reverse_append, Nat.ofDigits_append]
    exact Nat.add_zero _
  rw [hlow, hread]
  obtain ⟨r, hr, hsum⟩ := carries_conv8to5 (leBytes 5 sum).reverse
  obtain ⟨r', hr', pad, hcarries⟩ := exists_carries_conv5to8 hcs
  have hbits := hsum.bits_eq
  have hbits' := hcarries.bits_eq
  rw [length_reverse, length_leBytes] at hbits
  obtain rfl : r = 0 := by omega
  obtain rfl : r' = 0 := by omega
  obtain rfl : pad = 0 := Nat.lt_one_iff.mp hcarries.pad_lt
  constructor
  · intro heq
    have hbytes : conv5to8 cs = (leBytes 5 sum).reverse := by
      refine bytes_eq_of_spelled ?_ (heq.symm.trans hvalue.symm)
      rw [length_reverse, length_leBytes]
      omega
    exact (hbytes ▸ hcarries).unique hsum
  · rintro rfl
    rw [(hcarries.bytes_eq hsum hr' (by decide)).1, hvalue]

theorem carries_checksumSymbols (network : Prefix) (u : List ℕ) :
    ∃ sum, Carries (checksumSymbols network u) sum 0 0 ∧
    (checksumSymbols network u).length = 8 := by
  obtain ⟨r, hr, hsum⟩ := carries_conv8to5 ((leBytes 8 (checksum u network.symbols)).reverse.drop 3)
  have hbits := hsum.bits_eq
  rw [length_drop, length_reverse, length_leBytes] at hbits
  obtain rfl : r = 0 := by omega
  exact ⟨_, hsum, by unfold checksumSymbols; omega⟩

theorem symbolOf_eq_ok {b : UInt8} {c : ℕ} :
    symbolOf b = .ok c ↔ c < 2 ^ 5 ∧ CHARSET.getD c 0 = b := by
  have hread : ∀ n < 256, REV_CHARSET.getD n 100 = 100 ∨
      REV_CHARSET.getD n 100 < 2 ^ 5 ∧
        (CHARSET.getD (REV_CHARSET.getD n 100) 0).toNat = n := by decide +kernel
  have hwrite : ∀ c < 2 ^ 5, REV_CHARSET.getD (CHARSET.getD c 0).toNat 100 = c := by
    decide +kernel
  unfold symbolOf
  rw [error_ite_eq_ok, Except.ok.injEq]
  constructor
  · rintro ⟨hvalid, rfl⟩
    obtain ⟨hlt, heq⟩ := (hread b.toNat b.toNat_lt).resolve_left hvalid
    exact ⟨hlt, UInt8.toNat_inj.mp heq⟩
  · rintro ⟨hc, rfl⟩
    have hc' := hwrite c hc
    exact ⟨by omega, hc'⟩

theorem mapM_symbolOf :
    text.mapM symbolOf = .ok u ↔ (∀ c ∈ u, c < 2 ^ 5) ∧ chars u = text := by
  rw [mapM_eq_ok]
  simp only [symbolOf_eq_ok]
  constructor
  · intro h
    induction h with
    | nil => exact ⟨fun c hc => (not_mem_nil hc).elim, rfl⟩
    | cons hbc _ ih =>
      exact ⟨forall_mem_cons.mpr ⟨hbc.1, ih.1⟩, congrArg₂ List.cons hbc.2 ih.2⟩
  · rintro ⟨hu, rfl⟩
    exact forall₂_map_left_iff.mpr (forall₂_same.mpr fun c hc => ⟨hu c hc, rfl⟩)

theorem Prefix.tryFrom_eq_ok :
    Prefix.tryFrom text = .ok network ↔ text = network.asStr := by
  refine matching_eq_ok ?_ (by cases network <;> decide)
  intro p q
  cases p <;> cases q <;> decide

theorem Version.tryFrom_eq_ok {value : UInt8} :
    Version.tryFrom value = .ok version ↔ value = version.byte := by
  refine matching_eq_ok ?_ (by cases version <;> decide)
  intro v w
  cases v <;> cases w <;> decide

theorem Address.tryNew_eq_ok {payload : Bytes} :
    Address.tryNew network version payload = .ok a ↔
      a.network = network ∧ version = a.version ∧ payload = a.payload := by
  unfold Address.tryNew
  constructor
  · split
    · intro h
      cases h
      exact ⟨rfl, rfl, rfl⟩
    · simp
  · rintro ⟨rfl, rfl, rfl⟩
    exact dif_pos a.length_eq

theorem fromPayload_eq_ok :
    fromPayload network bytes = .ok a ↔ a.network = network ∧ bytes = a.bytes := by
  cases bytes with
  | nil => simp [fromPayload, Address.bytes]
  | cons versionByte payload =>
    simp only [fromPayload, bind_eq_ok, Version.tryFrom_eq_ok, Address.tryNew_eq_ok,
      Address.bytes, List.cons.injEq]
    constructor
    · rintro ⟨version, rfl, hnetwork, rfl, hpayload⟩
      exact ⟨hnetwork, rfl, hpayload⟩
    · rintro ⟨hnetwork, hversion, hpayload⟩
      exact ⟨a.version, hversion, hnetwork, rfl, hpayload⟩

theorem Address.decodePayload_eq_ok :
    Address.decodePayload network text = .ok a ↔ a.network = network ∧
      ∃ u, (∀ c ∈ u, c < 2 ^ 5) ∧ text = chars (u ++ checksumSymbols network u) ∧
        conv5to8 u = a.bytes := by
  unfold Address.decodePayload
  rw [bind_eq_ok]
  simp only [check_bind_eq_ok, failIf_eq_ok, mapM_symbolOf, fromPayload_eq_ok,
    decide_eq_false_iff_not, not_not, not_lt]
  constructor
  · rintro ⟨all, ⟨hall, rfl⟩, hlong, -, hsum, hnetwork, hbytes⟩
    rw [chars, length_map] at hlong hsum hbytes
    have hu : ∀ c ∈ all.take (all.length - 8), c < 2 ^ 5 :=
      fun c hc => hall c (mem_of_mem_take hc)
    have hcs := (checksum_eq_iff hu (fun c hc => hall c (mem_of_mem_drop hc))
      (by rw [length_drop]; omega)).mp hsum
    refine ⟨hnetwork, _, hu, ?_, hbytes⟩
    rw [← hcs, take_append_drop]
  · rintro ⟨hnetwork, u, hu, rfl, hbytes⟩
    obtain ⟨sum, hcarries, hlen⟩ := carries_checksumSymbols network u
    have hcs := hcarries.symbol_lt
    have hpos : (chars (u ++ checksumSymbols network u)).length - 8 = u.length := by
      rw [chars, length_map, length_append, hlen, Nat.add_sub_cancel]
    have hall : ∀ c ∈ u ++ checksumSymbols network u, c < 2 ^ 5 :=
      fun c hc => (mem_append.mp hc).elim (hu c) (hcs c)
    refine ⟨_, ⟨hall, rfl⟩, ?_, ?_, ?_, hnetwork, ?_⟩
    · rw [chars, length_map, length_append]
      omega
    · obtain ⟨r, hr, pad, hread⟩ := exists_carries_conv5to8 hcs
      have hbits := hread.bits_eq
      rw [hpos, drop_left, length_append, length_replicate]
      omega
    · rw [hpos, take_left, drop_left]
      exact (checksum_eq_iff hu hcs hlen).mpr rfl
    · rw [hpos, take_left, hbytes]

theorem splitOnce_eq_some {sep : UInt8} {before after : Bytes} :
    splitOnce sep text = some (before, after) ↔ sep ∉ before ∧ text = before ++ sep :: after := by
  induction text generalizing before with
  | nil => simp [splitOnce]
  | cons b rest ih =>
    rw [splitOnce]
    split
    · next hb =>
      subst hb
      cases before with
      | nil => simp [eq_comm]
      | cons c before => simp +contextual [eq_comm]
    · next hb =>
      rw [Option.map_eq_some_iff]
      constructor
      · rintro ⟨⟨x, y⟩, h, heq⟩
        cases heq
        obtain ⟨hsep, rfl⟩ := ih.mp h
        exact ⟨not_mem_cons_of_ne_of_not_mem (Ne.symm hb) hsep, rfl⟩
      · rintro ⟨hsep, heq⟩
        cases before with
        | nil => exact (hb (List.cons.inj heq).1).elim
        | cons c before =>
          obtain ⟨rfl, rfl⟩ := List.cons.inj heq
          exact ⟨(before, after), ih.mpr ⟨fun h => hsep (mem_cons_of_mem _ h), rfl⟩, rfl⟩

theorem Address.tryFrom_eq_ok {value : Bytes} :
    Address.tryFrom value = .ok a ↔
      ∃ u, (∀ c ∈ u, c < 2 ^ 5) ∧ value = textOf a.network u ∧ conv5to8 u = a.bytes := by
  have hcolon : 58 ∉ a.network.asStr := by cases a.network <;> decide
  unfold Address.tryFrom
  constructor
  · split
    · next name payload hsplit =>
      rw [bind_eq_ok]
      rintro ⟨network, hname, h⟩
      obtain ⟨rfl, u, hu, rfl, hbytes⟩ := Address.decodePayload_eq_ok.mp h
      refine ⟨u, hu, ?_, hbytes⟩
      rw [(splitOnce_eq_some.mp hsplit).2, Prefix.tryFrom_eq_ok.mp hname, textOf]
    · simp
  · rintro ⟨u, hu, rfl, hbytes⟩
    rw [textOf, splitOnce_eq_some.mpr ⟨hcolon, rfl⟩]
    exact bind_eq_ok.mpr ⟨a.network, Prefix.tryFrom_eq_ok.mpr rfl,
      Address.decodePayload_eq_ok.mpr ⟨rfl, u, hu, rfl, hbytes⟩⟩

theorem textOf_inj (hu : ∀ c ∈ u, c < 2 ^ 5) (hu' : ∀ c ∈ u', c < 2 ^ 5)
    (h : textOf network u = textOf network u') : u = u' := by
  obtain ⟨_, hcarries, hlen⟩ := carries_checksumSymbols network u
  obtain ⟨_, hcarries', hlen'⟩ := carries_checksumSymbols network u'
  have hchars := (List.cons.inj (append_cancel_left h)).2
  have hread : ∀ {v}, (∀ c ∈ v, c < 2 ^ 5) → (chars v).mapM symbolOf = .ok v :=
    fun hv => mapM_symbolOf.mpr ⟨hv, rfl⟩
  have hall := hread (v := u ++ checksumSymbols network u)
    fun c hc => (mem_append.mp hc).elim (hu c) (hcarries.symbol_lt c)
  have hall' := hread (v := u' ++ checksumSymbols network u')
    fun c hc => (mem_append.mp hc).elim (hu' c) (hcarries'.symbol_lt c)
  rw [hchars, hall'] at hall
  exact (append_inj' (Except.ok.inj hall).symm (hlen.trans hlen'.symm)).1

/-- A text is read as an address exactly if its symbols carry the bytes of the address and fewer
than eight padding bits, under their checksum. It is the text the encoder writes if and only if the
padding is shorter than a symbol and zero. -/
theorem address_text_padding :
    (∀ network version payload a, Address.tryNew network version payload = .ok a →
      Address.tryFrom a.text = .ok a) ∧
    (∀ value a, Address.tryFrom value = .ok a ↔
      ∃ u r pad, r < 8 ∧ Carries u a.bytes r pad ∧ value = textOf a.network u) ∧
    ∀ (a : Address) u r pad, r < 8 → Carries u a.bytes r pad →
      (textOf a.network u = a.text ↔ r < 5 ∧ pad = 0) := by
  have hread : ∀ value a, Address.tryFrom value = .ok a ↔
      ∃ u r pad, r < 8 ∧ Carries u a.bytes r pad ∧ value = textOf a.network u := by
    intro value a
    rw [Address.tryFrom_eq_ok]
    constructor
    · rintro ⟨u, hu, rfl, hbytes⟩
      obtain ⟨r, hr, pad, h⟩ := (conv5to8_eq_iff hu).mp hbytes
      exact ⟨u, r, pad, hr, h, rfl⟩
    · rintro ⟨u, r, pad, hr, h, rfl⟩
      exact ⟨u, h.symbol_lt, rfl, (conv5to8_eq_iff h.symbol_lt).mpr ⟨r, hr, pad, h⟩⟩
  refine ⟨fun _ _ _ a _ => ?_, hread, fun a u r pad hr h => ?_⟩
  · obtain ⟨r, hr, h⟩ := carries_conv8to5 a.bytes
    exact (hread _ _).mpr ⟨_, r, 0, by omega, h, rfl⟩
  · obtain ⟨r', hr', h'⟩ := carries_conv8to5 a.bytes
    constructor
    · intro htext
      obtain rfl := textOf_inj h.symbol_lt h'.symbol_lt htext
      obtain ⟨-, rfl, rfl⟩ := h.bytes_eq h' hr (by omega)
      exact ⟨hr', rfl⟩
    · rintro ⟨hshort, rfl⟩
      have hbits := h.bits_eq
      have hbits' := h'.bits_eq
      obtain rfl : r = r' := by omega
      rw [h.unique h']
      rfl

def zeroAddress : Address := ⟨.mainnet, .pubKey, List.replicate 32 0, rfl⟩

/-- Two more texts of one address: with the padding bit set, and with a symbol too many. -/
theorem zeroAddress_texts :
    Address.tryFrom (textOf .mainnet (List.replicate 52 0 ++ [1])) = .ok zeroAddress ∧
      Address.tryFrom (textOf .mainnet (List.replicate 54 0)) = .ok zeroAddress ∧
      textOf .mainnet (List.replicate 52 0 ++ [1]) ≠ zeroAddress.text ∧
      textOf .mainnet (List.replicate 54 0) ≠ zeroAddress.text := by
  decide +kernel

end Misaka.Addresses
