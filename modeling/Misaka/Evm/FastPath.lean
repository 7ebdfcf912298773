import Misaka.Core.Ascending
import Misaka.Evm.GasAccounting

/-!
# The fast path of an empty block

`execute_block_from_snapshot` answers a block without candidates and claims from its parent alone.
Executing it in full seeds the working state from the parent's snapshot and lists the state again
afterwards.
-/

namespace Misaka.Evm

open Misaka.Core Pipeline Table

local instance bytesOrder : LinearOrder EvmAddress :=
  LinearOrder.lift' (List.map UInt8.toNat)
    (List.map_injective_iff.mpr fun _ _ => UInt8.toNat_inj.mp)

structure EvmAccountSnapshot where
  address : EvmAddress
  nonce : ℕ
  balance : ℕ
  codeHash : EvmH256
  code : Bytes
  storage : List (ℕ × ℕ)
  deriving DecidableEq, Repr

inductive SnapshotCorruption where
  | accountsNotSorted
  | missingCode (address : EvmAddress) (codeHash : EvmH256)
  | codeMismatch (address : EvmAddress) (codeHash computed : EvmH256)
  | emptyAccount (address : EvmAddress)
  | zeroSlot (address : EvmAddress)
  | storageNotSorted (address : EvmAddress)
  deriving DecidableEq, Repr

def validateCode (keccak256 : Bytes → EvmH256) (acc : EvmAccountSnapshot) :
    Except SnapshotCorruption Unit :=
  if acc.code = [] then
    failIf (acc.codeHash ≠ KECCAK_EMPTY) (.missingCode acc.address acc.codeHash)
  else
    failIf (keccak256 acc.code ≠ acc.codeHash)
      (.codeMismatch acc.address acc.codeHash (keccak256 acc.code))

def validateAccount (keccak256 : Bytes → EvmH256) (acc : EvmAccountSnapshot) :
    Except SnapshotCorruption Unit := do
  validateCode keccak256 acc
  failIf (acc.nonce = 0 ∧ acc.balance = 0 ∧ acc.code = [] ∧ acc.storage = [] ∧
    acc.codeHash = KECCAK_EMPTY) (.emptyAccount acc.address)
  checkAscending Prod.fst (.storageNotSorted acc.address)
    (fun slot => failIf (slot.2 = 0) (.zeroSlot acc.address)) (fun _ => .ok ()) none acc.storage

/-- Sorted by address, every account valid. -/
def validateSnapshotCanonical (keccak256 : Bytes → EvmH256) (snapshot : List EvmAccountSnapshot) :
    Except SnapshotCorruption Unit :=
  checkAscending (·.address) .accountsNotSorted (fun _ => .ok ()) (validateAccount keccak256) none
    snapshot

/-- `insert_account_info` and the storage of an account; a zero code hash means no code. -/
def seedAccount (acc : EvmAccountSnapshot) : DbAccount where
  balance := acc.balance
  nonce := acc.nonce
  codeHash := if acc.codeHash = 0 then KECCAK_EMPTY else acc.codeHash
  storage := (Table.insertAll Prod.fst acc.storage ∅).mapVal Prod.snd
  accountState := .none

def seedRows (snapshot : List EvmAccountSnapshot) : CacheDb × Table EvmAddress Bytes :=
  let rows := Table.insertAll EvmAccountSnapshot.address snapshot ∅
  (rows.mapVal seedAccount, rows.mapVal (·.code))

def seedCachedb (keccak256 : Bytes → EvmH256) (snapshot : List EvmAccountSnapshot) :
    Except SnapshotCorruption (CacheDb × Table EvmAddress Bytes) := do
  validateSnapshotCanonical keccak256 snapshot
  return seedRows snapshot

/-- `AccountInfo::is_empty`. -/
def DbAccount.infoEmpty (a : DbAccount) : Bool :=
  (a.codeHash = KECCAK_EMPTY ∨ a.codeHash = 0) ∧ a.balance = 0 ∧ a.nonce = 0

def listStorage (storage : Table ℕ ℕ) : List (ℕ × ℕ) :=
  (Table.sortedKeys storage).filterMap fun slot =>
    (storage.lookup slot).bind fun v => if v = 0 then none else some (slot, v)

def snapshotFromCachedb (db : CacheDb) (codes : Table EvmAddress Bytes) :
    List EvmAccountSnapshot :=
  (Table.sortedKeys db).filterMap fun address => (db.lookup address).bind fun a =>
    if a.infoEmpty then none
    else some ⟨address, a.nonce, a.balance, a.codeHash, (codes.lookup address).getD [],
      listStorage a.storage⟩

structure Roots where
  transactionsRoot : List Bytes → EvmH256
  receiptsRoot : List EvmReceipt → EvmH256
  receiptsRootV2 : List EvmReceipt → List Bytes → EvmH256
  systemOpsRoot : List DepositClaim → EvmH256
  withdrawalsRoot : List ReceiptWithdrawOp → EvmH256
  depositClaimRoot : List DepositClaim → EvmH256
  logsBloom : List EvmReceipt → Bytes
  /-- The trie over addresses, nonces, balances, code hashes and slots. -/
  secureRoot : List (EvmAddress × ℕ × ℕ × EvmH256 × List (ℕ × ℕ)) → EvmH256

def Roots.stateRoot (R : Roots) (db : CacheDb) (codes : Table EvmAddress Bytes) : EvmH256 :=
  R.secureRoot ((snapshotFromCachedb db codes).map fun a =>
    (a.address, a.nonce, a.balance, a.codeHash, a.storage))

structure RootedHeader extends EvmExecutionHeader where
  parentStateRoot : EvmH256
  stateRoot : EvmH256
  transactionsRoot : EvmH256
  receiptsRoot : EvmH256
  systemOpsRoot : EvmH256
  withdrawalsRoot : EvmH256
  depositClaimQueueRoot : EvmH256
  logsBloom : Bytes
  deriving DecidableEq, Repr

variable (M : Revm) (R : Roots) (keccak256 : Bytes → EvmH256) (fences : EvmFences)
  (typedReceipts : Bool)

def rootedHeader (parentStateRoot stateRoot : EvmH256) (result : EvmBlockResult)
    (raws : List Bytes) (systemOps : List DepositClaim) : RootedHeader :=
  { result.header with
    parentStateRoot := parentStateRoot
    stateRoot := stateRoot
    transactionsRoot := R.transactionsRoot raws
    receiptsRoot :=
      if typedReceipts then R.receiptsRootV2 result.receipts raws
      else R.receiptsRoot result.receipts
    systemOpsRoot := R.systemOpsRoot systemOps
    withdrawalsRoot := R.withdrawalsRoot result.withdrawals
    depositClaimQueueRoot := R.depositClaimRoot result.appliedDepositClaims
    logsBloom := R.logsBloom result.receipts }

/-- The header and the child snapshot of `empty_acceptance_result`. -/
def fastPath (parentStateRoot : EvmH256) (snapshot : List EvmAccountSnapshot)
    (input : EvmBlockInput) : RootedHeader × List EvmAccountSnapshot :=
  (rootedHeader R typedReceipts parentStateRoot parentStateRoot
    (emptyAcceptanceResult M input) [] [], snapshot)

/-- The rest of `execute_block_from_snapshot`. Blocks that run no code leave the codes as seeded. -/
def fullPath (parentStateRoot : EvmH256) (snapshot : List EvmAccountSnapshot)
    (input : EvmBlockInput) :
    Except (SnapshotCorruption ⊕ EvmExecError) (RootedHeader × List EvmAccountSnapshot) := do
  let seeded ← (seedCachedb keccak256 snapshot).mapError .inl
  let (result, db) ← (executeBlockEvm M fences seeded.1 input).mapError .inr
  let raws := (acceptedCandidates input.acceptedTxs result.candidateOutcomes).map (·.raw)
  return (rootedHeader R typedReceipts parentStateRoot (R.stateRoot db seeded.2) result raws
    input.payload.systemOps, snapshotFromCachedb db seeded.2)

variable {M} {fences} {keccak256} {typedReceipts} {R}

theorem evmu256ToU128_le (v : ℕ) : evmu256ToU128 v ≤ U128_MAX := by
  unfold evmu256ToU128
  split <;> omega

theorem executeBlockEvm_of_empty {db : CacheDb} {input : EvmBlockInput}
    (htxs : input.acceptedTxs = []) (hops : input.payload.systemOps = []) :
    executeBlockEvm M fences db input = .ok (emptyAcceptanceResult M input, db) := by
  have hparent (f : EvmExecutionHeader → ℕ) :
      input.parent.elim 0 (fun p => evmu256ToU128 (f p)) ≤ U128_MAX := by
    cases input.parent with
    | none => exact Nat.zero_le _
    | some p => exact evmu256ToU128_le _
  have hlane (env : EvmDerivedEnv) (poolActive f003Active capActive : Bool) (budget : ℕ)
      (s : LaneEffects) : runCandidates M env poolActive f003Active capActive budget [] s =
        .ok ⟨s, 0, []⟩ := by
    cases poolActive <;> rfl
  have htotal := hparent (·.evmTotalNativeBalance)
  have hburn := hparent (·.evmBurnAccumulator)
  simp only [executeBlockEvm, bind_eq_ok, htxs, hops, hlane]
  refine ⟨_, rfl, _, rfl, _, rfl, 0, rfl, 0, rfl, _, if_neg (not_lt.mpr hburn), ?_⟩
  simp only [add_zero, min_eq_left htotal]
  rfl

def relisted (acc : EvmAccountSnapshot) : Option EvmAccountSnapshot :=
  if (seedAccount acc).infoEmpty then none
  else some { acc with codeHash := (seedAccount acc).codeHash }

variable {acc : EvmAccountSnapshot}

theorem listStorage_seedAccount (h : validateAccount keccak256 acc = .ok ()) :
    listStorage (seedAccount acc).storage = acc.storage := by
  simp only [validateAccount, check_bind_eq_ok] at h
  obtain ⟨-, -, h⟩ := h
  obtain ⟨hsorted, hchecks, -⟩ := checkAscending_eq_ok h
  rw [listStorage, seedAccount, sortedKeys_mapVal,
    filterMap_sortedKeys hsorted (g := some) fun slot hslot => ?_, List.filterMap_some]
  have hnonzero := failIf_eq_ok.mp (hchecks slot hslot).1
  rw [lookup_mapVal, lookup_insertAll_of_mem hsorted hslot]
  simp only [decide_eq_false_iff_not] at hnonzero
  simp [hnonzero]

theorem snapshotFromCachedb_seedRows {snapshot : List EvmAccountSnapshot}
    (h : validateSnapshotCanonical keccak256 snapshot = .ok ()) :
    snapshotFromCachedb (seedRows snapshot).1 (seedRows snapshot).2 =
      snapshot.filterMap relisted := by
  obtain ⟨hsorted, hchecks, -⟩ := checkAscending_eq_ok h
  rw [snapshotFromCachedb, seedRows, sortedKeys_mapVal,
    filterMap_sortedKeys hsorted fun acc hacc => ?_]
  simp only [lookup_mapVal, lookup_insertAll_of_mem hsorted hacc, Option.map_some,
    Option.bind_some, Option.getD_some, listStorage_seedAccount (hchecks acc hacc).2]
  rfl

section Paths

variable {snapshot : List EvmAccountSnapshot} {input : EvmBlockInput} {parentStateRoot : EvmH256}

theorem fullPath_eq (htxs : input.acceptedTxs = []) (hops : input.payload.systemOps = [])
    (hcanonical : validateSnapshotCanonical keccak256 snapshot = .ok ())
    (hroot : R.stateRoot (seedRows snapshot).1 (seedRows snapshot).2 = parentStateRoot) :
    fullPath M R keccak256 fences typedReceipts parentStateRoot snapshot input =
      .ok ((fastPath M R typedReceipts parentStateRoot snapshot input).1,
        snapshot.filterMap relisted) := by
  simp only [fullPath, seedCachedb, bind_eq_ok, mapError_eq_ok]
  refine ⟨_, ⟨(), hcanonical, rfl⟩, _, executeBlockEvm_of_empty htxs hops, ?_⟩
  simp only [hroot, hops, htxs, snapshotFromCachedb_seedRows hcanonical]
  rfl

def EvmAccountSnapshot.Survives (acc : EvmAccountSnapshot) : Prop :=
  acc.codeHash ≠ 0 ∧ ¬ (acc.nonce = 0 ∧ acc.balance = 0 ∧ acc.codeHash = KECCAK_EMPTY)

theorem relisted_eq_some_iff : relisted acc = some acc ↔ acc.Survives := by
  have hempty : KECCAK_EMPTY ≠ 0 := by decide
  obtain ⟨address, nonce, balance, codeHash, code, storage⟩ := acc
  by_cases hzero : codeHash = 0
  · simp [relisted, seedAccount, EvmAccountSnapshot.Survives, hzero, hempty]
  · simp [relisted, seedAccount, DbAccount.infoEmpty, EvmAccountSnapshot.Survives, hzero]
    tauto

end Paths

/-- On a block without candidates and claims, over a canonical snapshot with the state root of the
parent, both paths give one header, and one child snapshot exactly if every account has a nonce, a
balance or code. -/
theorem fastPath_eq_fullPath_iff (M : Revm) (R : Roots) (keccak256 : Bytes → EvmH256)
    (fences : EvmFences) (typedReceipts : Bool) (parentStateRoot : EvmH256)
    (snapshot : List EvmAccountSnapshot) (input : EvmBlockInput)
    (htxs : input.acceptedTxs = []) (hops : input.payload.systemOps = [])
    (hcanonical : validateSnapshotCanonical keccak256 snapshot = .ok ())
    (hroot : R.stateRoot (seedRows snapshot).1 (seedRows snapshot).2 = parentStateRoot) :
    let full := fullPath M R keccak256 fences typedReceipts parentStateRoot snapshot input
    let fast := fastPath M R typedReceipts parentStateRoot snapshot input
    (full = .ok fast ↔ ∀ acc ∈ snapshot, acc.Survives) ∧ ∃ child, full = .ok (fast.1, child) := by
  intro full fast
  have heq : full = .ok (fast.1, snapshot.filterMap relisted) :=
    fullPath_eq htxs hops hcanonical hroot
  refine ⟨?_, _, heq⟩
  rw [heq, Except.ok.injEq, Prod.ext_iff]
  simp only [true_and, ← relisted_eq_some_iff, ← filterMap_eq_self_iff]
  rfl

def countingRoots : Roots :=
  ⟨List.length, List.length, fun r _ => r.length, List.length, List.length, List.length,
    fun _ => [], List.length⟩

def emptyInput : EvmBlockInput := ⟨none, 5000, 0, [], 5, ⟨[], [], List.replicate 20 2⟩, []⟩

def slotAccount (nonce : ℕ) : EvmAccountSnapshot :=
  ⟨List.replicate 20 1, nonce, 0, KECCAK_EMPTY, [], [(1, 1)]⟩

theorem fastPath_eq_fullPath_slotAccount :
    fullPath sampleRevm countingRoots (fun _ => 1) ⟨0, 0, 0⟩ true 1 [slotAccount 1] emptyInput =
      .ok (fastPath sampleRevm countingRoots true 1 [slotAccount 1] emptyInput) := by
  have hcanonical : validateSnapshotCanonical (fun _ => 1) [slotAccount 1] = .ok () := by decide
  refine (fastPath_eq_fullPath_iff sampleRevm countingRoots (fun _ => 1) ⟨0, 0, 0⟩ true 1
    [slotAccount 1] emptyInput rfl rfl hcanonical ?_).1.mpr ?_
  · rw [Roots.stateRoot, snapshotFromCachedb_seedRows hcanonical]
    decide
  · simp [EvmAccountSnapshot.Survives, slotAccount, KECCAK_EMPTY]

/-- Without a nonce the account still passes validation, is not in the state trie, and full
execution drops it. -/
theorem fastPath_keeps_storage :
    validateSnapshotCanonical (fun _ => 1) [slotAccount 0] = .ok () ∧
      countingRoots.stateRoot (seedRows [slotAccount 0]).1 (seedRows [slotAccount 0]).2 = 0 ∧
      fullPath sampleRevm countingRoots (fun _ => 1) ⟨0, 0, 0⟩ true 0 [slotAccount 0] emptyInput =
        .ok ((fastPath sampleRevm countingRoots true 0 [slotAccount 0] emptyInput).1, []) ∧
      (fastPath sampleRevm countingRoots true 0 [slotAccount 0] emptyInput).2 =
        [slotAccount 0] := by
  have hcanonical : validateSnapshotCanonical (fun _ => 1) [slotAccount 0] = .ok () := by decide
  have hroot :
      countingRoots.stateRoot (seedRows [slotAccount 0]).1 (seedRows [slotAccount 0]).2 = 0 := by
    rw [Roots.stateRoot, snapshotFromCachedb_seedRows hcanonical]
    decide
  exact ⟨hcanonical, hroot, fullPath_eq rfl rfl hcanonical hroot, rfl⟩

end Misaka.Evm
