import Misaka.Core.TableDiff
import Misaka.Evm.FastPath

/-!
# The history of the EVM state

The archive of `consensus/core/src/evm/state_diff.rs`: a diff for every block, full snapshots at
some of them and the bytecode by its hash. A past state is reconstructed from the nearest snapshot
by replaying diffs, each of which checks that it finds the state it was computed over.
-/

namespace Misaka.Evm

open Misaka.Core List Table

attribute [local instance] bytesOrder

structure AccountCore where
  nonce : ℕ
  balance : ℕ
  codeHash : EvmH256
  deriving DecidableEq, Repr

structure ReconAccount where
  core : AccountCore
  storage : Table ℕ ℕ
  deriving DecidableEq

abbrev ReconState := Table EvmAddress ReconAccount

structure StorageChange where
  slot : ℕ
  before : ℕ
  after : ℕ
  deriving DecidableEq, Repr

structure AccountChange where
  address : EvmAddress
  before : Option AccountCore
  after : Option AccountCore
  storageChanges : List StorageChange
  deriving DecidableEq, Repr

structure EvmStateDiffV2 where
  block : BlockHash
  parent : BlockHash
  accountChanges : List AccountChange
  deriving DecidableEq, Repr

/-- `Inconsistent` with what its message shows, of a diff applied forward or in reverse. -/
inductive StateDiffError where
  | coreMismatch (inverse : Bool) (address : EvmAddress) (expected current : Option AccountCore)
  | slotMismatch (inverse : Bool) (address : EvmAddress) (expected current : ℕ)
  | missingCode (codeHash : EvmH256)
  deriving DecidableEq, Repr

def EvmAccountSnapshot.recon (a : EvmAccountSnapshot) : ReconAccount where
  core := ⟨a.nonce, a.balance, a.codeHash⟩
  storage := (Table.insertAll Prod.fst a.storage ∅).mapVal Prod.snd

def rowsOf (snapshot : List EvmAccountSnapshot) : Table EvmAddress EvmAccountSnapshot :=
  Table.insertAll (·.address) snapshot ∅

def reconFromSnapshot (snapshot : List EvmAccountSnapshot) : ReconState :=
  (rowsOf snapshot).mapVal (·.recon)

def isEip161Empty (core : AccountCore) (storage : Table ℕ ℕ) : Bool :=
  core.nonce = 0 ∧ core.balance = 0 ∧ core.codeHash = KECCAK_EMPTY ∧ storage = ∅

def slotValue (storage : Table ℕ ℕ) (slot : ℕ) : ℕ := (storage.lookup slot).getD 0

def storageOf (a : Option ReconAccount) : Table ℕ ℕ := a.elim ∅ (·.storage)

def diffStorage (ps cs : Table ℕ ℕ) : List StorageChange :=
  ((Table.unionKeys ps cs).filter fun slot => slotValue ps slot ≠ slotValue cs slot).map fun slot =>
    ⟨slot, slotValue ps slot, slotValue cs slot⟩

def accountChange (p c : ReconState) (address : EvmAddress) : AccountChange where
  address := address
  before := (p.lookup address).map (·.core)
  after := (c.lookup address).map (·.core)
  storageChanges := diffStorage (storageOf (p.lookup address)) (storageOf (c.lookup address))

def AccountChange.listed (ch : AccountChange) : Bool :=
  ch.before ≠ ch.after ∨ ch.storageChanges ≠ []

def accountChanges (p c : ReconState) : List AccountChange :=
  ((Table.unionKeys p c).map (accountChange p c)).filter (·.listed)

/-- Of an account, a diff compares what a reconstruction keeps. -/
def computeStateDiff (parent child : List EvmAccountSnapshot) (block parentHash : BlockHash) :
    EvmStateDiffV2 :=
  ⟨block, parentHash, accountChanges (reconFromSnapshot parent) (reconFromSnapshot child)⟩

def diffCodeEntries (diff : EvmStateDiffV2) (child : List EvmAccountSnapshot) :
    List (EvmH256 × Bytes) :=
  diff.accountChanges.filterMap fun ch => ch.after.bind fun after =>
    if after.codeHash = KECCAK_EMPTY then none
    else if ch.before.map (·.codeHash) = some after.codeHash then none
    else ((rowsOf child).lookup ch.address).bind fun acc =>
      if acc.code = [] then none else some (after.codeHash, acc.code)

def applySlot (inverse : Bool) (address : EvmAddress) (storage : Table ℕ ℕ) (sc : StorageChange) :
    Except StateDiffError (Table ℕ ℕ) :=
  if sc.before ≠ slotValue storage sc.slot then
    .error (.slotMismatch inverse address sc.before (slotValue storage sc.slot))
  else .ok (storage.put sc.slot (if sc.after = 0 then none else some sc.after))

/-- Refused unless the account is as recorded. -/
def applyChange (inverse : Bool) (state : ReconState) (ch : AccountChange) :
    Except StateDiffError ReconState :=
  let current := state.lookup ch.address
  if ch.before ≠ current.map (·.core) then
    .error (.coreMismatch inverse ch.address ch.before (current.map (·.core)))
  else
    match ch.after with
    | none => .ok (state.put ch.address none)
    | some core => do
      let storage ← ch.storageChanges.foldlM (applySlot inverse ch.address) (storageOf current)
      return state.put ch.address
        (if isEip161Empty core storage then none else some ⟨core, storage⟩)

def applyStateDiff (state : ReconState) (diff : EvmStateDiffV2) :
    Except StateDiffError ReconState :=
  diff.accountChanges.foldlM (applyChange false) state

def StorageChange.reversed (sc : StorageChange) : StorageChange := ⟨sc.slot, sc.after, sc.before⟩

def AccountChange.reversed (ch : AccountChange) : AccountChange :=
  ⟨ch.address, ch.after, ch.before, ch.storageChanges.map (·.reversed)⟩

def applyInverseStateDiff (state : ReconState) (diff : EvmStateDiffV2) :
    Except StateDiffError ReconState :=
  (diff.accountChanges.map (·.reversed)).foldlM (applyChange true) state

def codeOf (codeResolver : EvmH256 → Option Bytes) (codeHash : EvmH256) :
    Except StateDiffError Bytes :=
  if codeHash = KECCAK_EMPTY then .ok []
  else (codeResolver codeHash).elim (.error (.missingCode codeHash)) .ok

def reconToSnapshot (state : ReconState) (codeResolver : EvmH256 → Option Bytes) :
    Except StateDiffError (List EvmAccountSnapshot) :=
  ((Table.sortedKeys state).filterMap fun address =>
    (state.lookup address).map (address, ·)).mapM fun row => do
      let code ← codeOf codeResolver row.2.core.codeHash
      return ⟨row.1, row.2.core.nonce, row.2.core.balance, row.2.core.codeHash, code,
        (Table.sortedKeys row.2.storage).filterMap fun slot =>
          (row.2.storage.lookup slot).map (slot, ·)⟩

/-! ## Replaying a diff -/

structure CanonicalState (state : ReconState) : Prop where
  nonzero : ∀ address slot, (storageOf (state.lookup address)).lookup slot ≠ some 0
  nonempty : ∀ address a, state.lookup address = some a → isEip161Empty a.core a.storage = false

variable {p c : ReconState} {ps cs : Table ℕ ℕ} {i : Bool} {a : EvmAddress}

theorem lookup_eq_ite (h : ∀ slot, ps.lookup slot ≠ some 0) (slot : ℕ) :
    ps.lookup slot = if slotValue ps slot = 0 then none else some (slotValue ps slot) := by
  unfold slotValue
  cases hslot : ps.lookup slot with
  | none => rfl
  | some v =>
    have hne : v ≠ 0 := fun hv => h slot (hv ▸ hslot)
    rw [Option.getD_some, if_neg hne]

theorem foldlM_applySlot (hp : ∀ slot, ps.lookup slot ≠ some 0)
    (hc : ∀ slot, cs.lookup slot ≠ some 0) :
    (diffStorage ps cs).foldlM (applySlot i a) ps = .ok cs := by
  rw [diffStorage, foldlM_map]
  refine foldlM_put_eq ((nodup_unionKeys ps cs).filter _) (fun slot _ t ht => ?_)
    fun slot hslot => ?_
  · have hvalue : slotValue ps slot = slotValue t slot := by rw [slotValue, slotValue, ht]
    rw [applySlot, if_neg (not_not.mpr hvalue), lookup_eq_ite hc]
  · rw [mem_filter, not_and] at hslot
    by_cases hmem : slot ∈ Table.unionKeys ps cs
    · have hsame : slotValue ps slot = slotValue cs slot := by simpa using hslot hmem
      rw [lookup_eq_ite hp, lookup_eq_ite hc, hsame]
    · obtain ⟨hnone, hnone'⟩ := lookup_eq_none_of_not_mem_unionKeys hmem
      rw [hnone, hnone']

variable {address : EvmAddress} {block : BlockHash} {pending : List EvmStateDiffV2}

theorem applyChange_accountChange (hp : CanonicalState p) (hc : CanonicalState c) {t : ReconState}
    (ht : t.lookup address = p.lookup address) :
    applyChange i t (accountChange p c address) = .ok (t.put address (c.lookup address)) := by
  unfold applyChange
  simp only [accountChange, ht, ne_eq, not_true_eq_false, if_false]
  cases ha : c.lookup address with
  | none => rfl
  | some a =>
    have hslots := foldlM_applySlot (i := i) (a := address) (hp.nonzero address)
      (hc.nonzero address)
    rw [ha] at hslots
    simp only [Option.map_some, hslots]
    change Except.ok (t.put address (if isEip161Empty a.core a.storage then none else some a)) = _
    rw [hc.nonempty address a ha]
    rfl

theorem foldlM_accountChanges (hp : CanonicalState p) (hc : CanonicalState c) :
    (accountChanges p c).foldlM (applyChange i) p = .ok c := by
  rw [accountChanges, filter_map, foldlM_map]
  refine foldlM_put_eq ((nodup_unionKeys p c).filter _)
    (fun address _ t ht => applyChange_accountChange hp hc ht) fun address haddress => ?_
  rw [mem_filter, not_and] at haddress
  by_cases hmem : address ∈ Table.unionKeys p c
  · obtain ⟨hcore, hchanges⟩ : (accountChange p c address).before =
        (accountChange p c address).after ∧ (accountChange p c address).storageChanges = [] := by
      simpa [AccountChange.listed] using haddress hmem
    simp only [accountChange] at hcore hchanges
    have hstorage := foldlM_applySlot (i := false) (a := address) (hp.nonzero address)
      (hc.nonzero address)
    rw [hchanges] at hstorage
    have hslots := Except.ok.inj hstorage
    cases hpa : p.lookup address with
    | none =>
      rw [hpa] at hcore
      exact (Option.map_eq_none_iff.mp hcore.symm).symm
    | some x =>
      rw [hpa] at hcore hslots
      obtain ⟨y, hy, hcores⟩ := Option.map_eq_some_iff.mp hcore.symm
      rw [hy] at hslots ⊢
      obtain ⟨core', storage'⟩ := y
      cases hcores
      cases hslots
      rfl
  · obtain ⟨hnone, hnone'⟩ := lookup_eq_none_of_not_mem_unionKeys hmem
    rw [hnone, hnone']

theorem map_reversed_diffStorage (ps cs : Table ℕ ℕ) :
    (diffStorage ps cs).map (·.reversed) = diffStorage cs ps := by
  simp only [diffStorage, map_map, unionKeys_comm ps cs, ne_comm]
  rfl

theorem map_reversed_accountChanges (p c : ReconState) :
    (accountChanges p c).map (·.reversed) = accountChanges c p := by
  have hreversed (address : EvmAddress) :
      (accountChange p c address).reversed = accountChange c p address := by
    rw [AccountChange.reversed, accountChange, map_reversed_diffStorage]
    rfl
  have hlisted (ch : AccountChange) : ch.reversed.listed = ch.listed := by
    simp [AccountChange.listed, AccountChange.reversed, eq_comm]
  rw [accountChanges, accountChanges, filter_map, filter_map, map_map,
    unionKeys_comm]
  simp only [Function.comp_def, hreversed, ← hlisted (accountChange p c _)]

/-! ## Snapshots -/

section Snapshots

variable {keccak256 : Bytes → EvmH256} {acc : EvmAccountSnapshot}
  {snapshot : List EvmAccountSnapshot}

structure EvmAccountSnapshot.Valid (keccak256 : Bytes → EvmH256) (acc : EvmAccountSnapshot) :
    Prop where
  codeHash_eq : acc.codeHash = if acc.code = [] then KECCAK_EMPTY else keccak256 acc.code
  nonempty : ¬(acc.nonce = 0 ∧ acc.balance = 0 ∧ acc.code = [] ∧ acc.storage = [])
  sorted : acc.storage.Pairwise (·.1 < ·.1)
  nonzero : ∀ slot ∈ acc.storage, slot.2 ≠ 0

theorem valid_of_validateAccount (h : validateAccount keccak256 acc = .ok ()) :
    acc.Valid keccak256 := by
  simp only [validateAccount, check_bind_eq_ok, failIf_eq_ok, decide_eq_false_iff_not] at h
  obtain ⟨hcode, hempty, hslots⟩ := h
  obtain ⟨hsorted, hchecks, -⟩ := checkAscending_eq_ok hslots
  have hhash : acc.codeHash = if acc.code = [] then KECCAK_EMPTY else keccak256 acc.code := by
    unfold validateCode at hcode
    split at hcode
    · next hnil =>
      rw [if_pos hnil]
      simpa [failIf_eq_ok] using hcode
    · next hne =>
      have heq : keccak256 acc.code = acc.codeHash := by simpa [failIf_eq_ok] using hcode
      rw [if_neg hne, heq]
  refine ⟨hhash, ?_, hsorted, fun slot hslot => ?_⟩
  · rintro ⟨hnonce, hbalance, hnil, hstorage⟩
    rw [if_pos hnil] at hhash
    exact hempty ⟨hnonce, hbalance, hnil, hstorage, hhash⟩
  · simpa [failIf_eq_ok] using (hchecks slot hslot).1

theorem EvmAccountSnapshot.Valid.code_eq_nil (h : acc.Valid keccak256)
    (hkeccak : keccak256 acc.code = KECCAK_EMPTY → acc.code = [])
    (hempty : acc.codeHash = KECCAK_EMPTY) : acc.code = [] := by
  by_contra hne
  have hhash := h.codeHash_eq
  rw [if_neg hne] at hhash
  exact hne (hkeccak (hhash.symm.trans hempty))

theorem valid_of_canonical (h : validateSnapshotCanonical keccak256 snapshot = .ok ())
    (hacc : acc ∈ snapshot) : acc.Valid keccak256 :=
  valid_of_validateAccount ((checkAscending_eq_ok h).2.1 acc hacc).2

theorem filterMap_recon_storage (hvalid : acc.Valid keccak256) :
    ((Table.sortedKeys acc.recon.storage).filterMap fun slot =>
      (acc.recon.storage.lookup slot).map (slot, ·)) = acc.storage := by
  rw [EvmAccountSnapshot.recon, sortedKeys_mapVal,
    filterMap_sortedKeys hvalid.sorted (g := some) fun slot hslot => ?_, filterMap_some]
  rw [lookup_mapVal, lookup_insertAll_of_mem hvalid.sorted hslot]
  rfl

theorem exists_of_lookup_recon {r : ReconAccount}
    (h : (reconFromSnapshot snapshot).lookup address = some r) :
    ∃ acc ∈ snapshot, acc.recon = r := by
  rw [reconFromSnapshot, lookup_mapVal] at h
  obtain ⟨acc, hacc, rfl⟩ := Option.map_eq_some_iff.mp h
  exact ⟨acc, (mem_of_lookup_insertAll hacc).1, rfl⟩

theorem lookup_reconFromSnapshot (h : validateSnapshotCanonical keccak256 snapshot = .ok ())
    (hacc : acc ∈ snapshot) : (reconFromSnapshot snapshot).lookup acc.address = some acc.recon := by
  rw [reconFromSnapshot, lookup_mapVal, rowsOf,
    lookup_insertAll_of_mem (checkAscending_eq_ok h).1 hacc, Option.map_some]

theorem canonicalState_reconFromSnapshot
    (h : validateSnapshotCanonical keccak256 snapshot = .ok ())
    (hkeccak : ∀ acc ∈ snapshot, keccak256 acc.code = KECCAK_EMPTY → acc.code = []) :
    CanonicalState (reconFromSnapshot snapshot) := by
  constructor
  · intro address slot hslot
    cases hr : (reconFromSnapshot snapshot).lookup address with
    | none =>
      rw [hr] at hslot
      cases hslot
    | some r =>
      rw [hr] at hslot
      obtain ⟨acc, hacc, rfl⟩ := exists_of_lookup_recon hr
      rw [storageOf, Option.elim_some, EvmAccountSnapshot.recon, lookup_mapVal] at hslot
      obtain ⟨row, hrow, hzero⟩ := Option.map_eq_some_iff.mp hslot
      exact (valid_of_canonical h hacc).nonzero row (mem_of_lookup_insertAll hrow).1 hzero
  · intro address r hr
    obtain ⟨acc, hacc, rfl⟩ := exists_of_lookup_recon hr
    have hvalid := valid_of_canonical h hacc
    rw [isEip161Empty, decide_eq_false_iff_not]
    rintro ⟨hnonce, hbalance, hcode, hstorage⟩
    refine hvalid.nonempty ⟨hnonce, hbalance, hvalid.code_eq_nil (hkeccak acc hacc) hcode, ?_⟩
    rw [← filterMap_recon_storage hvalid, hstorage, Table.sortedKeys, Finmap.keys_empty,
      Finset.sort_empty, filterMap_nil]

theorem reconToSnapshot_reconFromSnapshot {codeResolver : EvmH256 → Option Bytes}
    (h : validateSnapshotCanonical keccak256 snapshot = .ok ())
    (hcode : ∀ acc ∈ snapshot, codeOf codeResolver acc.codeHash = .ok acc.code) :
    reconToSnapshot (reconFromSnapshot snapshot) codeResolver = .ok snapshot := by
  have hrows : ((Table.sortedKeys (reconFromSnapshot snapshot)).filterMap fun address =>
      ((reconFromSnapshot snapshot).lookup address).map (address, ·)) =
        snapshot.map fun acc => (acc.address, acc.recon) := by
    rw [← filterMap_eq_map, reconFromSnapshot, sortedKeys_mapVal, rowsOf]
    refine filterMap_sortedKeys (checkAscending_eq_ok h).1 fun acc hacc => ?_
    rw [← rowsOf, ← reconFromSnapshot, lookup_reconFromSnapshot h hacc]
    rfl
  rw [reconToSnapshot, hrows, mapM_eq_ok, forall₂_map_left_iff, forall₂_same]
  intro acc hacc
  refine bind_eq_ok.mpr ⟨acc.code, hcode acc hacc, ?_⟩
  simp only [filterMap_recon_storage (valid_of_canonical h hacc)]
  rfl

end Snapshots

/-! ## The archive of a chain -/

def MAX_RECONSTRUCTION_DIFFS : ℕ := 8 * 2048

inductive ReconstructGatherError where
  | store (e : String)
  | checkpoint (block : BlockHash) (e : String)
  | unavailable (block : BlockHash)
  | tooDeep (block : BlockHash)
  deriving DecidableEq, Repr

/-- The three reads of the stores; a checkpoint with what its snapshot decodes to. -/
structure ArchiveStores where
  getCheckpoint : BlockHash → Except String (Option (Except String (List EvmAccountSnapshot)))
  getDiff : BlockHash → Except String (Option EvmStateDiffV2)
  hasHeader : BlockHash → Bool

/-- The loop of the gathering, with the number of diffs it may still add. -/
def gatherLoop (S : ArchiveStores) (block : BlockHash) : ℕ → BlockHash → List EvmStateDiffV2 →
    Except ReconstructGatherError (List EvmAccountSnapshot × List EvmStateDiffV2)
  | room, cur, pending => do
    match ← (S.getCheckpoint cur).mapError .store with
    | some cp => return (← cp.mapError (.checkpoint cur), pending)
    | none =>
      match ← (S.getDiff cur).mapError .store with
      | none => throw (.unavailable cur)
      | some diff =>
        match room with
        | 0 => throw (.tooDeep block)
        | room + 1 =>
          if S.hasHeader diff.parent then gatherLoop S block room diff.parent (diff :: pending)
          else return ([], diff :: pending)

def gatherReconstructionInputs (S : ArchiveStores) (block : BlockHash) :
    Except ReconstructGatherError (List EvmAccountSnapshot × List EvmStateDiffV2) :=
  gatherLoop S block MAX_RECONSTRUCTION_DIFFS block []

def reconstruct (S : ArchiveStores) (codeResolver : EvmH256 → Option Bytes) (block : BlockHash) :
    Except (ReconstructGatherError ⊕ StateDiffError) (List EvmAccountSnapshot) := do
  let (seed, diffs) ← (gatherReconstructionInputs S block).mapError .inl
  let state ← (diffs.foldlM applyStateDiff (reconFromSnapshot seed)).mapError .inr
  (reconToSnapshot state codeResolver).mapError .inr

section Archive

variable (keccak256 : Bytes → EvmH256) (hashes : ℕ → BlockHash)
  (states : ℕ → List EvmAccountSnapshot) (checkpoints : ℕ → Bool) (n : ℕ)

/-- The diff of the block after the first `i` of a chain. -/
def diffAt (i : ℕ) : EvmStateDiffV2 :=
  computeStateDiff (states i) (states (i + 1)) (hashes (i + 1)) (hashes i)

def codeEntries : List (EvmH256 × Bytes) :=
  (List.range n).flatMap fun i => diffCodeEntries (diffAt hashes states i) (states (i + 1))

/-- The bytecode that the blocks of a chain deployed, by its hash. -/
def deployedCode (codeHash : EvmH256) : Option Bytes :=
  ((Table.insertAll Prod.fst (codeEntries hashes states n) ∅).lookup codeHash).map Prod.snd

/-- A chain of canonical snapshots from the empty one, without collisions among its codes. -/
structure StateChain : Prop where
  start : states 0 = []
  canonical : ∀ i ≤ n, validateSnapshotCanonical keccak256 (states i) = .ok ()
  keccak_nil : ∀ i ≤ n, ∀ acc ∈ states i, keccak256 acc.code = KECCAK_EMPTY → acc.code = []
  keccak_inj : ∀ i ≤ n, ∀ acc ∈ states i, ∀ j ≤ n, ∀ acc' ∈ states j,
    keccak256 acc.code = keccak256 acc'.code → acc.code = acc'.code

/-- Stores with the diffs of a chain and checkpoints at some of its blocks. -/
structure Archived (S : ArchiveStores) : Prop where
  diff : ∀ i < n, S.getDiff (hashes (i + 1)) = .ok (some (diffAt hashes states i))
  checkpoint : ∀ i < n, S.getCheckpoint (hashes (i + 1)) =
    .ok (if checkpoints (i + 1) then some (.ok (states (i + 1))) else none)
  header : ∀ i ≤ n, S.hasHeader (hashes i) = decide (0 < i)

/-- The diffs between a block and the nearest checkpoint, or the start of the chain. -/
def diffsFrom : ℕ → List EvmStateDiffV2
  | 0 => []
  | i + 1 => if checkpoints (i + 1) then [] else diffsFrom i ++ [diffAt hashes states i]

def seedOf : ℕ → List EvmAccountSnapshot
  | 0 => []
  | i + 1 => if checkpoints (i + 1) then states (i + 1) else seedOf i

variable {keccak256 hashes states checkpoints n} {S : ArchiveStores} {i : ℕ}

theorem gatherLoop_step (hS : Archived hashes states checkpoints n S) {room : ℕ} (hi : i < n) :
    gatherLoop S block room (hashes (i + 1)) pending =
      if checkpoints (i + 1) then .ok (states (i + 1), pending)
      else
        match room with
        | 0 => .error (.tooDeep block)
        | room + 1 =>
          if 0 < i then gatherLoop S block room (hashes i) (diffAt hashes states i :: pending)
          else .ok ([], diffAt hashes states i :: pending) := by
  have hheader : S.hasHeader (diffAt hashes states i).parent = decide (0 < i) := hS.header i hi.le
  rw [gatherLoop, hS.checkpoint i hi]
  cases checkpoints (i + 1) with
  | true => rfl
  | false =>
    simp only [Bool.false_eq_true, if_false, hS.diff i hi]
    cases room with
    | zero => rfl
    | succ room =>
      change (if S.hasHeader (diffAt hashes states i).parent then _ else _) = _
      simp only [hheader, decide_eq_true_eq]
      rfl

theorem gatherLoop_eq (hS : Archived hashes states checkpoints n S) {room : ℕ} (hi : i < n) :
    gatherLoop S block room (hashes (i + 1)) pending =
      if (diffsFrom hashes states checkpoints (i + 1)).length ≤ room then
        .ok (seedOf states checkpoints (i + 1),
          diffsFrom hashes states checkpoints (i + 1) ++ pending)
      else .error (.tooDeep block) := by
  induction i generalizing room pending with
  | zero =>
    rw [gatherLoop_step hS hi, diffsFrom, seedOf]
    cases checkpoints 1 <;> cases room <;> rfl
  | succ i ih =>
    rw [gatherLoop_step hS hi, diffsFrom, seedOf]
    cases checkpoints (i + 1 + 1) with
    | true => simp
    | false =>
      cases room with
      | zero => simp
      | succ room =>
        simp only [Nat.succ_pos, if_true, ih (Nat.lt_of_succ_lt hi), Bool.false_eq_true, if_false,
          length_append, length_singleton, Nat.add_le_add_iff_right, append_assoc,
          singleton_append]

theorem applyStateDiff_diffAt (h : StateChain keccak256 states n) (hi : i < n) :
    applyStateDiff (reconFromSnapshot (states i)) (diffAt hashes states i) =
        .ok (reconFromSnapshot (states (i + 1))) ∧
      applyInverseStateDiff (reconFromSnapshot (states (i + 1))) (diffAt hashes states i) =
        .ok (reconFromSnapshot (states i)) := by
  have hcanonical (j : ℕ) (hj : j ≤ n) : CanonicalState (reconFromSnapshot (states j)) :=
    canonicalState_reconFromSnapshot (h.canonical j hj) (h.keccak_nil j hj)
  constructor
  · exact foldlM_accountChanges (hcanonical i hi.le) (hcanonical (i + 1) hi)
  · rw [applyInverseStateDiff, diffAt, computeStateDiff, map_reversed_accountChanges]
    exact foldlM_accountChanges (hcanonical (i + 1) hi) (hcanonical i hi.le)

theorem foldlM_diffsFrom (h : StateChain keccak256 states n) (hi : i ≤ n) :
    (diffsFrom hashes states checkpoints i).foldlM applyStateDiff
        (reconFromSnapshot (seedOf states checkpoints i)) = .ok (reconFromSnapshot (states i)) := by
  induction i with
  | zero => rw [diffsFrom, seedOf, h.start, foldlM_nil_ok]
  | succ i ih =>
    rw [diffsFrom, seedOf]
    split
    · rfl
    · refine foldlM_append_eq_ok.mpr ⟨_, ih (Nat.le_of_succ_le hi), ?_⟩
      exact foldlM_cons_eq_ok.mpr ⟨_, (applyStateDiff_diffAt h hi).1, rfl⟩

theorem code_inj (h : StateChain keccak256 states n) {j : ℕ} {acc acc' : EvmAccountSnapshot}
    (hi : i ≤ n) (hacc : acc ∈ states i) (hj : j ≤ n) (hacc' : acc' ∈ states j)
    (hhash : acc.codeHash = acc'.codeHash) : acc.code = acc'.code := by
  have hcode := (valid_of_canonical (h.canonical i hi) hacc).codeHash_eq
  have hcode' := (valid_of_canonical (h.canonical j hj) hacc').codeHash_eq
  rw [hcode, hcode'] at hhash
  split at hhash <;> split at hhash
  · next hnil hnil' => rw [hnil, hnil']
  · next hnil _ => rw [hnil, h.keccak_nil j hj acc' hacc' hhash.symm]
  · next _ hnil' => rw [hnil', h.keccak_nil i hi acc hacc hhash]
  · exact h.keccak_inj i hi acc hacc j hj acc' hacc' hhash

theorem mem_diffCodeEntries {entry : EvmH256 × Bytes} :
    entry ∈ diffCodeEntries (diffAt hashes states i) (states (i + 1)) ↔
      ∃ address acc, (rowsOf (states (i + 1))).lookup address = some acc ∧
        acc.codeHash ≠ KECCAK_EMPTY ∧ acc.code ≠ [] ∧
        ((reconFromSnapshot (states i)).lookup address).map (·.core.codeHash) ≠ some acc.codeHash ∧
        entry = (acc.codeHash, acc.code) := by
  have hafter (address : EvmAddress) : (reconFromSnapshot (states (i + 1))).lookup address =
      ((rowsOf (states (i + 1))).lookup address).map (·.recon) := lookup_mapVal _ _ _
  simp only [diffCodeEntries, mem_filterMap, diffAt, computeStateDiff, accountChanges,
    filter_map, mem_map, mem_filter, exists_exists_and_eq_and, accountChange, hafter,
    Option.map_map]
  refine exists_congr fun address => ?_
  cases hrow : (rowsOf (states (i + 1))).lookup address with
  | none => simp
  | some acc =>
    have hchange : address ∈ Table.unionKeys (reconFromSnapshot (states i))
        (reconFromSnapshot (states (i + 1))) := by
      by_contra hmem
      have hnone := (lookup_eq_none_of_not_mem_unionKeys hmem).2
      rw [hafter, hrow] at hnone
      cases hnone
    simp only [Function.comp_apply, Option.map_some, Option.map_eq_some_iff, Option.bind_some,
      Option.ite_none_left_eq_some, not_exists, not_and, Option.some.injEq, ne_eq, exists_eq_left']
    constructor
    · rintro ⟨-, hempty, hold, hne, rfl⟩
      exact ⟨hempty, hne, hold, rfl⟩
    · rintro ⟨hempty, hne, hold, rfl⟩
      refine ⟨⟨hchange, ?_⟩, hempty, hold, hne, rfl⟩
      rw [AccountChange.listed, decide_eq_true_eq]
      refine .inl fun heq => ?_
      rw [accountChange, hafter, hrow] at heq
      obtain ⟨r, hr, hcore⟩ := Option.map_eq_some_iff.mp heq
      exact hold r hr (congrArg AccountCore.codeHash hcore)

/-- Every code of the chain was deployed by the block from which on its account has it. -/
theorem exists_entry (h : StateChain keccak256 states n) (hi : i ≤ n) {acc : EvmAccountSnapshot}
    (hacc : acc ∈ states i) (hcode : acc.codeHash ≠ KECCAK_EMPTY) :
    ∃ j < i, (acc.codeHash, acc.code) ∈
      diffCodeEntries (diffAt hashes states j) (states (j + 1)) := by
  induction i generalizing acc with
  | zero =>
    rw [h.start] at hacc
    cases hacc
  | succ i ih =>
    by_cases hold : ((reconFromSnapshot (states i)).lookup acc.address).map (·.core.codeHash) =
        some acc.codeHash
    · obtain ⟨r, hr, hhash⟩ := Option.map_eq_some_iff.mp hold
      obtain ⟨acc', hacc', rfl⟩ := exists_of_lookup_recon hr
      change acc'.codeHash = acc.codeHash at hhash
      obtain ⟨j, hj, hentry⟩ := ih (Nat.le_of_succ_le hi) hacc' (hhash ▸ hcode)
      rw [hhash, code_inj h (Nat.le_of_succ_le hi) hacc' hi hacc hhash] at hentry
      exact ⟨j, hj.trans (Nat.lt_succ_self i), hentry⟩
    · have hcanonical := h.canonical (i + 1) hi
      have hrow : (rowsOf (states (i + 1))).lookup acc.address = some acc :=
        lookup_insertAll_of_mem (checkAscending_eq_ok hcanonical).1 hacc
      have hne : acc.code ≠ [] := fun hnil =>
        hcode ((valid_of_canonical hcanonical hacc).codeHash_eq.trans (if_pos hnil))
      exact ⟨i, Nat.lt_succ_self i,
        mem_diffCodeEntries.mpr ⟨acc.address, acc, hrow, hcode, hne, hold, rfl⟩⟩

theorem codeOf_deployedCode (h : StateChain keccak256 states n) (hi : i ≤ n)
    {acc : EvmAccountSnapshot} (hacc : acc ∈ states i) :
    codeOf (deployedCode hashes states n) acc.codeHash = .ok acc.code := by
  unfold codeOf
  split
  · next hempty =>
    rw [(valid_of_canonical (h.canonical i hi) hacc).code_eq_nil (h.keccak_nil i hi acc hacc)
      hempty]
  · next hcode =>
    obtain ⟨j, hj, hentry⟩ := exists_entry h hi hacc hcode
    have hmem : (acc.codeHash, acc.code) ∈ codeEntries hashes states n :=
      mem_flatMap.mpr ⟨j, mem_range.mpr (hj.trans_le hi), hentry⟩
    obtain ⟨entry, hmem, hhash, hlookup⟩ := exists_lookup_insertAll Prod.fst hmem
    rw [deployedCode, hlookup]
    obtain ⟨j', hj', hentry'⟩ := mem_flatMap.mp hmem
    obtain ⟨address, acc', hrow, -, -, -, rfl⟩ := mem_diffCodeEntries.mp hentry'
    have hcodes := code_inj h (mem_range.mp hj') (mem_of_lookup_insertAll hrow).1 hi hacc
      hhash
    exact congrArg Except.ok hcodes

/-- Every block of an archived chain that is not too many diffs away from a checkpoint or the start
is reconstructed exactly, any other is refused, and a diff undone leaves what it was applied to. -/
theorem history_reconstructs (keccak256 : Bytes → EvmH256) (hashes : ℕ → BlockHash)
    (states : ℕ → List EvmAccountSnapshot) (checkpoints : ℕ → Bool) (n : ℕ) (S : ArchiveStores)
    (h : StateChain keccak256 states n) (hS : Archived hashes states checkpoints n S) :
    ∀ i < n, reconstruct S (deployedCode hashes states n) (hashes (i + 1)) =
        (if (diffsFrom hashes states checkpoints (i + 1)).length ≤ MAX_RECONSTRUCTION_DIFFS then
          .ok (states (i + 1))
        else .error (.inl (.tooDeep (hashes (i + 1))))) ∧
      applyStateDiff (reconFromSnapshot (states i)) (diffAt hashes states i) =
        .ok (reconFromSnapshot (states (i + 1))) ∧
      applyInverseStateDiff (reconFromSnapshot (states (i + 1))) (diffAt hashes states i) =
        .ok (reconFromSnapshot (states i)) := by
  intro i hi
  refine ⟨?_, applyStateDiff_diffAt h hi⟩
  rw [reconstruct, gatherReconstructionInputs, gatherLoop_eq hS hi]
  split
  · rw [append_nil]
    refine bind_eq_ok.mpr ⟨_, rfl, bind_eq_ok.mpr
      ⟨_, mapError_eq_ok.mpr (foldlM_diffsFrom h hi), mapError_eq_ok.mpr ?_⟩⟩
    exact reconToSnapshot_reconFromSnapshot (h.canonical (i + 1) hi)
      fun acc hacc => codeOf_deployedCode h hi hacc
  · rfl

end Archive

/-- Stores of a chain whose blocks are named by their heights. -/
def archiveOf (states : ℕ → List EvmAccountSnapshot) (checkpoints : ℕ → Bool) : ArchiveStores where
  getCheckpoint block := .ok (if checkpoints block then some (.ok (states block)) else none)
  getDiff block := .ok (some (diffAt id states (block - 1)))
  hasHeader block := decide (0 < block)

theorem archived_archiveOf (states : ℕ → List EvmAccountSnapshot) (checkpoints : ℕ → Bool)
    (n : ℕ) : Archived id states checkpoints n (archiveOf states checkpoints) :=
  ⟨fun _ _ => rfl, fun _ _ => rfl, fun _ _ => rfl⟩

def contractAccount (nonce : ℕ) (storage : List (ℕ × ℕ)) : EvmAccountSnapshot :=
  ⟨List.replicate 20 1, nonce, 0, 7, [1], storage⟩

/-- A contract is deployed, writes a slot and clears it again. -/
def contractStates : ℕ → List EvmAccountSnapshot
  | 0 => []
  | 1 => [contractAccount 1 []]
  | 2 => [contractAccount 2 [(3, 5)]]
  | _ => [contractAccount 3 []]

theorem history_reconstructs_contract :
    reconstruct (archiveOf contractStates (· = 2)) (deployedCode id contractStates 3) 3 =
      .ok [contractAccount 3 []] := by
  have hchain : StateChain (fun _ => 7) contractStates 3 := by
    refine ⟨rfl, ?_, ?_, ?_⟩
    · decide
    · decide
    · decide
  exact (history_reconstructs _ id contractStates _ 3 _ hchain (archived_archiveOf _ _ 3) 2
    (by decide)).1.trans (if_pos (by decide))

theorem length_diffsFrom_none (states : ℕ → List EvmAccountSnapshot) (i : ℕ) :
    (diffsFrom id states (fun _ => false) i).length = i := by
  induction i with
  | zero => rfl
  | succ i ih => simp [diffsFrom, ih]

/-- A chain of empty states that has no checkpoint is refused past the bound. -/
theorem history_too_deep :
    StateChain (fun _ => KECCAK_EMPTY) (fun _ => []) (MAX_RECONSTRUCTION_DIFFS + 1) ∧
    reconstruct (archiveOf (fun _ => []) fun _ => false)
        (deployedCode id (fun _ => []) (MAX_RECONSTRUCTION_DIFFS + 1))
        (MAX_RECONSTRUCTION_DIFFS + 1) =
      .error (.inl (.tooDeep (MAX_RECONSTRUCTION_DIFFS + 1))) := by
  have hnil : ∀ i ≤ MAX_RECONSTRUCTION_DIFFS + 1, ∀ acc ∈ ([] : List EvmAccountSnapshot), False :=
    fun _ _ _ hacc => not_mem_nil hacc
  refine ⟨⟨rfl, fun _ _ => rfl, fun i hi acc hacc => (hnil i hi acc hacc).elim,
    fun i hi acc hacc => (hnil i hi acc hacc).elim⟩, ?_⟩
  have hdeep : ¬(diffsFrom id (fun _ => []) (fun _ => false)
      (MAX_RECONSTRUCTION_DIFFS + 1)).length ≤ MAX_RECONSTRUCTION_DIFFS := by
    rw [length_diffsFrom_none]
    exact Nat.not_succ_le_self _
  have hloop : gatherReconstructionInputs (archiveOf (fun _ => []) fun _ => false)
      (MAX_RECONSTRUCTION_DIFFS + 1) = .error (.tooDeep (MAX_RECONSTRUCTION_DIFFS + 1)) :=
    (gatherLoop_eq (archived_archiveOf _ _ (MAX_RECONSTRUCTION_DIFFS + 1))
      (Nat.lt_succ_self _)).trans (if_neg hdeep)
  rw [reconstruct, hloop]
  rfl

end Misaka.Evm
