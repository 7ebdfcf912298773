import Misaka.Core.Journal
import Misaka.Core.Table
import Misaka.Dns.Bond

/-!
# The persisted bond registry

`reconcile_dns_bond_registry` moves the registry from one selected chain to another: the mutations
of detached blocks are inverted tip to ancestor, those of attached blocks applied ancestor to tip,
and any unexpected row stops the node.
-/

namespace Misaka.Dns

open Misaka.Core Table

/-- The `StakeBonds` rows by outpoint. -/
abbrev BondRegistry := Table TransactionOutpoint StakeBondRecord

abbrev MutationBlock := BlockHash × List BondMutation

/-- Why the node stops in `palw_overlay_commit_fail_stop`, with the values its text names. -/
inductive RegistryError where
  | revertInsertMissing (outpoint : TransactionOutpoint) (block : BlockHash)
  | revertStampMissing (kind : StampKind) (outpoint : TransactionOutpoint) (block : BlockHash)
  | revertStampUnexpected (kind : StampKind) (outpoint : TransactionOutpoint) (block : BlockHash)
      (expected : ℕ) (found : Option ℕ)
  | applyInsertExists (outpoint : TransactionOutpoint) (block : BlockHash)
  | applyStampMissing (kind : StampKind) (outpoint : TransactionOutpoint) (block : BlockHash)
  | applyStampTwice (kind : StampKind) (outpoint : TransactionOutpoint) (block : BlockHash)
      (found : ℕ)
  deriving DecidableEq, Repr

def revertInsert (block : BlockHash) (outpoint : TransactionOutpoint) (working : BondRegistry) :
    Except RegistryError BondRegistry :=
  match working.lookup outpoint with
  | none => .error (.revertInsertMissing outpoint block)
  | some _ => .ok (working.erase outpoint)

def revertStamp (kind : StampKind) (block : BlockHash) (outpoint : TransactionOutpoint)
    (daaScore : ℕ) (working : BondRegistry) : Except RegistryError BondRegistry :=
  match working.lookup outpoint with
  | none => .error (.revertStampMissing kind outpoint block)
  | some record =>
    if record.stamp kind ≠ some daaScore then
      .error (.revertStampUnexpected kind outpoint block daaScore (record.stamp kind))
    else .ok (working.adjust outpoint (·.setStamp kind none daaScore))

def applyInsert (block : BlockHash) (outpoint : TransactionOutpoint) (record : StakeBondRecord)
    (working : BondRegistry) : Except RegistryError BondRegistry :=
  match working.lookup outpoint with
  | some _ => .error (.applyInsertExists outpoint block)
  | none => .ok (working.insert outpoint record)

def applyStamp (kind : StampKind) (block : BlockHash) (outpoint : TransactionOutpoint)
    (daaScore : ℕ) (working : BondRegistry) : Except RegistryError BondRegistry :=
  match working.lookup outpoint with
  | none => .error (.applyStampMissing kind outpoint block)
  | some record =>
    match record.stamp kind with
    | some found => .error (.applyStampTwice kind outpoint block found)
    | none => .ok (working.adjust outpoint (·.setStamp kind (some daaScore) daaScore))

def revertMutation (block : BlockHash) (working : BondRegistry) :
    BondMutation → Except RegistryError BondRegistry
  | .insert outpoint _ => revertInsert block outpoint working
  | .slash outpoint daa => revertStamp .slash block outpoint daa working
  | .unbond outpoint daa => revertStamp .unbond block outpoint daa working

def applyMutation (block : BlockHash) (working : BondRegistry) :
    BondMutation → Except RegistryError BondRegistry
  | .insert outpoint record => applyInsert block outpoint record working
  | .slash outpoint daa => applyStamp .slash block outpoint daa working
  | .unbond outpoint daa => applyStamp .unbond block outpoint daa working

def detachBlock (working : BondRegistry) (b : MutationBlock) :
    Except RegistryError BondRegistry :=
  b.2.reverse.foldlM (revertMutation b.1) working

def attachBlock (working : BondRegistry) (b : MutationBlock) :
    Except RegistryError BondRegistry :=
  b.2.foldlM (applyMutation b.1) working

def touchedBy (blocks : List MutationBlock) : Finset TransactionOutpoint :=
  (blocks.flatMap fun b => b.2.map BondMutation.outpoint).toFinset

/-- The new rows and the outpoints touched. Every mutation that goes through records its outpoint,
so on success the touched set is that of all mutations. -/
def reconcileDnsBondRegistry (working : BondRegistry) (removed added : List MutationBlock) :
    Except RegistryError (BondRegistry × Finset TransactionOutpoint) := do
  let detached ← removed.foldlM detachBlock working
  let attached ← added.foldlM attachBlock detached
  return (attached, touchedBy removed ∪ touchedBy added)

/-- The rows after `canonicalize_dns_bond_statuses`. -/
def canonicalRows (working : BondRegistry) (sinkDaaScore : ℕ) : BondRegistry :=
  working.mapVal (·.withStatusAt sinkDaaScore)

def canonicalizeDnsBondStatuses (working : BondRegistry) (sinkDaaScore : ℕ) :
    BondRegistry × Finset TransactionOutpoint :=
  (canonicalRows working sinkDaaScore,
    working.keys.filter fun o =>
      (working.lookup o).any fun r => r.status ≠ effectiveBondStatus r sinkDaaScore)

/-- Reconcile, canonicalize at the new sink, and write every touched row (or its deletion) back to
the store. -/
def stageDnsBondMutations (store : BondRegistry) (removed added : List MutationBlock)
    (newSinkDaaScore : ℕ) : Except RegistryError BondRegistry := do
  let (reconciled, touched) ← reconcileDnsBondRegistry store removed added
  let (working, moved) := canonicalizeDnsBondStatuses reconciled newSinkDaaScore
  return store.overwrite working (touched ∪ moved)

def BondRegistry.stamps (registry : BondRegistry) : BondRegistry :=
  Table.mapVal StakeBondRecord.stamps registry

theorem BondRegistry.lookup_stamps (registry : BondRegistry) (o : TransactionOutpoint) :
    registry.stamps.lookup o = (registry.lookup o).map StakeBondRecord.stamps :=
  lookup_mapVal _ _ _

variable {r r' : BondRegistry} {o : TransactionOutpoint} {b : BlockHash}

theorem canonicalRows_eq_of_stamps_eq (h : r.stamps = r'.stamps) (d : ℕ) :
    canonicalRows r d = canonicalRows r' d := by
  have key (q : BondRegistry) : canonicalRows q d = q.stamps.mapVal (·.withStatusAt d) := by
    rw [BondRegistry.stamps, mapVal_mapVal]
    rfl
  rw [key, key, h]

@[simp] theorem stamps_canonicalRows (r : BondRegistry) (d : ℕ) :
    (canonicalRows r d).stamps = r.stamps := by
  rw [BondRegistry.stamps, canonicalRows, mapVal_mapVal]
  rfl

theorem stamps_adjust_setStamp (r : BondRegistry) (o : TransactionOutpoint) (kind : StampKind)
    (v : Option ℕ) (d : ℕ) :
    BondRegistry.stamps (r.adjust o (·.setStamp kind v d)) =
      r.stamps.adjust o fun rec => (rec.setStamp kind v d).stamps :=
  mapVal_adjust r o fun rec => (stamps_setStamp_stamps rec kind v d).symm

theorem lookup_of_stamps_eq (h : r.stamps = r'.stamps) (o : TransactionOutpoint) :
    (r.lookup o).map StakeBondRecord.stamps = (r'.lookup o).map StakeBondRecord.stamps := by
  rw [← BondRegistry.lookup_stamps, h, BondRegistry.lookup_stamps]

theorem lookup_none_of_stamps_eq (h : r.stamps = r'.stamps) (ho : r.lookup o = none) :
    r'.lookup o = none := by
  have hl := lookup_of_stamps_eq h o
  rw [ho] at hl
  simpa using hl.symm

variable {rec : StakeBondRecord} {kind : StampKind}

theorem lookup_some_of_stamps_eq (h : r.stamps = r'.stamps) (ho : r.lookup o = some rec) :
    ∃ rec', r'.lookup o = some rec' ∧ rec'.stamps = rec.stamps := by
  have hl := lookup_of_stamps_eq h o
  rw [ho] at hl
  simpa using hl.symm

theorem exists_stamp_of_stamps_eq {v : Option ℕ} (h : r.stamps = r'.stamps)
    (ho : ∃ rec, r.lookup o = some rec ∧ rec.stamp kind = v) :
    ∃ rec, r'.lookup o = some rec ∧ rec.stamp kind = v := by
  obtain ⟨rec, hrec, rfl⟩ := ho
  obtain ⟨rec', hrec', hstamps⟩ := lookup_some_of_stamps_eq h hrec
  exact ⟨rec', hrec', by rw [← stamp_stamps, hstamps, stamp_stamps]⟩

theorem applyStamp_eq_ok {d : ℕ} :
    applyStamp kind b o d r = .ok r' ↔
      (∃ rec, r.lookup o = some rec ∧ rec.stamp kind = none) ∧
        r' = r.adjust o (·.setStamp kind (some d) d) := by
  unfold applyStamp
  cases r.lookup o with
  | none => simp
  | some rec => cases hs : rec.stamp kind <;> simp [hs, eq_comm]

theorem revertStamp_eq_ok {d : ℕ} :
    revertStamp kind b o d r = .ok r' ↔
      (∃ rec, r.lookup o = some rec ∧ rec.stamp kind = some d) ∧
        r' = r.adjust o (·.setStamp kind none d) := by
  unfold revertStamp
  cases r.lookup o with
  | none => simp
  | some rec =>
    by_cases hs : rec.stamp kind = some d
    · simp [hs, eq_comm]
    · simp [hs]

theorem applyInsert_eq_ok :
    applyInsert b o rec r = .ok r' ↔ r.lookup o = none ∧ r' = r.insert o rec := by
  unfold applyInsert
  cases r.lookup o <;> simp [eq_comm]

theorem revertInsert_eq_ok :
    revertInsert b o r = .ok r' ↔ (∃ rec, r.lookup o = some rec) ∧ r' = r.erase o := by
  unfold revertInsert
  cases r.lookup o <;> simp [eq_comm]

theorem applyStamp_reversible (kind : StampKind) (b : BlockHash) :
    Reversible BondRegistry.stamps
      (fun r (e : TransactionOutpoint × ℕ) => applyStamp kind b e.1 e.2 r)
      (fun r e => revertStamp kind b e.1 e.2 r) where
  apply_congr := by
    rintro s t ⟨o, d⟩ s' hst hs
    obtain ⟨hrec, rfl⟩ := applyStamp_eq_ok.mp hs
    refine ⟨_, applyStamp_eq_ok.mpr ⟨exists_stamp_of_stamps_eq hst hrec, rfl⟩, ?_⟩
    rw [stamps_adjust_setStamp, stamps_adjust_setStamp, hst]
  revert_congr := by
    rintro s t ⟨o, d⟩ s' hst hs
    obtain ⟨hrec, rfl⟩ := revertStamp_eq_ok.mp hs
    refine ⟨_, revertStamp_eq_ok.mpr ⟨exists_stamp_of_stamps_eq hst hrec, rfl⟩, ?_⟩
    rw [stamps_adjust_setStamp, stamps_adjust_setStamp, hst]
  revert_apply := by
    rintro s ⟨o, d⟩ s' hs
    obtain ⟨⟨rec, hrec, hnone⟩, rfl⟩ := applyStamp_eq_ok.mp hs
    refine ⟨_, revertStamp_eq_ok.mpr ⟨⟨rec.setStamp kind (some d) d, ?_, ?_⟩, rfl⟩, ?_⟩
    · rw [lookup_adjust_eq, if_pos rfl, hrec]
      rfl
    · exact stamp_setStamp rec kind (some d) d
    · -- the row is written and cleared again; every other row is untouched
      rw [adjust_adjust, BondRegistry.stamps]
      apply Finmap.ext_lookup
      intro o'
      rw [lookup_mapVal, BondRegistry.lookup_stamps, lookup_adjust_eq]
      split
      · next ho =>
        rw [ho, hrec]
        exact congrArg some (stamps_setStamp_none (some d) d d hnone)
      · rfl

theorem applyInsert_reversible (b : BlockHash) :
    Reversible BondRegistry.stamps
      (fun r (e : TransactionOutpoint × StakeBondRecord) => applyInsert b e.1 e.2 r)
      (fun r e => revertInsert b e.1 r) where
  apply_congr := by
    rintro s t ⟨o, rec⟩ s' hst hs
    obtain ⟨hnone, rfl⟩ := applyInsert_eq_ok.mp hs
    refine ⟨_, applyInsert_eq_ok.mpr ⟨lookup_none_of_stamps_eq hst hnone, rfl⟩, ?_⟩
    change Table.mapVal _ _ = Table.mapVal _ _
    rw [mapVal_insert, mapVal_insert]
    exact congrArg _ hst
  revert_congr := by
    rintro s t ⟨o, rec⟩ s' hst hs
    obtain ⟨⟨r, hr⟩, rfl⟩ := revertInsert_eq_ok.mp hs
    obtain ⟨r', hr', -⟩ := lookup_some_of_stamps_eq hst hr
    refine ⟨_, revertInsert_eq_ok.mpr ⟨⟨r', hr'⟩, rfl⟩, ?_⟩
    change Table.mapVal _ _ = Table.mapVal _ _
    rw [mapVal_erase, mapVal_erase]
    exact congrArg _ hst
  revert_apply := by
    rintro s ⟨o, rec⟩ s' hs
    obtain ⟨hnone, rfl⟩ := applyInsert_eq_ok.mp hs
    refine ⟨_, revertInsert_eq_ok.mpr ⟨⟨rec, Finmap.lookup_insert s⟩, rfl⟩, ?_⟩
    rw [erase_insert_of_lookup_none hnone]

theorem mutation_reversible (b : BlockHash) :
    Reversible BondRegistry.stamps (applyMutation b) (revertMutation b) where
  apply_congr := by
    intro s t m s' hst hs
    cases m with
    | insert o rec => exact (applyInsert_reversible b).apply_congr (m := (o, rec)) hst hs
    | slash o d | unbond o d =>
      exact (applyStamp_reversible _ b).apply_congr (m := (o, d)) hst hs
  revert_congr := by
    intro s t m s' hst hs
    cases m with
    | insert o rec => exact (applyInsert_reversible b).revert_congr (m := (o, rec)) hst hs
    | slash o d | unbond o d =>
      exact (applyStamp_reversible _ b).revert_congr (m := (o, d)) hst hs
  revert_apply := by
    intro s m s' hs
    cases m with
    | insert o rec => exact (applyInsert_reversible b).revert_apply (m := (o, rec)) hs
    | slash o d | unbond o d => exact (applyStamp_reversible _ b).revert_apply (m := (o, d)) hs

theorem block_reversible : Reversible BondRegistry.stamps attachBlock detachBlock :=
  Reversible.tagged fun b => (mutation_reversible b).list

end Misaka.Dns
