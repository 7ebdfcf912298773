import Misaka.Palw.Collateral

/-!
# The provider registry

`reconcile_palw_provider_registry` moves the persisted provider bonds from one selected chain to
another and returns an error, which stops the process, on any row it does not expect. The slashes
come from the data availability state, which does not look at the registry.
-/

namespace Misaka.Palw

open Misaka.Core Dns Table

abbrev ProviderMutationBlock := BlockHash × List PalwProviderBondMutation

def PalwProviderBondRecord.stamp (record : PalwProviderBondRecord) : StampKind → Option ℕ
  | .slash => record.slashedAtDaaScore
  | .unbond => record.unbondRequestDaaScore

def PalwProviderBondRecord.setStamp (record : PalwProviderBondRecord) (kind : StampKind)
    (value : Option ℕ) : PalwProviderBondRecord :=
  match kind with
  | .slash => { record with slashedAtDaaScore := value }
  | .unbond => { record with unbondRequestDaaScore := value }

/-- Why the node stops in `palw_overlay_commit_fail_stop`, with the values its text names. -/
inductive ProviderRegistryError where
  | revertInsertMissing (outpoint : TransactionOutpoint) (block : BlockHash)
  | revertInsertDiffers (outpoint : TransactionOutpoint) (block : BlockHash)
  | revertStampMissing (kind : StampKind) (outpoint : TransactionOutpoint) (block : BlockHash)
  | revertStampUnexpected (kind : StampKind) (outpoint : TransactionOutpoint) (block : BlockHash)
      (expected : ℕ) (found : Option ℕ)
  | applyInsertExists (outpoint : TransactionOutpoint) (block : BlockHash)
  | applyStampMissing (kind : StampKind) (outpoint : TransactionOutpoint) (block : BlockHash)
  | applyStampTwice (kind : StampKind) (outpoint : TransactionOutpoint) (block : BlockHash)
      (found : ℕ)
  deriving DecidableEq, Repr

def revertProviderInsert (block : BlockHash) (outpoint : TransactionOutpoint)
    (inserted : PalwProviderBondRecord) (working : ProviderBondView) :
    Except ProviderRegistryError ProviderBondView :=
  match working.lookup outpoint with
  | none => .error (.revertInsertMissing outpoint block)
  | some actual =>
    if actual ≠ inserted then .error (.revertInsertDiffers outpoint block)
    else .ok (working.erase outpoint)

def revertProviderStamp (kind : StampKind) (block : BlockHash) (outpoint : TransactionOutpoint)
    (daaScore : ℕ) (working : ProviderBondView) : Except ProviderRegistryError ProviderBondView :=
  match working.lookup outpoint with
  | none => .error (.revertStampMissing kind outpoint block)
  | some record =>
    if record.stamp kind ≠ some daaScore then
      .error (.revertStampUnexpected kind outpoint block daaScore (record.stamp kind))
    else .ok (working.adjust outpoint (·.setStamp kind none))

def applyProviderInsert (block : BlockHash) (outpoint : TransactionOutpoint)
    (record : PalwProviderBondRecord) (working : ProviderBondView) :
    Except ProviderRegistryError ProviderBondView :=
  match working.lookup outpoint with
  | some _ => .error (.applyInsertExists outpoint block)
  | none => .ok (working.insert outpoint record)

def applyProviderStamp (kind : StampKind) (block : BlockHash) (outpoint : TransactionOutpoint)
    (daaScore : ℕ) (working : ProviderBondView) : Except ProviderRegistryError ProviderBondView :=
  match working.lookup outpoint with
  | none => .error (.applyStampMissing kind outpoint block)
  | some record =>
    match record.stamp kind with
    | some found => .error (.applyStampTwice kind outpoint block found)
    | none => .ok (working.adjust outpoint (·.setStamp kind (some daaScore)))

def revertProviderMutation (block : BlockHash) (working : ProviderBondView) :
    PalwProviderBondMutation → Except ProviderRegistryError ProviderBondView
  | .insert outpoint inserted => revertProviderInsert block outpoint inserted working
  | .unbond outpoint daa => revertProviderStamp .unbond block outpoint daa working
  | .slash outpoint daa => revertProviderStamp .slash block outpoint daa working

def applyProviderMutation (block : BlockHash) (working : ProviderBondView) :
    PalwProviderBondMutation → Except ProviderRegistryError ProviderBondView
  | .insert outpoint record => applyProviderInsert block outpoint record working
  | .unbond outpoint daa => applyProviderStamp .unbond block outpoint daa working
  | .slash outpoint daa => applyProviderStamp .slash block outpoint daa working

def detachProviderBlock (working : ProviderBondView) (b : ProviderMutationBlock) :
    Except ProviderRegistryError ProviderBondView :=
  b.2.reverse.foldlM (revertProviderMutation b.1) working

def attachProviderBlock (working : ProviderBondView) (b : ProviderMutationBlock) :
    Except ProviderRegistryError ProviderBondView :=
  b.2.foldlM (applyProviderMutation b.1) working

def PalwProviderBondMutation.outpoint : PalwProviderBondMutation → TransactionOutpoint
  | .insert outpoint _ | .unbond outpoint _ | .slash outpoint _ => outpoint

def providersTouchedBy (blocks : List ProviderMutationBlock) : Finset TransactionOutpoint :=
  (blocks.flatMap fun b => b.2.map PalwProviderBondMutation.outpoint).toFinset

def reconcilePalwProviderRegistry (working : ProviderBondView)
    (removed added : List ProviderMutationBlock) :
    Except ProviderRegistryError (ProviderBondView × Finset TransactionOutpoint) := do
  let detached ← removed.foldlM detachProviderBlock working
  let attached ← added.foldlM attachProviderBlock detached
  return (attached, providersTouchedBy removed ∪ providersTouchedBy added)

variable {m : PalwProviderBondMutation}

section Entries

variable {b : BlockHash} {o : TransactionOutpoint} {d : ℕ} {kind : StampKind}
  {record : PalwProviderBondRecord} {r r' : ProviderBondView}

theorem applyProviderInsert_eq_ok :
    applyProviderInsert b o record r = .ok r' ↔ r.lookup o = none ∧ r' = r.insert o record := by
  unfold applyProviderInsert
  cases r.lookup o <;> simp [eq_comm]

theorem applyProviderStamp_eq_ok :
    applyProviderStamp kind b o d r = .ok r' ↔
      (∃ rec, r.lookup o = some rec ∧ rec.stamp kind = none) ∧
        r' = r.adjust o (·.setStamp kind (some d)) := by
  unfold applyProviderStamp
  cases r.lookup o with
  | none => simp
  | some rec => cases hs : rec.stamp kind <;> simp [hs, eq_comm]

theorem applyProviderMutation_view (h : applyProviderMutation b r m = .ok r') :
    r' = r.applyOne m := by
  cases m with
  | insert o record => exact (applyProviderInsert_eq_ok.mp h).2
  | unbond o d | slash o d => exact (applyProviderStamp_eq_ok.mp h).2

theorem revertProviderStamp_apply
    (h : applyProviderStamp kind b o d r = .ok r') : revertProviderStamp kind b o d r' = .ok r := by
  obtain ⟨⟨rec, hrec, hnone⟩, rfl⟩ := applyProviderStamp_eq_ok.mp h
  have hstamp : (rec.setStamp kind (some d)).stamp kind = some d := by cases kind <;> rfl
  have hback : (rec.setStamp kind (some d)).setStamp kind none = rec := by
    cases kind <;> cases rec <;> cases hnone <;> rfl
  rw [revertProviderStamp, lookup_adjust_eq, if_pos rfl, hrec]
  simp only [Option.map_some, hstamp, ne_eq, not_true_eq_false, if_false, adjust_adjust]
  congr 1
  refine adjust_eq_self fun v hv => ?_
  obtain rfl : rec = v := Option.some.inj (hrec.symm.trans hv)
  exact hback

theorem revertProviderMutation_apply (h : applyProviderMutation b r m = .ok r') :
    revertProviderMutation b r' m = .ok r := by
  cases m with
  | insert o record =>
    obtain ⟨hnone, rfl⟩ := applyProviderInsert_eq_ok.mp h
    simp [revertProviderMutation, revertProviderInsert, erase_insert_of_lookup_none hnone]
  | unbond o d | slash o d => exact revertProviderStamp_apply h

theorem providerMutation_reversible (b : BlockHash) :
    Reversible (id : ProviderBondView → ProviderBondView) (applyProviderMutation b)
      (revertProviderMutation b) where
  apply_congr := by
    rintro s t m s' rfl hs
    exact ⟨s', hs, rfl⟩
  revert_congr := by
    rintro s t m s' rfl hs
    exact ⟨s', hs, rfl⟩
  revert_apply := by
    intro s m s' hs
    exact ⟨s, revertProviderMutation_apply hs, rfl⟩

theorem providerBlock_reversible :
    Reversible (id : ProviderBondView → ProviderBondView) attachProviderBlock detachProviderBlock :=
  Reversible.tagged fun b => (providerMutation_reversible b).list

end Entries

end Misaka.Palw
