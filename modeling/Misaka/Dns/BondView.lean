import Misaka.Dns.Reorg

/-!
# The in-memory bond view

`ActiveBondView` is walked block by block while candidate chains are validated. It interprets
mutations without checks: a missing row is skipped and an insertion overwrites. Wherever the
checked registry goes through, the two interpreters agree up to the cached status.
-/

namespace Misaka.Dns

open Misaka.Core Table

structure ActiveBondView where
  bonds : BondRegistry
  deriving DecidableEq

namespace ActiveBondView

def new : ActiveBondView := ⟨∅⟩

/-- One mutation of `ActiveBondView::apply`. -/
def applyOne (bonds : BondRegistry) : BondMutation → BondRegistry
  | .insert o record => bonds.insert o record
  | .slash o daa => bonds.adjust o (·.setStamp .slash (some daa) daa)
  | .unbond o daa => bonds.adjust o (·.setStamp .unbond (some daa) daa)

/-- One mutation of `ActiveBondView::revert`. -/
def revertOne (bonds : BondRegistry) : BondMutation → BondRegistry
  | .insert o _ => bonds.erase o
  | .slash o daa => bonds.adjust o (·.setStamp .slash none daa)
  | .unbond o daa => bonds.adjust o (·.setStamp .unbond none daa)

def apply (view : ActiveBondView) (mutations : List BondMutation) : ActiveBondView :=
  ⟨mutations.foldl applyOne view.bonds⟩

def revert (view : ActiveBondView) (mutations : List BondMutation) : ActiveBondView :=
  ⟨mutations.reverse.foldl revertOne view.bonds⟩

def get (view : ActiveBondView) (o : TransactionOutpoint) : Option StakeBondRecord :=
  view.bonds.lookup o

def activeBondAt (view : ActiveBondView) (o : TransactionOutpoint) (pov : ℕ) :
    Option StakeBondRecord :=
  (view.get o).filter (isBondActiveAt · pov)

def activeOrDormantBondAt (view : ActiveBondView) (o : TransactionOutpoint) (pov : ℕ) :
    Option StakeBondRecord :=
  (view.get o).filter fun r =>
    effectiveBondStatus r pov == .active || effectiveBondStatus r pov == .dormant

/-- `ActiveBondView::records` enumerates the rows in an order the hash map does not fix: any list
with these rows. -/
def Lists (view : ActiveBondView) (records : List StakeBondRecord) : Prop :=
  (records : Multiset StakeBondRecord) = view.bonds.values

/-- A saturating sum is the sum cut at the largest `u64`, in whatever order it is taken. -/
def totalActiveStakeAt (view : ActiveBondView) (pov : ℕ) : ℕ :=
  min ((view.bonds.values.filter (isBondActiveAt · pov)).map (·.amount)).sum U64_MAX

end ActiveBondView

variable {b : MutationBlock} {r r' bonds : BondRegistry} {m : BondMutation} {view : ActiveBondView}

theorem eq_applyOne_of_applyMutation {b : BlockHash} (h : applyMutation b r m = .ok r') :
    r' = ActiveBondView.applyOne r m := by
  cases m with
  | insert o rec => exact (applyInsert_eq_ok.mp h).2
  | slash o d | unbond o d => exact (applyStamp_eq_ok.mp h).2

theorem eq_revertOne_of_revertMutation {b : BlockHash} (h : revertMutation b r m = .ok r') :
    r' = ActiveBondView.revertOne r m := by
  cases m with
  | insert o rec => exact (revertInsert_eq_ok.mp h).2
  | slash o d | unbond o d => exact (revertStamp_eq_ok.mp h).2

theorem apply_of_attachBlock (hstamps : r.stamps = view.bonds.stamps)
    (h : attachBlock r b = .ok r') : r'.stamps = (view.apply b.2).bonds.stamps := by
  refine foldlM_sim_foldl (R := fun q p => q.stamps = BondRegistry.stamps p) ?_ hstamps h
  intro s t m s' hst hs
  obtain ⟨t', ht', hstamps⟩ := (mutation_reversible _).apply_congr hst hs
  rw [hstamps, eq_applyOne_of_applyMutation ht']

theorem revert_of_detachBlock (hstamps : r.stamps = view.bonds.stamps)
    (h : detachBlock r b = .ok r') : r'.stamps = (view.revert b.2).bonds.stamps := by
  refine foldlM_sim_foldl (R := fun q p => q.stamps = BondRegistry.stamps p) ?_ hstamps h
  intro s t m s' hst hs
  obtain ⟨t', ht', hstamps⟩ := (mutation_reversible _).revert_congr hst hs
  rw [hstamps, eq_revertOne_of_revertMutation ht']

end Misaka.Dns
