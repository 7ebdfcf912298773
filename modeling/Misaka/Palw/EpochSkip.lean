import Misaka.Palw.ViewRun

/-!
# Skipped epochs

A block advances the view to its own epoch and drops what no header can refer to any more. A chain
whose scores jump over epochs ends in the same view as one that visits them, because every deadline
of a batch is compared with the epoch itself and not with the step before it.
-/

namespace Misaka.Palw

open Misaka.Core List Option

variable {params : PalwBatchAdmissionParams} {epoch epoch' daa daa' : ℕ}
  {e : PalwBatchLifecycleV1} {clock : ℕ × ℕ}

theorem advanced_advanced (hepoch : epoch ≤ epoch') :
    (e.advanced epoch params true).advanced epoch' params true = e.advanced epoch' params true := by
  cases hstatus : e.status with
  | registering =>
    by_cases hlate : epoch > params.deadline e.registrationEpoch
    · have hlate' := hlate.trans_le hepoch
      simp [PalwBatchLifecycleV1.advanced, hstatus, hlate, hlate']
    · simp [PalwBatchLifecycleV1.advanced, hstatus, hlate]
  | committed =>
    by_cases haudit : epoch ≥ params.deadline e.registrationEpoch
    · have haudit' := haudit.trans hepoch
      simp [PalwBatchLifecycleV1.advanced, hstatus, haudit, haudit']
    · simp [PalwBatchLifecycleV1.advanced, hstatus, haudit]
  | certified =>
    by_cases hexpiry : epoch ≥ e.expiryEpoch
    · have hexpiry' := hexpiry.trans hepoch
      by_cases hactive : epoch ≥ e.activationNotBeforeEpoch <;>
        simp [PalwBatchLifecycleV1.advanced, hstatus, hactive, hexpiry, hexpiry', not_lt.mpr]
    · by_cases hactive : epoch ≥ e.activationNotBeforeEpoch
      · have hactive' := hactive.trans hepoch
        by_cases hexpiry' : epoch' ≥ e.expiryEpoch <;>
          simp [PalwBatchLifecycleV1.advanced, hstatus, hactive, hactive', hexpiry, hexpiry',
            not_le.mp]
      · simp [PalwBatchLifecycleV1.advanced, hstatus, hactive, hexpiry]
  | active =>
    by_cases hexpiry : epoch ≥ e.expiryEpoch
    · have hexpiry' := hexpiry.trans hepoch
      simp [PalwBatchLifecycleV1.advanced, hstatus, hexpiry, hexpiry']
    · simp [PalwBatchLifecycleV1.advanced, hstatus, hexpiry]
  | missing | auditing | slashed | expired | revoked =>
    simp [PalwBatchLifecycleV1.advanced, hstatus]

theorem referenceable_iff :
    palwBatchReferenceable e epoch daa params = true ↔
      e.revokedFromDaa.any (· ≤ daa) = false ∧
        ((e.status = .certified ∨ e.status = .active) ∧ epoch < e.expiryEpoch ∨
          (e.status = .registering ∨ e.status = .committed ∨ e.status = .auditing) ∧
            epoch ≤ params.deadline e.registrationEpoch) := by
  unfold palwBatchReferenceable
  cases e.status <;> simp [PalwBatchStatus.isTerminal]

theorem referenceable_advanced :
    palwBatchReferenceable (e.advanced epoch params true) epoch daa params =
      palwBatchReferenceable e epoch daa params := by
  rw [Bool.eq_iff_iff, referenceable_iff, referenceable_iff, advanced_eq e epoch true]
  refine and_congr_right fun _ => ?_
  dsimp only
  cases hstatus : e.status with
  | registering =>
    by_cases hlate : epoch > params.deadline e.registrationEpoch <;>
      simp [PalwBatchLifecycleV1.advanced, hstatus, hlate]
  | committed =>
    by_cases haudit : epoch ≥ params.deadline e.registrationEpoch <;>
      simp [PalwBatchLifecycleV1.advanced, hstatus, haudit]
  | certified =>
    by_cases hdue : epoch ≥ e.activationNotBeforeEpoch
    · by_cases hlive : epoch < e.expiryEpoch <;>
        simp [PalwBatchLifecycleV1.advanced, hstatus, hdue, hlive]
    · by_cases hexpired : epoch ≥ e.expiryEpoch <;>
        simp [PalwBatchLifecycleV1.advanced, hstatus, hdue, hexpired]
  | active =>
    by_cases hexpired : epoch ≥ e.expiryEpoch <;>
      simp [PalwBatchLifecycleV1.advanced, hstatus, hexpired]
  | missing | auditing | slashed | expired | revoked =>
    simp [PalwBatchLifecycleV1.advanced, hstatus]

theorem referenceable_of_le (hepoch : epoch ≤ epoch') (hdaa : daa ≤ daa')
    (h : palwBatchReferenceable e epoch' daa' params = true) :
    palwBatchReferenceable e epoch daa params = true := by
  obtain ⟨hunrevoked, hlive⟩ := referenceable_iff.mp h
  refine referenceable_iff.mpr ⟨?_, ?_⟩
  · cases hstamp : e.revokedFromDaa with
    | none => rfl
    | some d =>
      simp only [hstamp, any_some, decide_eq_false_iff_not] at hunrevoked ⊢
      omega
  · rcases hlive with ⟨hstatus, hexpiry⟩ | ⟨hstatus, hdeadline⟩
    · exact .inl ⟨hstatus, hepoch.trans_lt hexpiry⟩
    · exact .inr ⟨hstatus, hepoch.trans hdeadline⟩

def PalwBatchViewV1.settle (params : PalwBatchAdmissionParams) (activationOpen : Bool)
    (view : PalwBatchViewV1) (clock : ℕ × ℕ) : PalwBatchViewV1 :=
  (view.advanceEpochGated clock.1 params activationOpen).retain clock.1 clock.2 params

theorem entry_settle {view : PalwBatchViewV1} {activationOpen : Bool} {batchId : Hash64} :
    (view.settle params activationOpen clock).entry batchId =
      ((view.entry batchId).map (·.advanced clock.1 params activationOpen)).filter
        (palwBatchReferenceable · clock.1 clock.2 params) := by
  unfold PalwBatchViewV1.settle PalwBatchViewV1.entry PalwBatchViewV1.retain
    PalwBatchViewV1.advanceEpochGated
  dsimp only
  rw [Table.lookup_filterRows, Table.lookup_mapVal]

theorem settle_settle (view : PalwBatchViewV1) {clock' : ℕ × ℕ} (h : clock ≤ clock') :
    (view.settle params true clock).settle params true clock' = view.settle params true clock' := by
  refine view_ext rfl fun batchId => ?_
  rw [entry_settle, entry_settle, entry_settle]
  cases view.entry batchId with
  | none => rfl
  | some e =>
    simp only [map_some]
    by_cases hkept : palwBatchReferenceable (e.advanced clock.1 params true) clock.1 clock.2 params
    · rw [filter_some, if_pos hkept, map_some, advanced_advanced h.1]
    · -- what is dropped in between would be dropped at the end
      have hdropped : ¬ palwBatchReferenceable (e.advanced clock'.1 params true) clock'.1 clock'.2
          params = true := by
        rw [referenceable_advanced] at hkept ⊢
        exact fun hlater => hkept (referenceable_of_le h.1 h.2 hlater)
      rw [filter_some, if_neg hkept, map_none, filter_none,
        filter_some, if_neg hdropped]

/-- Skipping epochs is harmless: with the gate open, advancing and retaining at one block and then
at a later one gives the view of the later one alone, and so does any walk of blocks before it. -/
theorem skipped_epochs_harmless (params : PalwBatchAdmissionParams) (view : PalwBatchViewV1) :
    (∀ epoch epoch' daa daa', epoch ≤ epoch' → daa ≤ daa' →
      ((((view.advanceEpochGated epoch params true).retain epoch daa params).advanceEpochGated
        epoch' params true).retain epoch' daa' params) =
      (view.advanceEpochGated epoch' params true).retain epoch' daa' params) ∧
    ∀ (visited : List (ℕ × ℕ)) (last : ℕ × ℕ), (visited ++ [last]).Pairwise (· ≤ ·) →
      (visited ++ [last]).foldl (PalwBatchViewV1.settle params true) view =
        view.settle params true last := by
  refine ⟨fun epoch epoch' daa daa' hepoch hdaa => ?_, fun visited last hvisited => ?_⟩
  · have hclock : (epoch, daa) ≤ (epoch', daa') := ⟨hepoch, hdaa⟩
    have hsettle : (view.settle params true (epoch, daa)).settle params true (epoch', daa') =
        view.settle params true (epoch', daa') := settle_settle view hclock
    unfold PalwBatchViewV1.settle at hsettle
    exact hsettle
  · induction visited generalizing view with
    | nil => rfl
    | cons clock visited ih =>
      rw [cons_append, pairwise_cons] at hvisited
      rw [cons_append, foldl_cons, ih _ hvisited.2]
      exact settle_settle view (hvisited.1 last (by simp))

/-- A certified batch whose activation epoch is visited, and not. -/
theorem skipped_epochs_harmless_certified :
    let e : PalwBatchLifecycleV1 := ⟨.certified, 1, 9, 14, 1, 1, {0}, 5, some 6, 1, some 40, none⟩
    let view := PalwBatchViewV1.new.setEntry 7 e
    ((((view.advanceEpochGated 9 .INERT true).retain 9 90 .INERT).advanceEpochGated 12 .INERT
      true).retain 12 120 .INERT) =
        (view.advanceEpochGated 12 .INERT true).retain 12 120 .INERT := by
  intro e view
  exact (skipped_epochs_harmless .INERT view).1 9 12 90 120 (by decide) (by decide)

end Misaka.Palw
