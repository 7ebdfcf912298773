import Misaka.Core.Fallible

/-!
# Reversible journals

A journal edits a state by fallible entries, each with an inverse. States are compared through a
projection `view`. `Reversible` is the contract of one entry; it lifts to lists of entries and to
reorganizations that rewind one branch and replay another.
-/

namespace Misaka.Core

variable {ε μ σ ο : Type*}

/-- The contract of a journal entry: both directions respect the projection, and the inverse
leads back to where the entry started. -/
structure Reversible (view : σ → ο) (apply revert : σ → μ → Except ε σ) : Prop where
  /-- An entry applies to any state with the same view. -/
  apply_congr : ∀ {s t : σ} {m : μ} {s' : σ}, view s = view t → apply s m = .ok s' →
    ∃ t', apply t m = .ok t' ∧ view s' = view t'
  /-- An entry can be undone from any state with the same view. -/
  revert_congr : ∀ {s t : σ} {m : μ} {s' : σ}, view s = view t → revert s m = .ok s' →
    ∃ t', revert t m = .ok t' ∧ view s' = view t'
  /-- Undoing an applied entry succeeds and restores the view. -/
  revert_apply : ∀ {s : σ} {m : μ} {s' : σ}, apply s m = .ok s' →
    ∃ r, revert s' m = .ok r ∧ view r = view s

namespace Reversible

variable {view : σ → ο}

theorem tagged {ι : Type*} {apply revert : ι → σ → μ → Except ε σ}
    (h : ∀ i, Reversible view (apply i) (revert i)) :
    Reversible view (fun s (e : ι × μ) => apply e.1 s e.2) (fun s e => revert e.1 s e.2) where
  apply_congr := (h _).apply_congr
  revert_congr := (h _).revert_congr
  revert_apply := (h _).revert_apply

variable {apply revert : σ → μ → Except ε σ}

theorem list (h : Reversible view apply revert) :
    Reversible view (fun s (ms : List μ) => ms.foldlM apply s)
      (fun s ms => ms.reverse.foldlM revert s) where
  apply_congr := by
    intro s t ms s' hv hms
    refine foldlM_sim (R := fun a b => view a = view b) ?_ hv hms
    intro a b m a' hab ha
    exact h.apply_congr hab ha
  revert_congr := by
    intro s t ms s' hv hms
    refine foldlM_sim (R := fun a b => view a = view b) ?_ hv hms
    intro a b m a' hab ha
    exact h.revert_congr hab ha
  revert_apply := by
    intro s ms s' hms
    induction ms generalizing s with
    | nil =>
      cases hms
      exact ⟨_, rfl, rfl⟩
    | cons m ms ih =>
      -- the tail is undone first, up to the projection; the head is then undone from there
      obtain ⟨t, hm, hms⟩ := foldlM_cons_eq_ok.mp hms
      obtain ⟨r, hr, hrt⟩ := ih hms
      obtain ⟨q, hq, hqs⟩ := h.revert_apply hm
      obtain ⟨q', hq', hqq'⟩ := h.revert_congr hrt.symm hq
      refine ⟨q', ?_, hqq'.symm.trans hqs⟩
      rw [List.reverse_cons]
      exact foldlM_append_eq_ok.mpr ⟨r, hr, foldlM_cons_eq_ok.mpr ⟨q', hq', rfl⟩⟩

/-- Rewinding one branch and replaying another, from any state that looks like the old tip, looks
like the direct application of the new branch at the fork. -/
theorem reorg (h : Reversible view apply revert) {fork tip s new : σ} {old added : List μ}
    (hold : old.foldlM apply fork = .ok tip) (hs : view s = view tip)
    (hnew : added.foldlM apply fork = .ok new) :
    ∃ mid s', old.reverse.foldlM revert s = .ok mid ∧ added.foldlM apply mid = .ok s' ∧
      view s' = view new := by
  obtain ⟨r, hr, hrf⟩ := h.list.revert_apply hold
  obtain ⟨mid, hmid, hmr⟩ := h.list.revert_congr hs.symm hr
  obtain ⟨s', hs', hv⟩ := h.list.apply_congr (hrf.symm.trans hmr) hnew
  exact ⟨mid, s', hmid, hs', hv.symm⟩

end Reversible

end Misaka.Core
