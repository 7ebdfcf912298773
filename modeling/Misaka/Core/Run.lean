import Mathlib.Data.List.Basic

/-!
# Runs of a state machine

A run takes steps with labels one after another; `l.foldl step s` is the state it ends in.
`StepsMeet` restricts a run to steps that meet a condition in the state they are taken from. The
rules below carry an invariant along such a run, and a property that lasts until an event.
-/

namespace Misaka.Core

variable {σ ι : Type*}

/-- Every step of the run meets `ok` in the state it is taken from. -/
def StepsMeet (step : σ → ι → σ) (ok : σ → ι → Prop) : σ → List ι → Prop
  | _, [] => True
  | s, a :: l => ok s a ∧ StepsMeet step ok (step s a) l

variable {step : σ → ι → σ} {ok : σ → ι → Prop}

instance StepsMeet.decidable [∀ s a, Decidable (ok s a)] :
    (s : σ) → (l : List ι) → Decidable (StepsMeet step ok s l)
  | _, [] => .isTrue trivial
  | s, a :: l => @instDecidableAnd (ok s a) _ _ (decidable (step s a) l)

theorem stepsMeet_append {s : σ} {l l' : List ι} :
    StepsMeet step ok s (l ++ l') ↔
      StepsMeet step ok s l ∧ StepsMeet step ok (l.foldl step s) l' := by
  induction l generalizing s with
  | nil => simp [StepsMeet]
  | cons a l ih => simp [StepsMeet, ih, and_assoc]

theorem StepsMeet.invariant {I : σ → Prop} (hstep : ∀ s a, I s → ok s a → I (step s a)) {s : σ}
    {l : List ι} (hl : StepsMeet step ok s l) (hs : I s) : I (l.foldl step s) := by
  induction l generalizing s with
  | nil => exact hs
  | cons a l ih => exact ih hl.2 (hstep s a hs hl.1)

theorem StepsMeet.until {I : σ → Prop} {E : σ → ι → Prop}
    (hstep : ∀ s a, I s → ok s a → I (step s a) ∨ E s a) {s : σ} {l : List ι}
    (hl : StepsMeet step ok s l) (hs : I s) :
    I (l.foldl step s) ∨
      ∃ before a after, l = before ++ a :: after ∧ I (before.foldl step s) ∧
        E (before.foldl step s) a := by
  induction l generalizing s with
  | nil => exact .inl hs
  | cons a l ih =>
    rcases hstep s a hs hl.1 with hkept | hevent
    · rcases ih hl.2 hkept with hend | ⟨before, b, after, rfl, hI, hE⟩
      · exact .inl hend
      · exact .inr ⟨a :: before, b, after, rfl, hI, hE⟩
    · exact .inr ⟨[], a, l, rfl, hs, hevent⟩

end Misaka.Core
