import Mathlib.Data.List.Infix

/-!
# The latest element at or below a bound

A history is a list with its newest element first, along which a score falls strictly. The latest
element whose score is at most a bound does not change when newer elements above the bound arrive,
and a larger bound never picks an older element.
-/

namespace Misaka.Core

variable {α : Type*} {f : α → ℕ} {bound : ℕ}

/-- The newest element scored at most `bound`. -/
def latestAtMost (f : α → ℕ) (bound : ℕ) (l : List α) : Option α := l.find? (f · ≤ bound)

theorem latestAtMost_map {β : Type*} (g : β → α) (bound : ℕ) (l : List β) :
    latestAtMost f bound (l.map g) = (latestAtMost (f ∘ g) bound l).map g :=
  List.find?_map

theorem latestAtMost_of_prefix {l l' : List α} (h : l <+: l') {a : α}
    (ha : latestAtMost f bound l = some a) : latestAtMost f bound l' = some a :=
  h.find?_eq_some ha

@[simp] theorem latestAtMost_cons_cons_self (a : α) (l : List α) (bound : ℕ) :
    latestAtMost f bound (a :: a :: l) = latestAtMost f bound (a :: l) := by
  by_cases h : f a ≤ bound <;> simp [latestAtMost, h]

theorem latestAtMost_cons_of_lt {a : α} (h : bound < f a) (l : List α) :
    latestAtMost f bound (a :: l) = latestAtMost f bound l :=
  List.find?_cons_of_neg (by simpa using h)

theorem latestAtMost_append {newer older : List α} (h : ∀ a ∈ newer, bound < f a) :
    latestAtMost f bound (newer ++ older) = latestAtMost f bound older := by
  have hnone : newer.find? (f · ≤ bound) = none :=
    List.find?_eq_none.mpr fun a ha => by simpa using h a ha
  rw [latestAtMost, List.find?_append, hnone, Option.none_or]
  rfl

theorem le_of_latestAtMost {l : List α} {a : α} (ha : latestAtMost f bound l = some a) :
    f a ≤ bound := by
  simpa using List.find?_some ha

theorem mem_of_latestAtMost {l : List α} {a b : α} (ha : latestAtMost f bound l = some a)
    (hb : b ∈ l) (hbound : f b ≤ bound) :
    ∃ newer older, l = newer ++ a :: older ∧ b ∈ a :: older := by
  obtain ⟨-, newer, older, rfl, hnewer⟩ := List.find?_eq_some_iff_append.mp ha
  refine ⟨newer, older, rfl, ?_⟩
  rcases List.mem_append.mp hb with h | h
  · exact absurd hbound (by simpa using hnewer b h)
  · exact h

end Misaka.Core
