import Mathlib.Algebra.Order.BigOperators.Group.List
import Mathlib.Algebra.Order.Ring.Nat
import Mathlib.Data.List.Perm.Subperm
import Mathlib.Order.Bounds.Basic

/-!
# The fewest summands that reach a sum

Of all selections of a given size from a list in descending order the first elements have the
largest sum. So the shortest prefix that reaches a sum is as short as any selection that does.
-/

namespace Misaka.Core

open List

variable {l s : List ℕ} {target n : ℕ}

theorem sum_le_sum_take (hl : l.Pairwise (· ≥ ·)) (hs : s.Subperm l) :
    s.sum ≤ (l.take s.length).sum := by
  induction l generalizing s with
  | nil =>
    rw [subperm_nil.mp hs]
    exact le_rfl
  | cons a l ih =>
    obtain ⟨ha, hl⟩ := pairwise_cons.mp hl
    by_cases hmem : a ∈ s
    · -- take the largest element out of both
      have hperm := perm_cons_erase hmem
      have hrest : (s.erase a).Subperm l := by
        have := hs.erase a
        rwa [erase_cons_head] at this
      rw [hperm.sum_eq, hperm.length_eq, length_cons, take_succ_cons, sum_cons,
        sum_cons]
      exact Nat.add_le_add_left (ih hl hrest) a
    · have hs : s.Subperm l := by
        have := hs.erase a
        rwa [erase_cons_head, erase_of_not_mem hmem] at this
      cases s with
      | nil => exact Nat.zero_le _
      | cons b s =>
        have hb : b ≤ a := ha b (hs.subset mem_cons_self)
        have hrest : s.Subperm l := (sublist_cons_self b s).subperm.trans hs
        rw [length_cons, take_succ_cons, sum_cons, sum_cons]
        exact Nat.add_le_add hb (ih hl hrest)

theorem isLeast_length_of_take (hl : l.Pairwise (· ≥ ·)) (hn : n ≤ l.length)
    (hreach : target ≤ (l.take n).sum) (hshorter : ∀ j < n, (l.take j).sum < target) :
    IsLeast {k | ∃ s : List ℕ, s.Subperm l ∧ s.length = k ∧ target ≤ s.sum} n := by
  refine ⟨⟨l.take n, (take_sublist n l).subperm, length_take_of_le hn, hreach⟩, ?_⟩
  rintro k ⟨s, hs, rfl, hsum⟩
  by_contra hlt
  have hless := hshorter s.length (not_le.mp hlt)
  have hle := sum_le_sum_take hl hs
  omega

end Misaka.Core
