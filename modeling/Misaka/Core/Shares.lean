import Mathlib.Algebra.Order.BigOperators.Group.List
import Mathlib.Algebra.Order.Ring.Nat

/-!
# Saturating sums and floor shares

Two pieces of integer arithmetic that ledgers rely on: a running total that saturates at a bound is
the true total cut at the bound, and parts of a pool taken in proportion to weights, each rounded
down, never add up to more than the pool as long as the weights add up to at most the denominator.
-/

namespace Misaka.Core

open List

def satSum (bound : ℕ) (l : List ℕ) : ℕ := l.foldl (fun acc a => min (acc + a) bound) 0

theorem foldl_satAdd (bound : ℕ) (l : List ℕ) (acc : ℕ) (h : acc ≤ bound) :
    l.foldl (fun acc a => min (acc + a) bound) acc = min (acc + l.sum) bound := by
  induction l generalizing acc with
  | nil => simp [h]
  | cons a l ih =>
    rw [foldl_cons, ih _ (min_le_right _ _), sum_cons]
    omega

theorem satSum_eq (bound : ℕ) (l : List ℕ) : satSum bound l = min l.sum bound := by
  rw [satSum, foldl_satAdd bound l 0 (Nat.zero_le _), Nat.zero_add]

theorem sum_mul_div_le (pool total : ℕ) (weights : List ℕ) :
    (weights.map fun w => pool * w / total).sum ≤ pool * weights.sum / total := by
  induction weights with
  | nil => simp
  | cons w weights ih =>
    rw [map_cons, sum_cons, sum_cons, Nat.mul_add]
    exact (Nat.add_le_add_left ih _).trans Nat.div_add_div_le_add_div

theorem sum_mul_div_le_pool {pool total : ℕ} {weights : List ℕ} (h : weights.sum ≤ total) :
    (weights.map fun w => pool * w / total).sum ≤ pool := by
  refine (sum_mul_div_le pool total weights).trans (Nat.div_le_of_le_mul ?_)
  rw [Nat.mul_comm total pool]
  exact Nat.mul_le_mul_left pool h

end Misaka.Core
