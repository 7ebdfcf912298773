import Mathlib.Algebra.Order.BigOperators.Group.List
import Misaka.Core.Fallible

/-!
# Machine arithmetic

Unsigned arithmetic of a build that checks for overflow: an operation whose result does not fit, and
a division by zero, is a fault.
-/

namespace Misaka.Core

open List

inductive ArithFault where
  | overflow
  | divideByZero
  deriving DecidableEq, Repr

/-- `a + b`, of integers up to `max`. -/
def machineAdd (max a b : ℕ) : Except ArithFault ℕ :=
  if a + b ≤ max then .ok (a + b) else .error .overflow

def machineSub (a b : ℕ) : Except ArithFault ℕ :=
  if b ≤ a then .ok (a - b) else .error .overflow

def machineMul (max a b : ℕ) : Except ArithFault ℕ :=
  if a * b ≤ max then .ok (a * b) else .error .overflow

def machineDiv (a b : ℕ) : Except ArithFault ℕ :=
  if b = 0 then .error .divideByZero else .ok (a / b)

variable {max a b c : ℕ}

theorem machineAdd_of_le (h : a + b ≤ max) : machineAdd max a b = .ok (a + b) := if_pos h

theorem machineSub_of_le (h : b ≤ a) : machineSub a b = .ok (a - b) := if_pos h

theorem machineMul_of_le (h : a * b ≤ max) : machineMul max a b = .ok (a * b) := if_pos h

theorem machineDiv_of_ne (h : b ≠ 0) : machineDiv a b = .ok (a / b) := if_neg h

theorem machineAdd_eq_ok : machineAdd max a b = .ok c ↔ a + b ≤ max ∧ c = a + b := by
  unfold machineAdd
  split <;> simp_all [eq_comm]

theorem machineDiv_eq_ok : machineDiv a b = .ok c ↔ b ≠ 0 ∧ c = a / b := by
  unfold machineDiv
  split <;> simp_all [eq_comm]

theorem foldlM_machineAdd {α : Type*} {f : α → ℕ} {l : List α}
    (h : a + (l.map f).sum ≤ max) :
    l.foldlM (fun acc x => machineAdd max acc (f x)) a = .ok (a + (l.map f).sum) := by
  induction l generalizing a with
  | nil => rfl
  | cons x l ih =>
    rw [map_cons, sum_cons] at h
    refine foldlM_cons_eq_ok.mpr ⟨a + f x, machineAdd_of_le (by omega), ?_⟩
    rw [ih (by omega), map_cons, sum_cons, Nat.add_assoc]

end Misaka.Core
