import Mathlib.Data.List.Basic
import Mathlib.Order.Nat

/-!
# High-water marks

An optional number that is raised to the largest member of a list at or below a bound. A mark is
determined by the numbers it covers, so raising it twice with growing bounds is raising it once.
-/

namespace Misaka.Core

def largestUpTo (bound : ℕ) (l : List ℕ) : Option ℕ := (l.filter (· ≤ bound)).max?

def raiseMark (bound : ℕ) (l : List ℕ) (mark : Option ℕ) : Option ℕ :=
  match largestUpTo bound l with
  | none => mark
  | some m => if mark.all (· < m) then some m else mark

def Covers (mark : Option ℕ) (n : ℕ) : Prop := ∃ m, mark = some m ∧ n ≤ m

@[simp] theorem not_covers_none (n : ℕ) : ¬ Covers none n := by
  rintro ⟨m, h, -⟩
  cases h

variable {n bound : ℕ} {l : List ℕ}

@[simp] theorem covers_some {m : ℕ} : Covers (some m) n ↔ n ≤ m := by
  constructor
  · rintro ⟨m', h, hle⟩
    cases h
    exact hle
  · intro h
    exact ⟨m, rfl, h⟩

theorem mark_ext {x y : Option ℕ} (h : ∀ n, Covers x n ↔ Covers y n) : x = y := by
  cases x with
  | none =>
    cases y with
    | none => rfl
    | some b => exact absurd ((h b).mpr (covers_some.mpr le_rfl)) (not_covers_none b)
  | some a =>
    cases y with
    | none => exact absurd ((h a).mp (covers_some.mpr le_rfl)) (not_covers_none a)
    | some b =>
      have hab : a ≤ b := covers_some.mp ((h a).mp (covers_some.mpr le_rfl))
      have hba : b ≤ a := covers_some.mp ((h b).mpr (covers_some.mpr le_rfl))
      rw [Nat.le_antisymm hab hba]

theorem covers_largestUpTo : Covers (largestUpTo bound l) n ↔ ∃ e ∈ l, e ≤ bound ∧ n ≤ e := by
  unfold largestUpTo
  cases hmax : (l.filter (· ≤ bound)).max? with
  | none =>
    have hnil := List.max?_eq_none_iff.mp hmax
    have hnone : ∀ e ∈ l, ¬ e ≤ bound := by simpa using hnil
    constructor
    · exact fun h => absurd h (not_covers_none n)
    · rintro ⟨e, he, hle, -⟩
      exact absurd hle (hnone e he)
  | some m =>
    obtain ⟨hmem, hge⟩ := List.max?_eq_some_iff.mp hmax
    have hm : m ∈ l ∧ m ≤ bound := by simpa using hmem
    rw [covers_some]
    constructor
    · exact fun h => ⟨m, hm.1, hm.2, h⟩
    · rintro ⟨e, he, hle, hn⟩
      exact hn.trans (hge e (by simpa using ⟨he, hle⟩))

theorem covers_raiseMark {mark : Option ℕ} :
    Covers (raiseMark bound l mark) n ↔ Covers mark n ∨ ∃ e ∈ l, e ≤ bound ∧ n ≤ e := by
  rw [← covers_largestUpTo]
  unfold raiseMark
  cases largestUpTo bound l with
  | none => simp
  | some m =>
    cases mark with
    | none => simp
    | some x =>
      by_cases h : x < m
      · simp only [Option.all_some, h, decide_true, if_true, covers_some]
        omega
      · simp only [Option.all_some, h, decide_false, Bool.false_eq_true, if_false, covers_some]
        omega

theorem raiseMark_congr {l' : List ℕ} (h : ∀ e ≤ bound, e ∈ l ↔ e ∈ l') (mark : Option ℕ) :
    raiseMark bound l mark = raiseMark bound l' mark := by
  refine mark_ext fun n => ?_
  rw [covers_raiseMark, covers_raiseMark]
  have hiff : (∃ e ∈ l, e ≤ bound ∧ n ≤ e) ↔ ∃ e ∈ l', e ≤ bound ∧ n ≤ e :=
    exists_congr fun e =>
      ⟨fun he => ⟨(h e he.2.1).mp he.1, he.2⟩, fun he => ⟨(h e he.2.1).mpr he.1, he.2⟩⟩
  rw [hiff]

theorem raiseMark_raiseMark {bound' : ℕ} (h : bound ≤ bound') (l : List ℕ) (mark : Option ℕ) :
    raiseMark bound' l (raiseMark bound l mark) = raiseMark bound' l mark := by
  refine mark_ext fun n => ?_
  simp only [covers_raiseMark]
  constructor
  · rintro ((hmark | ⟨e, he, hle, hn⟩) | hnew)
    · exact .inl hmark
    · exact .inr ⟨e, he, hle.trans h, hn⟩
    · exact .inr hnew
  · rintro (hmark | hnew)
    · exact .inl (.inl hmark)
    · exact .inr hnew

end Misaka.Core
