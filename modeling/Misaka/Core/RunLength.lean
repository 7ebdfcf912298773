import Mathlib.Data.List.Basic

/-!
# Cumulative run lengths

A list stored as runs, each with the number of elements up to its end. The runs a list is encoded as
are increasing and no two neighbours hold the same element, and on such runs expanding is inverse to
encoding and a position is found by its count.
-/

namespace Misaka.Core

open List Option

variable {α : Type*}

/-- The runs of a list, counted from `n`. -/
def rleFrom [DecidableEq α] (n : ℕ) : List α → List (ℕ × α)
  | [] => []
  | a :: l =>
    match rleFrom (n + 1) l with
    | [] => [(n + 1, a)]
    | run :: runs => if a = run.2 then run :: runs else (n + 1, a) :: run :: runs

/-- The list some runs stand for, if their counts increase from `n`. -/
def expandFrom (n : ℕ) : List (ℕ × α) → Option (List α)
  | [] => some []
  | (cum, a) :: runs =>
    if cum ≤ n then none else (expandFrom cum runs).map (List.replicate (cum - n) a ++ ·)

/-- Runs that increase from `n`, with different elements side by side. -/
def CanonicalFrom (n : ℕ) : List (ℕ × α) → Prop
  | [] => True
  | (cum, a) :: runs => n < cum ∧ (∀ run ∈ runs.head?, a ≠ run.2) ∧ CanonicalFrom cum runs

variable {n : ℕ} {l : List α} {runs : List (ℕ × α)}

theorem expandFrom_cons_eq_some {cum : ℕ} {a : α} (hl : expandFrom n ((cum, a) :: runs) = some l) :
    n < cum ∧ ∃ tail, expandFrom cum runs = some tail ∧ l = List.replicate (cum - n) a ++ tail := by
  obtain ⟨hlt, hl⟩ := ite_none_left_eq_some.mp hl
  obtain ⟨tail, htail, rfl⟩ := map_eq_some_iff.mp hl
  exact ⟨Nat.lt_of_not_le hlt, tail, htail, rfl⟩

section Encode

variable [DecidableEq α]

theorem canonicalFrom_rleFrom (n : ℕ) (l : List α) : CanonicalFrom n (rleFrom n l) := by
  induction l generalizing n with
  | nil => trivial
  | cons a l ih =>
    have hrest := ih (n + 1)
    rw [rleFrom]
    cases hruns : rleFrom (n + 1) l with
    | nil => exact ⟨by omega, by simp, trivial⟩
    | cons run runs =>
      rw [hruns] at hrest
      obtain ⟨hlt, hne, htail⟩ := hrest
      by_cases ha : a = run.2
      · simp only [ha, if_true]
        exact ⟨by omega, hne, htail⟩
      · simp only [ha, if_false]
        exact ⟨by omega, by simpa using ha, hlt, hne, htail⟩

theorem rleFrom_expandFrom (h : CanonicalFrom n runs) (hl : expandFrom n runs = some l) :
    rleFrom n l = runs := by
  induction runs generalizing n l with
  | nil =>
    cases hl
    rfl
  | cons run runs ih =>
    obtain ⟨cum, a⟩ := run
    obtain ⟨hlt, hne, htail⟩ := h
    obtain ⟨-, tail, hexpand, rfl⟩ := expandFrom_cons_eq_some hl
    have hrest := ih htail hexpand
    -- the run is encoded from its last element backwards
    have hrun (k : ℕ) (hk : k < cum) :
        rleFrom k (List.replicate (cum - k) a ++ tail) = (cum, a) :: runs := by
      obtain ⟨d, hd⟩ : ∃ d, cum = k + (d + 1) := ⟨cum - k - 1, by omega⟩
      clear hl hexpand hlt
      induction d generalizing k with
      | zero =>
        rw [show cum - k = 1 by omega, replicate_one, singleton_append, rleFrom,
          show k + 1 = cum by omega, hrest]
        cases runs with
        | nil => rfl
        | cons run runs => simp [hne run rfl]
      | succ d ihd =>
        rw [show cum - k = cum - (k + 1) + 1 by omega, replicate_succ, cons_append,
          rleFrom, ihd (k + 1) (by omega) (by omega)]
        simp
    exact hrun n hlt

theorem le_of_mem_rleFrom {n : ℕ} {l : List α} {run : ℕ × α} (h : run ∈ rleFrom n l) :
    run.1 ≤ n + l.length := by
  induction l generalizing n with
  | nil => cases h
  | cons a l ih =>
    rw [length_cons]
    rw [rleFrom] at h
    cases hruns : rleFrom (n + 1) l with
    | nil =>
      rw [hruns] at h
      obtain rfl := mem_singleton.mp h
      omega
    | cons first runs =>
      have hrest (hmem : run ∈ first :: runs) : run.1 ≤ n + (l.length + 1) := by
        have hle := ih (hruns ▸ hmem)
        omega
      rw [hruns] at h
      simp only at h
      split at h
      · exact hrest h
      · rcases mem_cons.mp h with rfl | h
        · simp only
          omega
        · exact hrest h

end Encode

theorem CanonicalFrom.lt_of_mem (h : CanonicalFrom n runs) {run : ℕ × α} (hrun : run ∈ runs) :
    n < run.1 := by
  induction runs generalizing n with
  | nil => cases hrun
  | cons first runs ih =>
    obtain ⟨hlt, -, hrest⟩ := h
    rcases mem_cons.mp hrun with rfl | hrun
    · exact hlt
    · exact Nat.lt_trans hlt (ih hrest hrun)

theorem exists_expandFrom (h : CanonicalFrom n runs) : ∃ l, expandFrom n runs = some l := by
  induction runs generalizing n with
  | nil => exact ⟨[], rfl⟩
  | cons run runs ih =>
    obtain ⟨hlt, -, htail⟩ := h
    obtain ⟨l, hl⟩ := ih htail
    exact ⟨_, by rw [expandFrom, if_neg (Nat.not_le.mpr hlt), hl]; rfl⟩

theorem exists_run_of_mem (hl : expandFrom n runs = some l) {a : α} (ha : a ∈ l) :
    ∃ run ∈ runs, run.2 = a := by
  induction runs generalizing n l with
  | nil =>
    cases hl
    cases ha
  | cons run runs ih =>
    obtain ⟨-, tail, hexpand, rfl⟩ := expandFrom_cons_eq_some hl
    rcases mem_append.mp ha with ha | ha
    · exact ⟨run, mem_cons_self, (eq_of_mem_replicate ha).symm⟩
    · obtain ⟨run', hrun', heq⟩ := ih hexpand ha
      exact ⟨run', mem_cons_of_mem run hrun', heq⟩

theorem length_expandFrom (hl : expandFrom n runs = some l) :
    ((runs.getLast?).map Prod.fst).getD n = n + l.length := by
  induction runs generalizing n l with
  | nil =>
    cases hl
    rfl
  | cons run runs ih =>
    obtain ⟨hlt, tail, hexpand, rfl⟩ := expandFrom_cons_eq_some hl
    have hrest := ih hexpand
    rw [List.getLast?_cons, map_some, getD_some, length_append,
      length_replicate]
    cases hlast : runs.getLast? with
    | none =>
      rw [hlast] at hrest
      simp only [map_none, getD_none] at hrest ⊢
      omega
    | some run =>
      rw [hlast] at hrest
      simp only [map_some, getD_some] at hrest ⊢
      omega

theorem getElem?_expandFrom (hl : expandFrom n runs = some l) {i : ℕ} (hi : n ≤ i) :
    l[i - n]? = (runs.find? fun run => i < run.1).map Prod.snd := by
  induction runs generalizing n l with
  | nil =>
    cases hl
    rfl
  | cons run runs ih =>
    obtain ⟨cum, a⟩ := run
    obtain ⟨hlt, tail, hexpand, rfl⟩ := expandFrom_cons_eq_some hl
    by_cases hcum : i < cum
    · rw [List.getElem?_append_left (by rw [length_replicate]; omega),
        List.getElem?_replicate, if_pos (by omega), List.find?_cons_of_pos (by simpa using hcum)]
      rfl
    · rw [List.getElem?_append_right (by rw [length_replicate]; omega), length_replicate,
        List.find?_cons_of_neg (by simpa using hcum), ← ih hexpand (by omega)]
      congr 1
      omega

end Misaka.Core
