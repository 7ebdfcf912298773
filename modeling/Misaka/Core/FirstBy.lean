import Mathlib.Data.List.Nodup

/-!
# First occurrences by key

The loop `if seen.insert(key) { .. }` keeps the first element of every key that was not seen
before. `firstBy` is that loop; the lemmas say which elements it keeps.
-/

namespace Misaka.Core

open List

variable {α κ : Type*} [DecidableEq κ]

/-- Keep the first element of every key outside `seen`. -/
def firstBy (key : α → κ) : List κ → List α → List α
  | _, [] => []
  | seen, a :: l => if key a ∈ seen then firstBy key seen l else a :: firstBy key (key a :: seen) l

@[simp] theorem firstBy_nil (key : α → κ) (seen : List κ) : firstBy key seen [] = [] := rfl

theorem firstBy_cons_of_mem {key : α → κ} {seen : List κ} {a : α} (l : List α)
    (h : key a ∈ seen) : firstBy key seen (a :: l) = firstBy key seen l := by
  simp [firstBy, h]

theorem firstBy_cons_of_notMem {key : α → κ} {seen : List κ} {a : α} (l : List α)
    (h : key a ∉ seen) :
    firstBy key seen (a :: l) = a :: firstBy key (key a :: seen) l := by
  simp [firstBy, h]

theorem firstBy_filterMap_cons {f : α → Option κ} {seen : List κ} (a : α) (l : List α) :
    firstBy id seen ((a :: l).filterMap f) =
      ((f a).filter (· ∉ seen)).elim (firstBy id seen (l.filterMap f))
        fun k => k :: firstBy id (k :: seen) (l.filterMap f) := by
  rw [filterMap_cons]
  cases f a with
  | none => rfl
  | some k => by_cases hk : k ∈ seen <;> simp [firstBy, Option.filter, hk]

theorem firstBy_sublist (key : α → κ) (seen : List κ) (l : List α) :
    (firstBy key seen l).Sublist l := by
  induction l generalizing seen with
  | nil => exact .slnil
  | cons a l ih =>
    by_cases h : key a ∈ seen
    · rw [firstBy_cons_of_mem l h]
      exact (ih seen).cons a
    · rw [firstBy_cons_of_notMem l h]
      exact (ih _).cons_cons a

theorem mem_keys_firstBy {key : α → κ} {seen : List κ} {l : List α} {k : κ} :
    k ∈ (firstBy key seen l).map key ↔ k ∉ seen ∧ k ∈ l.map key := by
  induction l generalizing seen with
  | nil => simp
  | cons a l ih =>
    by_cases h : key a ∈ seen
    · rw [firstBy_cons_of_mem l h, ih, map_cons, mem_cons]
      constructor
      · rintro ⟨hk, hl⟩
        exact ⟨hk, .inr hl⟩
      · rintro ⟨hk, rfl | hl⟩
        · exact absurd h hk
        · exact ⟨hk, hl⟩
    · rw [firstBy_cons_of_notMem l h, map_cons, mem_cons, ih, map_cons,
        mem_cons, mem_cons, not_or]
      by_cases hka : k = key a
      · simp [hka, h]
      · simp [hka]

theorem nodup_keys_firstBy (key : α → κ) (seen : List κ) (l : List α) :
    ((firstBy key seen l).map key).Nodup := by
  induction l generalizing seen with
  | nil => exact nodup_nil
  | cons a l ih =>
    by_cases h : key a ∈ seen
    · rw [firstBy_cons_of_mem l h]
      exact ih seen
    · rw [firstBy_cons_of_notMem l h, map_cons, nodup_cons]
      refine ⟨?_, ih _⟩
      rw [mem_keys_firstBy]
      exact fun hmem => hmem.1 mem_cons_self

theorem mem_firstBy_iff {key : α → κ} {l : List α}
    (hkey : ∀ a ∈ l, ∀ b ∈ l, key a = key b → a = b) {a : α} :
    a ∈ firstBy key [] l ↔ a ∈ l := by
  refine ⟨fun ha => (firstBy_sublist key [] l).subset ha, fun ha => ?_⟩
  have hmem : key a ∈ (firstBy key [] l).map key :=
    mem_keys_firstBy.mpr ⟨not_mem_nil, mem_map_of_mem ha⟩
  obtain ⟨b, hb, hab⟩ := mem_map.mp hmem
  rwa [← hkey b ((firstBy_sublist key [] l).subset hb) a ha hab]

theorem find?_of_mem_firstBy {key : α → κ} {seen : List κ} {l : List α} {a : α}
    (ha : a ∈ firstBy key seen l) : l.find? (fun b => key b = key a) = some a := by
  induction l generalizing seen with
  | nil => cases ha
  | cons b l ih =>
    have hkey := mem_keys_firstBy.mp (mem_map_of_mem ha)
    by_cases h : key b ∈ seen
    · rw [firstBy_cons_of_mem l h] at ha
      have hne : key b ≠ key a := fun heq => hkey.1 (heq ▸ h)
      rw [List.find?_cons_of_neg (by simpa using hne)]
      exact ih ha
    · rw [firstBy_cons_of_notMem l h] at ha
      rcases mem_cons.mp ha with rfl | hrest
      · exact List.find?_cons_of_pos (by simp)
      · have hfresh := mem_keys_firstBy.mp (mem_map_of_mem hrest)
        have hne : key b ≠ key a := fun heq => hfresh.1 (heq ▸ mem_cons_self)
        rw [List.find?_cons_of_neg (by simpa using hne)]
        exact ih hrest

theorem filter_firstBy {key : α → κ} {p : α → Bool} (hp : ∀ a b, key a = key b → p a = p b)
    {seen seen' : List κ} (hseen : ∀ a, p a → (key a ∈ seen ↔ key a ∈ seen')) (l : List α) :
    (firstBy key seen l).filter p = firstBy key seen' (l.filter p) := by
  induction l generalizing seen seen' with
  | nil => rfl
  | cons a l ih =>
    by_cases hpa : p a
    · rw [filter_cons_of_pos hpa]
      by_cases h : key a ∈ seen
      · rw [firstBy_cons_of_mem l h, firstBy_cons_of_mem _ ((hseen a hpa).mp h)]
        exact ih hseen
      · rw [firstBy_cons_of_notMem l h, firstBy_cons_of_notMem _ (mt (hseen a hpa).mpr h),
          filter_cons_of_pos hpa]
        refine congrArg (a :: ·) (ih fun b hb => ?_)
        rw [mem_cons, mem_cons, hseen b hb]
    · rw [filter_cons_of_neg hpa]
      by_cases h : key a ∈ seen
      · rw [firstBy_cons_of_mem l h]
        exact ih hseen
      · rw [firstBy_cons_of_notMem l h, filter_cons_of_neg hpa]
        refine ih fun b hb => ?_
        have hne : key b ≠ key a := fun heq => hpa (hp b a heq ▸ hb)
        rw [mem_cons, or_iff_right hne, hseen b hb]

theorem map_filterMap_sublist {β γ : Type*} {f : α → Option β} {g : β → γ} {h : α → γ}
    (hfg : ∀ a b, f a = some b → g b = h a) (l : List α) :
    ((l.filterMap f).map g).Sublist (l.map h) := by
  induction l with
  | nil => exact .slnil
  | cons a l ih =>
    rw [filterMap_cons, map_cons]
    cases hf : f a with
    | none => exact ih.cons _
    | some b =>
      rw [map_cons, hfg a b hf]
      exact ih.cons_cons _

/-- The first index at which a search succeeds. -/
theorem findSome?_range_eq_some {f : ℕ → Option α} {n : ℕ} {a : α} :
    (range n).findSome? f = some a ↔ ∃ i < n, f i = some a ∧ ∀ j < i, f j = none := by
  induction n with
  | zero => simp
  | succ n ih =>
    rw [range_succ, findSome?_append, Option.or_eq_some_iff, ih,
      findSome?_eq_none_iff, findSome?_singleton]
    constructor
    · rintro (⟨i, hi, h⟩ | ⟨hnone, h⟩)
      · exact ⟨i, by omega, h⟩
      · exact ⟨n, n.lt_succ_self, h, fun j hj => hnone j (mem_range.mpr hj)⟩
    · rintro ⟨i, hi, h, hbefore⟩
      rcases Nat.lt_succ_iff_lt_or_eq.mp hi with hlt | rfl
      · exact .inl ⟨i, hlt, h, hbefore⟩
      · exact .inr ⟨fun j hj => hbefore j (mem_range.mp hj), h⟩

end Misaka.Core
