import Mathlib.Data.List.Sort
import Mathlib.Data.Prod.Lex

/-!
# Stable sorting by a key

`sortBy` is a stable sort by a key in a linear order. Where the keys tell the elements apart the
result depends on the elements alone, not on the order they were listed in.
-/

namespace Misaka.Core

open List

variable {α κ : Type*} [LinearOrder κ]

def sortBy (key : α → κ) (l : List α) : List α :=
  l.mergeSort fun a b => key a ≤ key b

theorem sortBy_perm (key : α → κ) (l : List α) : (sortBy key l).Perm l :=
  mergeSort_perm l _

theorem sortBy_pairwise (key : α → κ) (l : List α) :
    (sortBy key l).Pairwise fun a b => key a ≤ key b := by
  have h := @List.pairwise_mergeSort α (fun a b => decide (key a ≤ key b))
    (fun a b c hab hbc => by
      rw [decide_eq_true_eq] at hab hbc ⊢
      exact hab.trans hbc)
    (fun a b => by
      rw [Bool.or_eq_true, decide_eq_true_eq, decide_eq_true_eq]
      exact le_total _ _) l
  exact h.imp fun hab => of_decide_eq_true hab

theorem filter_sortBy [DecidableEq κ] (key : α → κ) (l : List α) (k : κ) :
    (sortBy key l).filter (key · = k) = l.filter (key · = k) := by
  have hequal : (l.filter (key · = k)).Pairwise fun a b => decide (key a ≤ key b) = true := by
    refine pairwise_of_forall_mem_list fun a ha b hb => decide_eq_true ?_
    exact ((of_decide_eq_true (mem_filter.mp ha).2).trans
      (of_decide_eq_true (mem_filter.mp hb).2).symm).le
  have hsub : (l.filter (key · = k)).Sublist (sortBy key l) :=
    sublist_mergeSort
      (fun a b c hab hbc => decide_eq_true ((of_decide_eq_true hab).trans (of_decide_eq_true hbc)))
      (fun a b => by simpa using le_total (key a) (key b)) hequal filter_sublist
  have hfilter := hsub.filter (key · = k)
  rw [filter_filter] at hfilter
  simp only [Bool.and_self] at hfilter
  exact (hfilter.eq_of_length ((sortBy_perm key l).filter _).length_eq.symm).symm

theorem sortBy_eq_of_perm {key : α → κ} {l l' : List α} (hperm : l.Perm l')
    (hinj : ∀ a ∈ l, ∀ b ∈ l, key a = key b → a = b) : sortBy key l = sortBy key l' := by
  have hmem (a : α) (ha : a ∈ sortBy key l') : a ∈ l :=
    hperm.mem_iff.mpr ((sortBy_perm key l').mem_iff.mp ha)
  apply List.Perm.eq_of_pairwise _ (sortBy_pairwise key l) (sortBy_pairwise key l')
  · exact (sortBy_perm key l).trans (hperm.trans (sortBy_perm key l').symm)
  · intro a b ha hb hab hba
    exact hinj a ((sortBy_perm key l).mem_iff.mp ha) b (hmem b hb) (le_antisymm hab hba)

/-- Where the keys tell all values apart, two lists sort to the same list if and only if they hold
the same elements. -/
theorem sortBy_eq_iff_perm {key : α → κ} (hinj : Function.Injective key) {l l' : List α} :
    sortBy key l = sortBy key l' ↔ l.Perm l' := by
  constructor
  · intro h
    exact (sortBy_perm key l).symm.trans (h ▸ sortBy_perm key l')
  · intro h
    exact sortBy_eq_of_perm h fun _ _ _ _ hab => hinj hab

theorem sortBy_of_pairwise {key : α → κ} {l : List α} (h : l.Pairwise fun a b => key a ≤ key b) :
    sortBy key l = l :=
  mergeSort_of_pairwise (h.imp fun hab => decide_eq_true hab)

theorem find?_eq_of_perm {β : Type*} [DecidableEq β] {key : α → β} {l l' : List α}
    (hperm : l.Perm l') (hnodup : (l.map key).Nodup) (k : β) :
    l.find? (key · = k) = l'.find? (key · = k) := by
  have hfilter := hperm.filter fun a => decide (key a = k)
  have hkeys : ((l.filter fun a => decide (key a = k)).map key).Nodup :=
    hnodup.sublist (filter_sublist.map key)
  rw [← List.head?_filter, ← List.head?_filter]
  match hmatch : l.filter fun a => decide (key a = k) with
  | [] =>
    rw [hmatch] at hfilter
    rw [hfilter.nil_eq]
  | [a] =>
    rw [hmatch] at hfilter
    rw [singleton_perm.mp hfilter]
  | a :: b :: rest =>
    -- two matches would share the key
    have ha : a ∈ l.filter fun a => decide (key a = k) := by simp [hmatch]
    have hb : b ∈ l.filter fun a => decide (key a = k) := by simp [hmatch]
    have hab : key a = key b := (of_decide_eq_true (mem_filter.mp ha).2).trans
      (of_decide_eq_true (mem_filter.mp hb).2).symm
    rw [hmatch] at hkeys
    simp [hab] at hkeys

theorem foldl_max_spec (a : κ) (l : List κ) :
    l.foldl max a ∈ a :: l ∧ ∀ b ∈ a :: l, b ≤ l.foldl max a := by
  induction l generalizing a with
  | nil => simp
  | cons b l ih =>
    obtain ⟨hmem, hle⟩ := ih (max a b)
    rw [foldl_cons]
    constructor
    · rcases mem_cons.mp hmem with heq | hmem
      · rw [heq]
        rcases le_total a b with h | h <;> simp [h]
      · exact mem_cons_of_mem _ (mem_cons_of_mem _ hmem)
    · rw [forall_mem_cons] at hle
      rw [forall_mem_cons, forall_mem_cons]
      exact ⟨(le_max_left _ _).trans hle.1, (le_max_right _ _).trans hle.1, hle.2⟩

end Misaka.Core
