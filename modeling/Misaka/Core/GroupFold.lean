import Mathlib.Data.List.Induction
import Mathlib.Data.List.Nodup

/-!
# Folding rows into one entry per key

A loop over rows that keeps one entry per key, started by the first row of the key and merged with
the later ones, as a map with `entry().or_insert()` does. The entry of a key is the fold of the rows
of that key alone, in their order, and no key has two entries.
-/

namespace Misaka.Core

open List

variable {ρ α κ : Type*} [DecidableEq κ]

/-- Merge a row into the group of its key, or start that group. -/
def mergeRow (rowKey : ρ → κ) (key : α → κ) (start : ρ → α) (merge : α → ρ → α) (r : ρ) :
    List α → List α
  | [] => [start r]
  | a :: l => if key a = rowKey r then merge a r :: l else a :: mergeRow rowKey key start merge r l

def groupFold (rowKey : ρ → κ) (key : α → κ) (start : ρ → α) (merge : α → ρ → α) (rows : List ρ) :
    List α :=
  rows.foldl (fun acc r => mergeRow rowKey key start merge r acc) []

def foldRows (start : ρ → α) (merge : α → ρ → α) : List ρ → Option α
  | [] => none
  | r :: rows => some (rows.foldl merge (start r))

theorem foldRows_concat (start : ρ → α) (merge : α → ρ → α) (rows : List ρ) (r : ρ) :
    foldRows start merge (rows ++ [r]) =
      some ((foldRows start merge rows).elim (start r) (merge · r)) := by
  cases rows with
  | nil => rfl
  | cons r₀ rows => simp [foldRows]

variable {rowKey : ρ → κ} {key : α → κ} {start : ρ → α} {merge : α → ρ → α}

section

variable (hstart : ∀ r, key (start r) = rowKey r) (hmerge : ∀ a r, key (merge a r) = key a)
include hstart hmerge

theorem find?_mergeRow (r : ρ) (l : List α) (k : κ) :
    (mergeRow rowKey key start merge r l).find? (key · = k) =
      if rowKey r = k then
        some ((l.find? (key · = k)).elim (start r) (merge · r))
      else l.find? (key · = k) := by
  induction l with
  | nil =>
    by_cases hk : rowKey r = k <;> simp [mergeRow, hstart, hk]
  | cons a l ih =>
    by_cases ha : key a = rowKey r
    · rw [mergeRow, if_pos ha, List.find?_cons, hmerge, List.find?_cons]
      by_cases hk : rowKey r = k <;> simp [ha, hk]
    · rw [mergeRow, if_neg ha, List.find?_cons, List.find?_cons, ih]
      by_cases hk : key a = k
      · have hne : rowKey r ≠ k := fun h => ha (hk.trans h.symm)
        simp [hk, hne]
      · simp [hk]

theorem map_key_mergeRow (r : ρ) (l : List α) :
    (mergeRow rowKey key start merge r l).map key =
      if rowKey r ∈ l.map key then l.map key else l.map key ++ [rowKey r] := by
  induction l with
  | nil => simp [mergeRow, hstart]
  | cons a l ih =>
    by_cases ha : key a = rowKey r
    · simp [mergeRow, ha, hmerge]
    · rw [mergeRow, if_neg ha, map_cons, ih]
      simp only [map_cons, mem_cons, Ne.symm ha, false_or, cons_append]
      split <;> rfl

theorem find?_groupFold (rows : List ρ) (k : κ) :
    (groupFold rowKey key start merge rows).find? (key · = k) =
      foldRows start merge (rows.filter (rowKey · = k)) := by
  induction rows using List.reverseRecOn with
  | nil => rfl
  | append_singleton rows r ih =>
    rw [groupFold, foldl_append, foldl_cons, foldl_nil, ← groupFold,
      find?_mergeRow hstart hmerge, ih, filter_append]
    by_cases hk : rowKey r = k
    · simp only [hk, if_true, filter_cons, decide_true, filter_nil]
      rw [foldRows_concat]
    · simp [hk]

theorem nodup_groupFold (rows : List ρ) :
    ((groupFold rowKey key start merge rows).map key).Nodup := by
  refine foldlRecOn (motive := fun acc : List α => (acc.map key).Nodup) rows _ nodup_nil
    fun acc h r _ => ?_
  rw [map_key_mergeRow hstart hmerge]
  split
  · exact h
  · next hnew =>
    refine nodup_append.mpr ⟨h, nodup_singleton _, fun k hk k' hk' => ?_⟩
    exact ne_of_mem_of_not_mem hk (mem_singleton.mp hk' ▸ hnew)

theorem mem_groupFold {rows : List ρ} {a : α} :
    a ∈ groupFold rowKey key start merge rows ↔
      foldRows start merge (rows.filter (rowKey · = key a)) = some a := by
  rw [← find?_groupFold hstart hmerge]
  constructor
  · intro hmem
    have hsome : ((groupFold rowKey key start merge rows).find? (key · = key a)).isSome :=
      List.find?_isSome.mpr ⟨a, hmem, decide_eq_true rfl⟩
    obtain ⟨b, hb⟩ := Option.isSome_iff_exists.mp hsome
    have hkey : key b = key a := by simpa using List.find?_some hb
    rw [hb, inj_on_of_nodup_map (nodup_groupFold hstart hmerge rows)
      (mem_of_find?_eq_some hb) hmem hkey]
  · intro hfind
    exact mem_of_find?_eq_some hfind

end

end Misaka.Core
