import Mathlib.Data.Finset.Sort
import Misaka.Core.Fallible
import Misaka.Core.Table

/-!
# Ascending rows

A walk that refuses rows out of order, and the table of rows that passed it: listing the table by
its keys gives the rows back.
-/

namespace Misaka.Core

open List

variable {α β ε : Type} [LinearOrder α]

/-- One pass over a list that must be strictly ascending in `key`. -/
def checkAscending (key : β → α) (unsorted : ε) (before after : β → Except ε Unit) :
    Option α → List β → Except ε Unit
  | _, [] => .ok ()
  | prev, b :: rest => do
    before b
    failIf (prev.any (key b ≤ ·)) unsorted
    after b
    checkAscending key unsorted before after (some (key b)) rest

theorem checkAscending_eq_ok {key : β → α} {unsorted : ε} {before after : β → Except ε Unit}
    {prev : Option α} {rows : List β}
    (h : checkAscending key unsorted before after prev rows = .ok ()) :
    rows.Pairwise (key · < key ·) ∧ (∀ b ∈ rows, before b = .ok () ∧ after b = .ok ()) ∧
      ∀ p ∈ prev, ∀ b ∈ rows, p < key b := by
  induction rows generalizing prev with
  | nil => simp
  | cons b rest ih =>
    simp only [checkAscending, check_bind_eq_ok, failIf_eq_ok] at h
    obtain ⟨hbefore, hprev, hafter, hrest⟩ := h
    obtain ⟨hsorted, hchecks, hnext⟩ := ih hrest
    simp only [pairwise_cons, forall_mem_cons]
    refine ⟨⟨hnext (key b) rfl, hsorted⟩, ⟨⟨hbefore, hafter⟩, hchecks⟩, fun p hp => ?_⟩
    have hlt : p < key b := by simpa [Option.mem_def.mp hp] using hprev
    exact ⟨hlt, fun c hc => hlt.trans (hnext (key b) rfl c hc)⟩

theorem filterMap_eq_self_iff {g : β → Option β} {l : List β} :
    l.filterMap g = l ↔ ∀ a ∈ l, g a = some a := by
  induction l with
  | nil => simp
  | cons a l ih =>
    rw [forall_mem_cons, ← ih]
    cases hg : g a with
    | none =>
      have hlength := length_filterMap_le g l
      simp only [filterMap_cons_none hg, reduceCtorEq, false_and, iff_false]
      intro heq
      rw [heq, length_cons] at hlength
      omega
    | some b => simp [filterMap_cons_some hg]

namespace Table

variable [DecidableEq α]

def sortedKeys (m : Table α β) : List α := m.keys.sort

theorem sortedKeys_mapVal {γ : Type} (f : β → γ) (m : Table α β) :
    sortedKeys (m.mapVal f) = sortedKeys m := by
  rw [sortedKeys, keys_mapVal, sortedKeys]

variable {key : β → α} {rows : List β}

theorem sortedKeys_insertAll (h : rows.Pairwise (key · < key ·)) :
    sortedKeys (insertAll key rows ∅) = rows.map key := by
  have hsorted : (rows.map key).Pairwise (· < ·) := pairwise_map.mpr h
  rw [sortedKeys, keys_insertAll, Finmap.keys_empty, Finset.empty_union,
    toFinset_sort (· ≤ ·) (hsorted.imp ne_of_lt)]
  exact hsorted.imp le_of_lt

theorem lookup_insertAll_of_mem (h : rows.Pairwise (key · < key ·)) {b : β} (hb : b ∈ rows) :
    (insertAll key rows ∅).lookup (key b) = some b := by
  obtain ⟨c, hrow, hkey, hc⟩ := exists_lookup_insertAll key hb
  rwa [inj_on_of_nodup_map (pairwise_map.mpr (h.imp ne_of_lt)) hrow hb hkey] at hc

theorem filterMap_sortedKeys {γ : Type} (h : rows.Pairwise (key · < key ·)) {f : α → Option γ}
    {g : β → Option γ} (hfg : ∀ b ∈ rows, f (key b) = g b) :
    (sortedKeys (insertAll key rows ∅)).filterMap f = rows.filterMap g := by
  rw [sortedKeys_insertAll h, filterMap_map]
  exact filterMap_congr hfg

end Table

end Misaka.Core
