import Mathlib.Data.List.TakeWhile
import Mathlib.Order.Lattice

/-!
# Walks over pages

A listing in strict order is read in pages: each page starts after a cursor, holds at most `limit`
elements and names the cursor of the next page if more elements follow. Feeding the cursors back
reads the whole listing, each element once and in order, however the listing was cut.
-/

namespace Misaka.Core

open List

variable {α γ κ π : Type*} [LinearOrder κ]

def partitionPoint (p : α → Bool) (l : List α) : ℕ := (l.takeWhile p).length

def afterCursor (ident : α → γ) (rank : γ → κ) (l : List α) : Option γ → List α
  | none => l
  | some cursor => l.drop (partitionPoint (fun a => rank (ident a) ≤ rank cursor) l)

/-- Follow the cursors from page to page until one has no next. -/
def walkPages (ask : Option γ → π) (next : π → Option γ) : ℕ → Option γ → Option (List π)
  | 0, _ => none
  | fuel + 1, cursor =>
    match next (ask cursor) with
    | none => some [ask cursor]
    | some cursor' => (walkPages ask next fuel (some cursor')).map (ask cursor :: ·)

variable {ident : α → γ} {rank : γ → κ} {l : List α}

theorem afterCursor_of_split {front back : List α} {a : α}
    (hsorted : l.Pairwise fun a b => rank (ident a) < rank (ident b))
    (hsplit : l = front ++ a :: back) : afterCursor ident rank l (some (ident a)) = back := by
  subst hsplit
  obtain ⟨-, hback, hcross⟩ := pairwise_append.mp hsorted
  have hfront : ∀ x ∈ front ++ [a], decide (rank (ident x) ≤ rank (ident a)) = true := by
    refine forall_mem_append.mpr ⟨fun x hx => ?_, forall_mem_singleton.mpr (decide_eq_true le_rfl)⟩
    exact decide_eq_true (hcross x hx a mem_cons_self).le
  have hstop : back.takeWhile (fun x => decide (rank (ident x) ≤ rank (ident a))) = [] := by
    cases back with
    | nil => rfl
    | cons b back =>
      have hlt := (pairwise_cons.mp hback).1 b mem_cons_self
      rw [takeWhile_cons_of_neg]
      simpa using hlt
  have hassoc : front ++ a :: back = (front ++ [a]) ++ back := by
    rw [append_assoc, singleton_append]
  rw [afterCursor, partitionPoint, hassoc, takeWhile_append_of_pos hfront, hstop,
    append_nil, drop_left]

theorem exists_walkPages {ask : Option γ → π} {next : π → Option γ} {items : π → List α}
    {limit : ℕ} (hlimit : 0 < limit)
    (hsorted : l.Pairwise fun a b => rank (ident a) < rank (ident b))
    (hitems : ∀ cursor, items (ask cursor) = (afterCursor ident rank l cursor).take limit)
    (hnext : ∀ cursor, next (ask cursor) =
      if limit < (afterCursor ident rank l cursor).length then
        (items (ask cursor)).getLast?.map ident
      else none)
    (front : List α) (cursor : Option γ) (hfront : l = front ++ afterCursor ident rank l cursor) :
    ∃ pages, (∀ fuel, (afterCursor ident rank l cursor).length < fuel →
        walkPages ask next fuel cursor = some pages) ∧
      pages.flatMap items = afterCursor ident rank l cursor := by
  -- induction on how much is left; a full page leaves less
  induction hn : (afterCursor ident rank l cursor).length using Nat.strong_induction_on
    generalizing front cursor with
  | h n ih =>
    subst hn
    by_cases hmore : limit < (afterCursor ident rank l cursor).length
    · have hne : (afterCursor ident rank l cursor).take limit ≠ [] := by
        rw [Ne, take_eq_nil_iff, not_or]
        exact ⟨hlimit.ne', ne_nil_of_length_pos (by omega)⟩
      obtain ⟨ys, a, hpage⟩ : ∃ ys a, (afterCursor ident rank l cursor).take limit = ys ++ [a] :=
        ⟨_, _, (dropLast_concat_getLast hne).symm⟩
      have hcut : afterCursor ident rank l cursor =
          (ys ++ [a]) ++ (afterCursor ident rank l cursor).drop limit := by
        rw [← hpage, take_append_drop]
      have hsplit : l = (front ++ ys) ++ a :: (afterCursor ident rank l cursor).drop limit := by
        rw [hcut] at hfront
        simpa only [append_assoc, singleton_append] using hfront
      have hafter := afterCursor_of_split hsorted hsplit
      have hless : (afterCursor ident rank l (some (ident a))).length <
          (afterCursor ident rank l cursor).length := by
        rw [hafter, length_drop]
        omega
      obtain ⟨pages, hwalk, hflat⟩ := ih _ hless ((front ++ ys) ++ [a]) (some (ident a))
        (by rw [hafter, append_assoc _ [a], singleton_append]; exact hsplit) rfl
      refine ⟨ask cursor :: pages, fun fuel hfuel => ?_, ?_⟩
      · obtain ⟨fuel, rfl⟩ := Nat.exists_eq_add_one.mpr (Nat.zero_lt_of_lt hfuel)
        have hcursor : next (ask cursor) = some (ident a) := by
          rw [hnext, if_pos hmore, hitems, hpage, List.getLast?_concat, Option.map_some]
        simp only [walkPages, hcursor]
        rw [hwalk fuel (by omega), Option.map_some]
      · rw [flatMap_cons, hflat, hitems, hafter, take_append_drop]
    · refine ⟨[ask cursor], fun fuel hfuel => ?_, ?_⟩
      · obtain ⟨fuel, rfl⟩ := Nat.exists_eq_add_one.mpr (Nat.zero_lt_of_lt hfuel)
        have hcursor : next (ask cursor) = none := by rw [hnext, if_neg hmore]
        simp only [walkPages, hcursor]
      · rw [flatMap_singleton, hitems, take_of_length_le (not_lt.mp hmore)]

end Misaka.Core
