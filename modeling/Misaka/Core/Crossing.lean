import Mathlib.Data.List.Pairwise
import Mathlib.Data.Set.Lattice
import Mathlib.Order.CompletePartialOrder

/-!
# Thresholds crossed along a sequence

Along a sequence that never goes down every threshold above its start is crossed by exactly one
step, if the sequence gets that far.
-/

namespace Misaka.Core

open List

variable {ι κ : Type*} [LinearOrder κ]

/-- What has its threshold above `p` and not above `c`. -/
def crossed (threshold : ι → κ) (p c : κ) : Set ι := {i | p < threshold i ∧ threshold i ≤ c}

def stepsFrom (a : κ) : List κ → List (κ × κ)
  | [] => []
  | b :: l => (a, b) :: stepsFrom b l

variable {a : κ} {l : List κ} {s : κ × κ}

theorem le_of_mem_stepsFrom (h : (a :: l).Pairwise (· ≤ ·)) (hs : s ∈ stepsFrom a l) :
    a ≤ s.1 ∧ s.1 ≤ s.2 := by
  induction l generalizing a with
  | nil => cases hs
  | cons b l ih =>
    obtain ⟨hab, hl⟩ := pairwise_cons.mp h
    have hb := hab b mem_cons_self
    rcases mem_cons.mp hs with rfl | hs
    · exact ⟨le_rfl, hb⟩
    · obtain ⟨hbs, hss⟩ := ih hl hs
      exact ⟨hb.trans hbs, hss⟩

omit [LinearOrder κ] in
theorem mem_of_mem_stepsFrom (hs : s ∈ stepsFrom a l) : s.1 ∈ a :: l ∧ s.2 ∈ l := by
  induction l generalizing a with
  | nil => cases hs
  | cons b l ih =>
    rcases mem_cons.mp hs with rfl | hs
    · exact ⟨mem_cons_self, mem_cons_self⟩
    · obtain ⟨h₁, h₂⟩ := ih hs
      exact ⟨mem_cons_of_mem a h₁, mem_cons_of_mem b h₂⟩

theorem two_le_count_of_mem_stepsFrom {m : κ} (hs : (m, m) ∈ stepsFrom a l) :
    2 ≤ (a :: l).count m := by
  induction l generalizing a with
  | nil => cases hs
  | cons b l ih =>
    rcases mem_cons.mp hs with heq | hs
    · cases heq
      simp
    · exact (ih hs).trans (count_le_count_cons ..)

theorem exists_mem_stepsFrom_of_count {m : κ} (h : (a :: l).Pairwise (· ≤ ·)) (ha : a < m)
    (hle : ∀ b ∈ l, b ≤ m) (hcount : 2 ≤ l.count m) :
    (∃ p < m, (p, m) ∈ stepsFrom a l) ∧ (m, m) ∈ stepsFrom a l := by
  induction l generalizing a with
  | nil => simp at hcount
  | cons b l ih =>
    have hl := (pairwise_cons.mp h).2
    rcases (hle b mem_cons_self).eq_or_lt with rfl | hb
    · refine ⟨⟨a, ha, mem_cons_self⟩, mem_cons_of_mem _ ?_⟩
      rw [count_cons_self] at hcount
      -- the largest score is repeated, so it stands next
      cases l with
      | nil => simp at hcount
      | cons c l =>
        have hc : c = b := le_antisymm (hle c (by simp)) ((pairwise_cons.mp hl).1 c (by simp))
        rw [hc]
        exact mem_cons_self
    · rw [count_cons_of_ne hb.ne] at hcount
      obtain ⟨⟨p, hp, hreach⟩, hstay⟩ :=
        ih hl hb (forall_mem_cons.mp hle).2 hcount
      exact ⟨⟨p, hp, mem_cons_of_mem _ hreach⟩, mem_cons_of_mem _ hstay⟩

theorem pairwise_disjoint_crossed (threshold : ι → κ) (h : (a :: l).Pairwise (· ≤ ·)) :
    (stepsFrom a l).Pairwise fun s s' =>
      Disjoint (crossed threshold s.1 s.2) (crossed threshold s'.1 s'.2) := by
  induction l generalizing a with
  | nil => exact .nil
  | cons b l ih =>
    have hl := (pairwise_cons.mp h).2
    refine pairwise_cons.mpr ⟨fun s hs => ?_, ih hl⟩
    -- what the first step crosses lies at or below every later step
    have hbs := (le_of_mem_stepsFrom hl hs).1
    refine Set.disjoint_left.mpr fun i hi hi' => ?_
    exact absurd (hi.2.trans hbs) (not_le.mpr hi'.1)

theorem iUnion_crossed (threshold : ι → κ) (h : (a :: l).Pairwise (· ≤ ·)) :
    (⋃ s ∈ stepsFrom a l, crossed threshold s.1 s.2) =
      crossed threshold a (l.getLastD a) := by
  induction l generalizing a with
  | nil =>
    ext i
    simp only [stepsFrom, not_mem_nil, Set.iUnion_of_empty, Set.iUnion_empty,
      Set.mem_empty_iff_false, getLastD_nil, crossed, Set.mem_ofPred_eq, false_iff]
    exact fun hi => absurd hi.2 (not_le.mpr hi.1)
  | cons b l ih =>
    obtain ⟨hab, hl⟩ := pairwise_cons.mp h
    have hb := hab b mem_cons_self
    have hlast : b ≤ l.getLastD b := by
      rw [getLastD_eq_getLast?]
      cases hlast : l.getLast? with
      | none => exact le_rfl
      | some c => exact (pairwise_cons.mp hl).1 c (mem_of_getLast? hlast)
    rw [stepsFrom, getLastD_cons]
    simp only [mem_cons, Set.iUnion_iUnion_eq_or_left]
    rw [ih hl]
    ext i
    simp only [crossed, Set.mem_union, Set.mem_ofPred_eq]
    constructor
    · rintro (⟨hai, hib⟩ | ⟨hbi, hil⟩)
      · exact ⟨hai, hib.trans hlast⟩
      · exact ⟨hb.trans_lt hbi, hil⟩
    · rintro ⟨hai, hil⟩
      rcases le_or_gt (threshold i) b with hib | hbi
      · exact .inl ⟨hai, hib⟩
      · exact .inr ⟨hbi, hil⟩

end Misaka.Core
