import Misaka.Core.Crossing
import Misaka.Dns.Tally

/-!
# Each epoch is finalized once

`epochs_finalized_at` is the only guard against settling an epoch twice. Scores never go down along
a chain, so each threshold is crossed once, but at the largest score the saturating `m_min` falls
behind.
-/

namespace Misaka.Dns

open Misaka.Core List

def finalizationThreshold (epochLengthBlocks finalizationDepth epoch : ℕ) : ℕ :=
  (epoch + 1) * max 1 epochLengthBlocks + finalizationDepth

def epochsIn : Option (ℕ × ℕ) → Set ℕ
  | none => ∅
  | some (eMin, eMax) => Set.Icc eMin eMax

def finalizedBy (epochLengthBlocks finalizationDepth : ℕ) (s : ℕ × ℕ) : Set ℕ :=
  epochsIn (epochsFinalizedAt s.1 s.2 epochLengthBlocks finalizationDepth)

/-- Along the scores `0, scores…` no epoch is finalized by two steps, the epochs finalized are those
whose threshold the last score has reached, and the tallies of the finalizing block agree. -/
structure FinalizedOnce (epochLengthBlocks finalizationDepth : ℕ) (scores : List ℕ) : Prop where
  disjoint : (stepsFrom 0 scores).Pairwise fun s s' =>
    Disjoint (finalizedBy epochLengthBlocks finalizationDepth s)
      (finalizedBy epochLengthBlocks finalizationDepth s')
  exact : (⋃ s ∈ stepsFrom 0 scores, finalizedBy epochLengthBlocks finalizationDepth s) =
    {epoch | 0 < finalizationThreshold epochLengthBlocks finalizationDepth epoch ∧
      finalizationThreshold epochLengthBlocks finalizationDepth epoch ≤ scores.getLastD 0}
  flagged : ∀ s ∈ stepsFrom 0 scores, ∀ contributions bonds,
    ∀ t ∈ recomputeEpochTallies contributions bonds s.2 epochLengthBlocks finalizationDepth,
      t.1 ∈ finalizedBy epochLengthBlocks finalizationDepth s → t.2.finalized = true

variable {len depth p c epoch : ℕ}

/-- Where the addition in `m_min` saturates: the parent has the largest score, epochs are of one
block and there is no finalization depth. -/
def Saturates (epochLengthBlocks finalizationDepth p : ℕ) : Prop :=
  max 1 epochLengthBlocks = 1 ∧ finalizationDepth = 0 ∧ p = U64_MAX

theorem threshold_le_iff (hc : depth ≤ c) :
    finalizationThreshold len depth epoch ≤ c ↔ epoch + 1 ≤ (c - depth) / max 1 len := by
  have hlen : 1 ≤ max 1 len := le_max_left _ _
  rw [Nat.le_div_iff_mul_le hlen, finalizationThreshold]
  omega

theorem lt_threshold_iff (hp : depth ≤ p) :
    p < finalizationThreshold len depth epoch ↔ (p - depth) / max 1 len < epoch + 1 := by
  rw [← not_le, threshold_le_iff hp, not_le]

theorem saturates_iff (hp : p ≤ U64_MAX) (hdepth : depth ≤ p) :
    Saturates len depth p ↔ U64_MAX ≤ (p - depth) / max 1 len := by
  constructor
  · rintro ⟨hlen, rfl, rfl⟩
    rw [hlen, Nat.sub_zero, Nat.div_one]
  · intro hle
    have hbound := Nat.div_le_self (p - depth) (max 1 len)
    have hall : p - depth = U64_MAX := by omega
    rw [hall] at hle
    have hlen : max 1 len = 1 := by
      by_contra hne
      have hlarge : 1 < max 1 len := lt_of_le_of_ne (le_max_left _ _) (Ne.symm hne)
      have hless := Nat.div_lt_self (show 0 < U64_MAX by decide) hlarge
      omega
    exact ⟨hlen, by omega, by omega⟩

theorem mem_finalizedBy (hp : p ≤ U64_MAX) :
    epoch ∈ finalizedBy len depth (p, c) ↔ finalizationThreshold len depth epoch ≤ c ∧
        (p < finalizationThreshold len depth epoch ∨
          Saturates len depth p ∧ finalizationThreshold len depth epoch = U64_MAX) := by
  have hdepth : depth < finalizationThreshold len depth epoch := by
    have hlen : 1 ≤ max 1 len := le_max_left _ _
    have := mul_pos (show 0 < epoch + 1 by omega) hlen
    rw [finalizationThreshold]
    omega
  simp only [finalizedBy, epochsFinalizedAt, max_comm len 1]
  by_cases hc : c < depth
  · rw [if_pos hc]
    refine iff_of_false (Set.notMem_empty _) ?_
    omega
  rw [if_neg hc, threshold_le_iff (not_lt.mp hc)]
  generalize hmax : (c - depth) / max 1 len = mMax
  by_cases hzero : mMax = 0
  · rw [if_pos hzero]
    refine iff_of_false (Set.notMem_empty _) ?_
    omega
  rw [if_neg hzero]
  by_cases hparent : p < depth
  · -- the parent is below every threshold
    simp only [if_pos hparent, max_self]
    rw [if_neg (by omega)]
    simp only [epochsIn, Set.mem_Icc]
    omega
  · rw [if_neg hparent, lt_threshold_iff (not_lt.mp hparent), saturates_iff hp (not_lt.mp hparent)]
    generalize hmin : (p - depth) / max 1 len = q
    by_cases hsat : U64_MAX ≤ q
    · -- the saturated bound is one below the exact one
      have hsaturates : Saturates len depth p :=
        (saturates_iff hp (not_lt.mp hparent)).mpr (hmin ▸ hsat)
      obtain ⟨hlen, hfd, -⟩ := hsaturates
      have hthreshold : finalizationThreshold len depth epoch = epoch + 1 := by
        rw [finalizationThreshold, hlen, hfd, mul_one, add_zero]
      have hq : q ≤ U64_MAX := by
        have := Nat.div_le_self (p - depth) (max 1 len)
        omega
      have hpos : 1 ≤ U64_MAX := by decide
      rw [hthreshold, min_eq_right (by omega), max_eq_left hpos]
      split <;> simp only [epochsIn, Set.mem_empty_iff_false, false_iff, Set.mem_Icc] <;> omega
    · rw [min_eq_left (by omega), max_eq_left (by omega)]
      split <;> simp only [epochsIn, Set.mem_empty_iff_false, false_iff, Set.mem_Icc] <;> omega

theorem finalized_of_mem_finalizedBy (hp : p ≤ U64_MAX)
    {contributions : List BlockEpochContribution} {bonds : List StakeBondRecord}
    {t : ℕ × EpochTally}
    (ht : t ∈ recomputeEpochTallies contributions bonds c len depth)
    (hmem : t.1 ∈ finalizedBy len depth (p, c)) :
    t.2.finalized = true := by
  simp only [recomputeEpochTallies, mem_map] at ht
  obtain ⟨epoch, -, rfl⟩ := ht
  have hreached : finalizationThreshold len depth epoch ≤ c := ((mem_finalizedBy hp).mp hmem).1
  rw [finalizationThreshold, max_comm 1] at hreached
  refine decide_eq_true ?_
  -- saturation only lowers the threshold
  have hstep : min (epoch + 1) U64_MAX * max len 1 ≤
      (epoch + 1) * max len 1 := Nat.mul_le_mul_right _ (min_le_left _ _)
  omega

/-- Along every chain of scores each epoch is finalized by exactly one block, unless epochs are of
one block, there is no finalization depth and two blocks have the largest score. -/
theorem epochs_finalized_once_iff {epochLengthBlocks finalizationDepth : ℕ} {scores : List ℕ}
    (hmono : (0 :: scores).Pairwise (· ≤ ·))
    (hscores : ∀ d ∈ scores, d ≤ U64_MAX) :
    FinalizedOnce epochLengthBlocks finalizationDepth scores ↔
      ¬(max 1 epochLengthBlocks = 1 ∧ finalizationDepth = 0 ∧ 2 ≤ scores.count U64_MAX) := by
  have hbound : ∀ s ∈ stepsFrom 0 scores, s.1 ≤ U64_MAX ∧ s.2 ≤ U64_MAX := by
    intro s hs
    obtain ⟨h₁, h₂⟩ := mem_of_mem_stepsFrom hs
    refine ⟨?_, hscores _ h₂⟩
    rcases mem_cons.mp h₁ with h₁ | h₁
    · omega
    · exact hscores _ h₁
  constructor
  · rintro h ⟨hlen, rfl, hcount⟩
    obtain ⟨⟨p, hp, hreach⟩, hstay⟩ :=
      exists_mem_stepsFrom_of_count hmono (show 0 < U64_MAX by decide) hscores hcount
    -- both steps return the epoch that ends at the largest score
    have hthreshold : finalizationThreshold epochLengthBlocks 0 (U64_MAX - 1) = U64_MAX := by
      rw [finalizationThreshold, hlen]
      decide
    have hfirst : U64_MAX - 1 ∈ finalizedBy epochLengthBlocks 0 (p, U64_MAX) :=
      (mem_finalizedBy hp.le).mpr ⟨hthreshold.le, .inl (by rwa [hthreshold])⟩
    have hsecond : U64_MAX - 1 ∈ finalizedBy epochLengthBlocks 0 (U64_MAX, U64_MAX) :=
      (mem_finalizedBy le_rfl).mpr ⟨hthreshold.le, .inr ⟨⟨hlen, rfl, rfl⟩, hthreshold⟩⟩
    have hne : (p, U64_MAX) ≠ (U64_MAX, U64_MAX) := fun heq => hp.ne (Prod.mk.inj heq).1
    have hdisjoint := h.disjoint.forall hreach hstay hne
    exact Set.disjoint_left.mp hdisjoint hfirst hsecond
  · intro hcondition
    have hcrossed : ∀ s ∈ stepsFrom 0 scores,
        finalizedBy epochLengthBlocks finalizationDepth s =
          crossed (finalizationThreshold epochLengthBlocks finalizationDepth) s.1 s.2 := by
      rintro ⟨p, c⟩ hs
      obtain ⟨hp, hc⟩ := hbound _ hs
      have hle : p ≤ c := (le_of_mem_stepsFrom hmono hs).2
      ext epoch
      rw [mem_finalizedBy hp]
      refine ⟨fun ⟨hreached, habove⟩ => ⟨?_, hreached⟩, fun ⟨habove, hreached⟩ =>
        ⟨hreached, .inl habove⟩⟩
      refine habove.resolve_right ?_
      rintro ⟨⟨hlen, hdepth, hmax⟩, -⟩
      refine hcondition ⟨hlen, hdepth, ?_⟩
      obtain rfl : c = U64_MAX := le_antisymm hc (hmax ▸ hle)
      subst hmax
      exact two_le_count_of_mem_stepsFrom hs
    refine ⟨?_, ?_, ?_⟩
    · refine (pairwise_disjoint_crossed
        (finalizationThreshold epochLengthBlocks finalizationDepth) hmono).imp_of_mem ?_
      intro s s' hs hs' hd
      rwa [hcrossed s hs, hcrossed s' hs']
    · rw [Set.iUnion₂_congr hcrossed, iUnion_crossed _ hmono]
      rfl
    · rintro ⟨p, c⟩ hs contributions bonds t ht hmem
      exact finalized_of_mem_finalizedBy (hbound _ hs).1 ht hmem

/-- Epochs of ten blocks, buried under twenty; the third step jumps over six epochs. -/
theorem epochs_finalized_once_iff_jump :
    FinalizedOnce 10 20 [5, 35, 100, 100] ∧ epochsFinalizedAt 35 100 10 20 = some (1, 7) :=
  ⟨(epochs_finalized_once_iff (by decide) (by decide)).mpr (by decide), by decide⟩

/-- The second block at the largest score finalizes the last epoch again. -/
theorem last_epoch_finalized_twice :
    epochsFinalizedAt 0 U64_MAX 1 0 = some (0, U64_MAX - 1) ∧
    epochsFinalizedAt U64_MAX U64_MAX 1 0 = some (U64_MAX - 1, U64_MAX - 1) ∧
    ¬FinalizedOnce 1 0 [U64_MAX, U64_MAX] := by
  refine ⟨by decide, by decide, fun h => ?_⟩
  have hdisjoint := (pairwise_cons.mp h.disjoint).1 (U64_MAX, U64_MAX) (by decide)
  have hfirst : U64_MAX - 1 ∈ finalizedBy 1 0 (0, U64_MAX) := by
    rw [finalizedBy, show epochsFinalizedAt 0 U64_MAX 1 0 = some (0, U64_MAX - 1) by decide]
    exact ⟨Nat.zero_le _, le_rfl⟩
  have hsecond : U64_MAX - 1 ∈ finalizedBy 1 0 (U64_MAX, U64_MAX) := by
    rw [finalizedBy,
      show epochsFinalizedAt U64_MAX U64_MAX 1 0 = some (U64_MAX - 1, U64_MAX - 1) by decide]
    exact ⟨le_rfl, le_rfl⟩
  exact Set.disjoint_left.mp hdisjoint hfirst hsecond

end Misaka.Dns
