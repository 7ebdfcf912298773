import Misaka.Dns.QualityFloor
import Mathlib.Algebra.Order.BigOperators.Group.Finset
import Mathlib.Algebra.Module.NatInt

/-!
# Laws of the stake score

The tallies keep one contribution per key. If equal keys carry equal stake, the included stake of an
epoch is the sum over the finite set of its contributions, cut at the largest `u64`: the order and
the copies do not matter, and more contributions never lower the score.
-/

namespace Misaka.Dns

open Misaka.Core List

def ConsistentStakes (contributions : List AttestationContribution) : Prop :=
  ∀ c ∈ contributions, ∀ c' ∈ contributions, c.key = c'.key →
    c.signedStakeSompi = c'.signedStakeSompi

instance (contributions : List AttestationContribution) :
    Decidable (ConsistentStakes contributions) :=
  inferInstanceAs (Decidable (∀ c ∈ contributions, ∀ c' ∈ contributions, c.key = c'.key →
    c.signedStakeSompi = c'.signedStakeSompi))

def signedStake (contributions : List AttestationContribution) (epoch : ℕ) : ℕ :=
  ∑ c ∈ contributions.toFinset with c.epoch = epoch, c.signedStakeSompi

variable {l l' : List AttestationContribution} {totals : List (ℕ × ℕ)} {bps : ℕ}

theorem ConsistentStakes.eq_of_key (hl : ConsistentStakes l) {c c' : AttestationContribution}
    (hc : c ∈ l) (hc' : c' ∈ l) (hkey : c.key = c'.key) : c = c' := by
  have hstake := hl c hc c' hc' hkey
  cases c
  cases c'
  simp only [AttestationContribution.key, Prod.mk.injEq] at hkey
  simp only [AttestationContribution.mk.injEq]
  exact ⟨hkey.2.2, hkey.2.1, hkey.1, hstake⟩

theorem includedByEpoch_eq (hl : ConsistentStakes l) (epoch : ℕ) :
    includedByEpoch l epoch = min (signedStake l epoch) U64_MAX := by
  have hnodup : ((firstBy (·.key) [] l).filter (·.epoch = epoch)).Nodup :=
    (List.Nodup.of_map _ (nodup_keys_firstBy _ _ _)).filter _
  have hset : ((firstBy (·.key) [] l).filter (·.epoch = epoch)).toFinset =
      l.toFinset.filter (·.epoch = epoch) := by
    ext c
    simp only [mem_toFinset, mem_filter, decide_eq_true_eq, Finset.mem_filter,
      mem_firstBy_iff fun a ha b hb => hl.eq_of_key ha hb]
  rw [includedByEpoch, satSum_eq, signedStake, ← hset, sum_toFinset _ hnodup]

variable {included expected : ℕ}

/-- The credit never decreases with the included stake, across the jump at the floor too. -/
theorem epochStakeCredit_mono {included' : ℕ} (h : included ≤ included') (expected bps : ℕ) :
    epochStakeCredit included expected bps ≤ epochStakeCredit included' expected bps := by
  have hmin : min included expected ≤ min included' expected := min_le_min_right _ h
  have hscaled : min included expected * 10000 ≤ min included' expected * 10000 :=
    Nat.mul_le_mul_right _ hmin
  unfold epochStakeCredit
  dsimp only
  split
  · exact le_rfl
  split
  · exact Nat.zero_le _
  · next habove =>
    have habove' : ¬creditBelowFloor included' expected bps := fun hlt =>
      habove ((min_le_min_right _ hscaled).trans_lt hlt)
    rw [if_neg habove']
    split
    · exact le_rfl
    · exact Nat.div_le_div_right
        (min_le_min_right _ (Nat.mul_le_mul_right _ (Nat.sub_le_sub_right hscaled _)))

theorem epochStakeCredit_le (included : ℕ) (hexpected : expected ≤ U64_MAX) (bps : ℕ) :
    epochStakeCredit included expected bps ≤ STAKE_SCORE_SCALE := by
  -- the credit cuts both arguments itself
  have hcut : epochStakeCredit included expected bps =
      epochStakeCredit (min included expected) expected (min bps 10000) := by
    simp only [epochStakeCredit, creditBelowFloor, min_assoc, min_self]
  rcases Nat.eq_zero_or_pos expected with rfl | hpos
  · exact Nat.zero_le _
  · rw [hcut]
    exact (credit_le_scale hpos hexpected (min_le_right _ _) (min_le_right _ _)).1

theorem computeStakeScore_eq (l : List AttestationContribution) (totals : List (ℕ × ℕ)) (bps : ℕ) :
    computeStakeScore (aggregateEpochTallies l totals) bps =
      min (totals.map fun e => epochStakeCredit (includedByEpoch l e.1) e.2 bps).sum U128_MAX := by
  rw [computeStakeScore, satSum_eq, aggregateEpochTallies, map_map]
  rfl

theorem computeStakeScore_mono
    (h : ∀ epoch, includedByEpoch l epoch ≤ includedByEpoch l' epoch) :
    computeStakeScore (aggregateEpochTallies l totals) bps ≤
      computeStakeScore (aggregateEpochTallies l' totals) bps := by
  rw [computeStakeScore_eq, computeStakeScore_eq]
  exact min_le_min_right _ (sum_le_sum fun e _ => epochStakeCredit_mono (h e.1) _ _)

theorem includedByEpoch_mono (hl : ConsistentStakes l) (hl' : ConsistentStakes l') (hsub : l ⊆ l')
    (epoch : ℕ) : includedByEpoch l epoch ≤ includedByEpoch l' epoch := by
  rw [includedByEpoch_eq hl, includedByEpoch_eq hl']
  refine min_le_min_right _ (Finset.sum_le_sum_of_subset (Finset.filter_subset_filter _ ?_))
  exact fun c hc => mem_toFinset.mpr (hsub (mem_toFinset.mp hc))

theorem epochStakeCredit_eq_zero (hexpected : expected ≤ U64_MAX)
    (h : included * 10000 < expected * min bps 10000) :
    epochStakeCredit included expected bps = 0 := by
  have hbps : min bps 10000 ≤ 10000 := min_le_right _ _
  have hfloor := (noOverflow hexpected (Nat.zero_le expected) hbps).roundedUp
  refine epochStakeCredit_of_below ?_
  unfold creditBelowFloor
  omega

/-- The score depends on the set of contributions only, grows with it, is bounded by the number of
epochs, and is zero if every epoch stays below the floor, which counts as at most the whole
stake. -/
theorem stake_score_laws (hl : ConsistentStakes l) (htotals : ∀ e ∈ totals, e.2 ≤ U64_MAX)
    (bps : ℕ) :
    (∀ l', (∀ c, c ∈ l' ↔ c ∈ l) →
      computeStakeScore (aggregateEpochTallies l' totals) bps =
        computeStakeScore (aggregateEpochTallies l totals) bps) ∧
    (∀ l', ConsistentStakes l' → l ⊆ l' →
      computeStakeScore (aggregateEpochTallies l totals) bps ≤
        computeStakeScore (aggregateEpochTallies l' totals) bps) ∧
    computeStakeScore (aggregateEpochTallies l totals) bps ≤
      totals.length * STAKE_SCORE_SCALE ∧
    ((∀ e ∈ totals, signedStake l e.1 * 10000 < e.2 * min bps 10000) →
      computeStakeScore (aggregateEpochTallies l totals) bps = 0) := by
  refine ⟨fun l' hmem => ?_, fun l' hl' hsub => ?_, ?_, fun hbelow => ?_⟩
  · have hl' : ConsistentStakes l' := fun c hc c' hc' =>
      hl c ((hmem c).mp hc) c' ((hmem c').mp hc')
    refine le_antisymm (computeStakeScore_mono ?_) (computeStakeScore_mono ?_)
    · exact includedByEpoch_mono hl' hl fun c hc => (hmem c).mp hc
    · exact includedByEpoch_mono hl hl' fun c hc => (hmem c).mpr hc
  · exact computeStakeScore_mono (includedByEpoch_mono hl hl' hsub)
  · rw [computeStakeScore_eq]
    refine (min_le_left _ _).trans ?_
    have hcredits := sum_le_card_nsmul
      (totals.map fun e => epochStakeCredit (includedByEpoch l e.1) e.2 bps) STAKE_SCORE_SCALE
    rw [length_map, smul_eq_mul] at hcredits
    refine hcredits fun credit hcredit => ?_
    obtain ⟨e, he, rfl⟩ := mem_map.mp hcredit
    exact epochStakeCredit_le _ (htotals e he) bps
  · have hzero : ∀ e ∈ totals, epochStakeCredit (includedByEpoch l e.1) e.2 bps = 0 := by
      intro e he
      refine epochStakeCredit_eq_zero (htotals e he) (lt_of_le_of_lt ?_ (hbelow e he))
      rw [includedByEpoch_eq hl]
      exact Nat.mul_le_mul_right _ (min_le_left _ _)
    rw [computeStakeScore_eq, map_congr_left hzero]
    simp

/-- Two validators of one epoch, one of them listed twice. -/
theorem stake_score_laws_copy :
    let c : AttestationContribution := ⟨3, 1, ⟨7, 0⟩, 40⟩
    let c' : AttestationContribution := ⟨3, 2, ⟨8, 0⟩, 30⟩
    computeStakeScore (aggregateEpochTallies [c', c, c] [(3, 100)]) 5000 =
        computeStakeScore (aggregateEpochTallies [c, c'] [(3, 100)]) 5000 ∧
      computeStakeScore (aggregateEpochTallies [c] [(3, 100)]) 5000 = 0 ∧
      computeStakeScore (aggregateEpochTallies [c, c'] [(3, 100)]) 5000 = 400000000 := by
  intro c c'
  have htotals : ∀ e ∈ [((3 : ℕ), (100 : ℕ))], e.2 ≤ U64_MAX := by decide
  have hone : ConsistentStakes [c] := by decide
  have htwo : ConsistentStakes [c, c'] := by decide
  refine ⟨(stake_score_laws htwo htotals 5000).1 _ ?_, ?_, by decide⟩
  · intro d
    simp only [mem_cons, not_mem_nil, or_false]
    tauto
  · exact (stake_score_laws hone htotals 5000).2.2.2 (by decide)

end Misaka.Dns
