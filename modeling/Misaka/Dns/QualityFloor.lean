import Misaka.Core.Greedy
import Misaka.Dns.StakeScore

/-!
# The quality floor

Four places test whether the stake included in an epoch reaches the quality floor: the reward gate
multiplies across, the mandatory-inclusion rule rounds the required stake up, the health signal
rounds the fraction down, and the score gates its credit.
-/

namespace Misaka.Dns

open Misaka.Core List

/-- The signed share of the active stake that the health signal tests, rounded down. -/
def EpochStakeTally.fracBps (e : EpochStakeTally) : ℕ :=
  if e.totalActiveStakeSompi = 0 then 0
  else min e.signedStakeSompi e.totalActiveStakeSompi * 10000 / e.totalActiveStakeSompi

variable {included expected bps : ℕ} {remaining : List ℕ}

theorem epochStakeCredit_of_below (h : creditBelowFloor included expected bps) :
    epochStakeCredit included expected bps = 0 := by
  simp only [epochStakeCredit, h, if_true, ite_self]

theorem mul_le_u128 {a b : ℕ} (ha : a ≤ U64_MAX) (hb : b ≤ 10000 * STAKE_SCORE_SCALE) :
    a * b + 9999 ≤ U128_MAX :=
  calc a * b + 9999 ≤ U64_MAX * (10000 * STAKE_SCORE_SCALE) + 9999 :=
        Nat.add_le_add_right (Nat.mul_le_mul ha hb) _
    _ ≤ U128_MAX := by decide

/-- Nothing the tests and the credit multiply leaves its integer type. -/
structure NoOverflow (included expected bps : ℕ) : Prop where
  roundedUp : expected * bps + 9999 ≤ U128_MAX
  required : (expected * bps + 9999) / 10000 ≤ U64_MAX
  scaled : included * 10000 ≤ U128_MAX
  denominator : expected * (10000 - bps) ≤ U128_MAX
  numerator : (included * 10000 - expected * bps) * STAKE_SCORE_SCALE ≤ U128_MAX

theorem noOverflow (hexpected : expected ≤ U64_MAX) (hincluded : included ≤ expected)
    (hbps : bps ≤ 10000) : NoOverflow included expected bps := by
  have hscale : 10000 ≤ 10000 * STAKE_SCORE_SCALE := by decide
  have hstake := hincluded.trans hexpected
  refine ⟨mul_le_u128 hexpected (hbps.trans hscale), ?_, ?_, ?_, ?_⟩
  · have : expected * bps ≤ expected * 10000 := Nat.mul_le_mul_left _ hbps
    omega
  · exact (Nat.le_add_right _ _).trans (mul_le_u128 hstake hscale)
  · exact (Nat.le_add_right _ _).trans
      (mul_le_u128 hexpected ((Nat.sub_le _ _).trans hscale))
  · calc (included * 10000 - expected * bps) * STAKE_SCORE_SCALE
        ≤ included * 10000 * STAKE_SCORE_SCALE := Nat.mul_le_mul_right _ (Nat.sub_le _ _)
      _ = included * (10000 * STAKE_SCORE_SCALE) := Nat.mul_assoc _ _ _
      _ ≤ U128_MAX := (Nat.le_add_right _ _).trans (mul_le_u128 hstake le_rfl)

theorem epochStakeCredit_of_not_below (hpos : 0 < expected) (hexpected : expected ≤ U64_MAX)
    (hincluded : included ≤ expected) (hbps : bps < 10000)
    (h : ¬ creditBelowFloor included expected bps) :
    epochStakeCredit included expected bps =
      (included * 10000 - expected * bps) * STAKE_SCORE_SCALE / (expected * (10000 - bps)) := by
  have hfit := noOverflow hexpected hincluded hbps.le
  have hdenom : 10000 - min bps 10000 ≠ 0 := by omega
  simp only [epochStakeCredit, hpos.ne', if_false, h, hdenom]
  rw [min_eq_left hincluded, min_eq_left hbps.le, min_eq_left hfit.numerator,
    min_eq_left hfit.denominator]

theorem tests_iff (hpos : 0 < expected) (hexpected : expected ≤ U64_MAX)
    (hincluded : included ≤ expected) (hbps : bps ≤ 10000) :
    (epochMeetsQualityFloor included expected bps = true ↔
        expected * bps ≤ included * 10000) ∧
      (requiredStakeForQualityFloor expected bps ≤ included ↔
        expected * bps ≤ included * 10000) ∧
      (∀ epoch, bps ≤ (⟨epoch, included, expected⟩ : EpochStakeTally).fracBps ↔
        expected * bps ≤ included * 10000) ∧
      (¬ creditBelowFloor included expected bps ↔ expected * bps ≤ included * 10000) := by
  have hfit := noOverflow hexpected hincluded hbps
  have hfloor : expected * bps ≤ U128_MAX := (Nat.le_add_right _ _).trans hfit.roundedUp
  refine ⟨?_, ?_, fun epoch => ?_, ?_⟩
  · rw [epochMeetsQualityFloor, decide_eq_true_iff, Nat.mul_comm bps, min_eq_left hfloor,
      min_eq_left hfit.scaled]
  · -- rounding up to whole sompi does not change the comparison with a whole stake
    rw [requiredStakeForQualityFloor, min_eq_left hfloor, min_eq_left hfit.roundedUp,
      min_eq_left hfit.required]
    omega
  · rw [EpochStakeTally.fracBps, if_neg hpos.ne', min_eq_left hincluded,
      Nat.le_div_iff_mul_le hpos, Nat.mul_comm bps]
  · rw [creditBelowFloor, min_eq_left hincluded, min_eq_left hbps, not_lt, min_eq_left hfloor,
      min_eq_left hfit.scaled]

theorem credit_le_scale (hpos : 0 < expected) (hexpected : expected ≤ U64_MAX)
    (hincluded : included ≤ expected) (hbps : bps ≤ 10000) :
    epochStakeCredit included expected bps ≤ STAKE_SCORE_SCALE ∧
      (epochStakeCredit included expected bps = STAKE_SCORE_SCALE ↔ included = expected) := by
  have hscale : 0 < STAKE_SCORE_SCALE := by decide
  have htest := (tests_iff hpos hexpected hincluded hbps).2.2.2
  by_cases hbelow : creditBelowFloor included expected bps
  · have hne : included ≠ expected := by
      rintro rfl
      exact htest.mpr (Nat.mul_le_mul_left _ hbps) hbelow
    rw [epochStakeCredit_of_below hbelow]
    exact ⟨Nat.zero_le _, iff_of_false hscale.ne hne⟩
  · have hfloor := htest.mp hbelow
    rcases hbps.lt_or_eq with hlt | rfl
    · have hden : 0 < expected * (10000 - bps) := mul_pos hpos (by omega)
      have hsplit : expected * (10000 - bps) + expected * bps = expected * 10000 := by
        rw [← Nat.mul_add, Nat.sub_add_cancel hbps]
      have hnum : included * 10000 - expected * bps ≤ expected * (10000 - bps) := by omega
      rw [epochStakeCredit_of_not_below hpos hexpected hincluded hlt hbelow]
      have hle : (included * 10000 - expected * bps) * STAKE_SCORE_SCALE /
          (expected * (10000 - bps)) ≤ STAKE_SCORE_SCALE :=
        Nat.div_le_of_le_mul (Nat.mul_le_mul_right _ hnum)
      refine ⟨hle, ?_⟩
      -- the quotient is the scale iff the numerator reaches the denominator
      rw [← hle.ge_iff_eq, Nat.le_div_iff_mul_le hden, Nat.mul_comm STAKE_SCORE_SCALE,
        Nat.mul_le_mul_right_iff hscale]
      omega
    · have hfull : included = expected := by omega
      subst hfull
      have hcredit : epochStakeCredit included included 10000 = STAKE_SCORE_SCALE := by
        simp only [epochStakeCredit, hpos.ne', if_false, hbelow, min_self, if_true]
      rw [hcredit]
      exact ⟨le_rfl, iff_of_true rfl rfl⟩

/-- The four tests agree on every stake, nothing they compute is cut, the subtraction of the credit
does not go below zero, and the credit is the full scale at full inclusion only. -/
theorem quality_floor_tests_agree (hpos : 0 < expected) (hexpected : expected ≤ U64_MAX)
    (hincluded : included ≤ expected) (hbps : bps ≤ 10000) (epoch : ℕ) :
    (epochMeetsQualityFloor included expected bps = true ↔
        requiredStakeForQualityFloor expected bps ≤ included) ∧
      (epochMeetsQualityFloor included expected bps = true ↔
        bps ≤ (⟨epoch, included, expected⟩ : EpochStakeTally).fracBps) ∧
      (epochMeetsQualityFloor included expected bps = true ↔
        ¬ creditBelowFloor included expected bps) ∧
      NoOverflow included expected bps ∧
      (¬ creditBelowFloor included expected bps → expected * bps ≤ included * 10000) ∧
      epochStakeCredit included expected bps ≤ STAKE_SCORE_SCALE ∧
      (epochStakeCredit included expected bps = STAKE_SCORE_SCALE ↔ included = expected) := by
  obtain ⟨hmeets, hrequired, hfrac, hcredit⟩ := tests_iff hpos hexpected hincluded hbps
  refine ⟨?_, ?_, ?_, noOverflow hexpected hincluded hbps, hcredit.mp,
    credit_le_scale hpos hexpected hincluded hbps⟩
  · rw [hmeets, hrequired]
  · rw [hmeets, hfrac epoch]
  · rw [hmeets, hcredit]

/-- One sompi below the rounded-up floor is below it for every test. -/
theorem quality_floor_tests_agree_below :
    requiredStakeForQualityFloor 10 6667 = 7 ∧
      epochMeetsQualityFloor 6 10 6667 = false ∧
      (⟨0, 6, 10⟩ : EpochStakeTally).fracBps < 6667 ∧ creditBelowFloor 6 10 6667 := by
  obtain ⟨hrequired, hfrac, hcredit, -⟩ :=
    @quality_floor_tests_agree 6 10 6667 (by decide) (by decide) (by decide) (by decide) 0
  have hbelow : epochMeetsQualityFloor 6 10 6667 = false := by decide
  rw [hbelow] at hfrac hcredit
  refine ⟨by decide, hbelow, ?_, ?_⟩
  · exact not_le.mp fun h => Bool.noConfusion (hfrac.mpr h)
  · exact not_not.mp fun h => Bool.noConfusion (hcredit.mpr h)

variable {delta accumulated count : ℕ} {stakes : List ℕ}

/-- The loop stops at the shortest prefix that brings the stake to the required amount, and goes
through all stakes if there is none. -/
theorem accumulateStakes_spec (hdelta : delta ≤ U64_MAX) (hbelow : accumulated < delta) :
    ∃ total k, accumulateStakes delta accumulated count stakes = (total, count + k) ∧
      k ≤ stakes.length ∧ (delta ≤ total ↔ delta ≤ accumulated + stakes.sum) ∧
      (∀ j < k, accumulated + (stakes.take j).sum < delta) ∧
      (delta ≤ accumulated + stakes.sum → delta ≤ accumulated + (stakes.take k).sum) := by
  induction stakes generalizing accumulated count with
  | nil =>
    refine ⟨accumulated, 0, rfl, le_rfl, by simp, by simp, fun h => ?_⟩
    simpa using h
  | cons stake stakes ih =>
    by_cases hstop : delta ≤ min (accumulated + stake) U64_MAX
    · refine ⟨min (accumulated + stake) U64_MAX, 1, ?_, by simp, ?_, ?_, ?_⟩
      · simp [accumulateStakes, hstop]
      · refine iff_of_true hstop ?_
        rw [sum_cons]
        omega
      · intro j hj
        obtain rfl : j = 0 := by omega
        simpa using hbelow
      · intro _
        rw [take_succ_cons, take_zero, sum_cons, sum_nil]
        omega
    · -- below the required amount the sum has not saturated
      have hnext : min (accumulated + stake) U64_MAX = accumulated + stake := by omega
      rw [hnext] at hstop
      obtain ⟨total, k, hrun, hk, htotal, hshorter, hreach⟩ :=
        @ih (accumulated + stake) (count + 1) (not_le.mp hstop)
      refine ⟨total, k + 1, ?_, by simpa using hk, ?_, ?_, ?_⟩
      · rw [accumulateStakes, hnext, if_neg hstop, hrun, add_assoc, add_comm 1 k]
      · rw [htotal, sum_cons, add_assoc]
      · intro j hj
        cases j with
        | zero => simpa using hbelow
        | succ j =>
          have := hshorter j (by omega)
          rw [take_succ_cons, sum_cons]
          omega
      · intro h
        rw [sum_cons] at h
        rw [take_succ_cons, sum_cons]
        omega

/-- Some `n` of the remaining validators have the missing stake. -/
def Reachable (remaining : Multiset ℕ) (delta n : ℕ) : Prop :=
  ∃ chosen ≤ remaining, chosen.card = n ∧ delta ≤ chosen.sum

theorem exists_subperm_of_reachable {n : ℕ} (h : Reachable remaining delta n) :
    ∃ s : List ℕ, s.Subperm (sortBy OrderDual.toDual (remaining.filter (0 < ·))) ∧
      s.length ≤ n ∧ delta ≤ s.sum := by
  obtain ⟨chosen, hle, rfl, hsum⟩ := h
  obtain ⟨s, rfl⟩ := Quot.exists_rep chosen
  have hs : s.Subperm remaining := Multiset.coe_le.mp hle
  refine ⟨s.filter (0 < ·), ?_, length_filter_le _ _, ?_⟩
  · exact (hs.filter _).trans (sortBy_perm _ _).symm.subperm
  · have hpositive : (s.filter (0 < ·)).sum = s.sum := by
      clear hle hsum hs
      induction s with
      | nil => rfl
      | cons a s ih =>
        rcases eq_zero_or_pos a with rfl | ha
        · simpa using ih
        · simp [ha, ih]
    rwa [hpositive]

theorem reachable_of_subperm {s : List ℕ}
    (hs : s.Subperm (sortBy OrderDual.toDual (remaining.filter (0 < ·)))) (hsum : delta ≤ s.sum) :
    Reachable remaining delta s.length := by
  refine ⟨s, Multiset.coe_le.mpr ?_, rfl, hsum⟩
  exact (hs.trans (sortBy_perm _ _).subperm).trans (filter_sublist).subperm

theorem sorted_stakes (l : List ℕ) : (sortBy OrderDual.toDual l).Pairwise (· ≥ ·) :=
  (sortBy_pairwise OrderDual.toDual l).imp fun h => OrderDual.toDual_le_toDual.mp h

/-- What the loop counts is the least number of validators that reach the required amount, and it
reaches it if any validators do. -/
theorem accumulateStakes_isLeast {total k : ℕ} (hpos : 0 < delta) (hdelta : delta ≤ U64_MAX)
    (hrun : accumulateStakes delta 0 0 (sortBy OrderDual.toDual (remaining.filter (0 < ·))) =
      (total, k)) :
    (delta ≤ total ↔ ∃ n, Reachable remaining delta n) ∧
      (delta ≤ total → IsLeast {n | Reachable remaining delta n} k) := by
  obtain ⟨total', k', hrun', hk, htotal, hshorter, hreach⟩ :=
    @accumulateStakes_spec delta 0 0 (sortBy OrderDual.toDual (remaining.filter (0 < ·)))
      hdelta hpos
  rw [hrun, zero_add] at hrun'
  cases hrun'
  simp only [zero_add] at htotal hshorter hreach
  have hleast : delta ≤ total → IsLeast {n | Reachable remaining delta n} k := by
    intro h
    obtain ⟨⟨s, hs, hlength, hsum⟩, hmin⟩ :=
      isLeast_length_of_take (sorted_stakes _) hk (hreach (htotal.mp h)) hshorter
    refine ⟨?_, fun n hn => ?_⟩
    · have hmem := reachable_of_subperm hs hsum
      rwa [hlength] at hmem
    · obtain ⟨s', hs', hle, hsum'⟩ := exists_subperm_of_reachable hn
      exact (hmin ⟨s', hs', rfl, hsum'⟩).trans hle
  refine ⟨⟨fun h => ⟨k, (hleast h).1⟩, fun ⟨n, hn⟩ => ?_⟩, hleast⟩
  obtain ⟨s, hs, -, hsum⟩ := exists_subperm_of_reachable hn
  refine htotal.mpr (hsum.trans ((sum_le_sum_take (sorted_stakes _) hs).trans ?_))
  exact (take_sublist _ _).sum_le_sum fun _ _ => Nat.zero_le _

theorem shards_fit_iff {k shardMass maxBlockMass : ℕ} (hshard : 0 < shardMass) :
    (k = 0 ∨ 0 < shardMass ∧ k ≤ maxBlockMass / shardMass ∧
      min (k * shardMass) U64_MAX ≤ maxBlockMass) ↔ k * shardMass ≤ maxBlockMass := by
  rw [Nat.le_div_iff_mul_le hshard]
  constructor
  · rintro (rfl | ⟨-, hfit, -⟩)
    · rw [zero_mul]
      exact Nat.zero_le _
    · exact hfit
  · intro hfit
    exact .inr ⟨hshard, hfit, (min_le_left _ _).trans hfit⟩

/-- The capacity check is exact: it passes if and only if some of the remaining validators have the
missing stake and their shards fit into the block, and it counts the least number that has it. -/
theorem mandatory_capacity_exact (remaining : List ℕ)
    (expectedStake includedStake qualityFloorBps maxBlockMass : ℕ) {shardMass : ℕ}
    (hshard : 0 < shardMass) :
    let capacity := mandatoryAttestationMassCapacity remaining expectedStake includedStake
      qualityFloorBps maxBlockMass shardMass
    (capacity.fits = true ↔ ∃ n, Reachable remaining capacity.requiredStakeDelta n ∧
      n * shardMass ≤ maxBlockMass) ∧
    ((∃ n, Reachable remaining capacity.requiredStakeDelta n) →
      IsLeast {n | Reachable remaining capacity.requiredStakeDelta n}
        capacity.requiredValidatorCount) := by
  have hdelta : requiredStakeForQualityFloor expectedStake qualityFloorBps - includedStake ≤
      U64_MAX := (Nat.sub_le _ _).trans (min_le_right _ _)
  simp only [mandatoryAttestationMassCapacity, shards_fit_iff hshard, decide_eq_true_eq]
  generalize requiredStakeForQualityFloor expectedStake qualityFloorBps - includedStake = delta
    at hdelta ⊢
  generalize hrun : (if 0 < delta then _ else ((0, 0) : ℕ × ℕ)) = run
  obtain ⟨total, k⟩ := run
  -- with nothing missing no validator is needed
  have hloop : (delta ≤ total ↔ ∃ n, Reachable remaining delta n) ∧
      (delta ≤ total → IsLeast {n | Reachable remaining delta n} k) := by
    rcases eq_zero_or_pos delta with rfl | hpos
    · cases hrun
      have hnone : Reachable remaining 0 0 := ⟨0, Multiset.zero_le _, rfl, le_rfl⟩
      exact ⟨iff_of_true le_rfl ⟨0, hnone⟩, fun _ => ⟨hnone, fun _ _ => Nat.zero_le _⟩⟩
    · rw [if_pos hpos] at hrun
      exact accumulateStakes_isLeast hpos hdelta hrun
  obtain ⟨hreach, hleast⟩ := hloop
  refine ⟨?_, fun h => hleast (hreach.mpr h)⟩
  constructor
  · rintro ⟨htotal, hmass⟩
    exact ⟨k, (hleast (htotal.elim (· ▸ Nat.zero_le _) id)).1, hmass⟩
  · rintro ⟨n, hn, hmass⟩
    have htotal := hreach.mpr ⟨n, hn⟩
    exact ⟨.inr htotal, (Nat.mul_le_mul_right _ ((hleast htotal).2 hn)).trans hmass⟩

/-- Of four validators the two largest have two thirds of the stake, and their shards fit. -/
theorem mandatory_capacity_exact_two :
    let capacity := mandatoryAttestationMassCapacity [10, 0, 40, 50] 100 0 6700 5000 2000
    capacity.fits = true ∧
      IsLeast {n | Reachable [10, 0, 40, 50] 67 n} capacity.requiredValidatorCount := by
  have hreach : Reachable [10, 0, 40, 50] 67 2 := ⟨[40, 50], by decide, by decide, by decide⟩
  obtain ⟨hfits, hleast⟩ :=
    mandatory_capacity_exact [10, 0, 40, 50] 100 0 6700 5000 (show 0 < 2000 by decide)
  exact ⟨hfits.mpr ⟨2, hreach, by decide⟩, hleast ⟨2, hreach⟩⟩

end Misaka.Dns
