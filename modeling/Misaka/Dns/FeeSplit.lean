import Misaka.Dns.Rewards

/-!
# Subsidy and fee splits

The splits of `consensus/core/src/dns_finality.rs` that size the worker, validator and service parts
of one source block, and `premium_split` of `consensus/core/src/palw_premium.rs`. In each split one
recipient takes the rest.
-/

namespace Misaka.Dns

def PALW_PROVIDER_BASE_BPS : ℕ := 7700
def PALW_INCLUSION_BPS : ℕ := 800
def PALW_VALIDATOR_BPS : ℕ := 1500

def FeeSplitParams.palwLane (p : FeeSplitParams) : FeeSplitParams :=
  { p with
    subsidyWorkerBaseBps := PALW_PROVIDER_BASE_BPS
    subsidyWorkerInclusionBps := PALW_INCLUSION_BPS
    subsidyValidatorBps := PALW_VALIDATOR_BPS
    subsidyServiceBps := 0 }

structure SubsidySplit where
  workerBaseSompi : ℕ
  workerInclusionSompi : ℕ
  validatorSompi : ℕ
  serviceSompi : ℕ
  deriving DecidableEq, Repr

structure FeeSplit where
  workerSompi : ℕ
  validatorSompi : ℕ
  serviceSompi : ℕ
  deriving DecidableEq, Repr

def bpsShare (amount bps : ℕ) : ℕ := min (amount * min bps 10000) U128_MAX / 10000 % 2 ^ 64

/-- The worker's base takes what the shares leave. -/
def splitBlockSubsidy (subsidy : ℕ) (p : FeeSplitParams) : SubsidySplit :=
  let inclusion := min (bpsShare subsidy p.subsidyWorkerInclusionBps) subsidy
  let validator := min (bpsShare subsidy p.subsidyValidatorBps) (subsidy - inclusion)
  let service := min (bpsShare subsidy p.subsidyServiceBps) (subsidy - inclusion - validator)
  { workerBaseSompi := subsidy - inclusion - validator - service
    workerInclusionSompi := inclusion
    validatorSompi := validator
    serviceSompi := service }

def splitNormalTxFees (fees : ℕ) (p : FeeSplitParams) : FeeSplit :=
  let validator := min (bpsShare fees p.normalFeeValidatorBps) fees
  let service := min (bpsShare fees p.normalFeeServiceBps) (fees - validator)
  { workerSompi := fees - validator - service
    validatorSompi := validator
    serviceSompi := service }

def splitFinalityFees (fees : ℕ) (p : FeeSplitParams) : FeeSplit :=
  let worker := min (bpsShare fees p.finalityFeeWorkerBps) fees
  let service := min (bpsShare fees p.finalityFeeServiceBps) (fees - worker)
  { workerSompi := worker
    validatorSompi := fees - worker - service
    serviceSompi := service }

def splitBlockReward (subsidy totalFees finalityFees : ℕ) (p : FeeSplitParams) : FeeSplit :=
  let finality := min finalityFees totalFees
  let s := splitBlockSubsidy subsidy p
  let f := splitNormalTxFees (totalFees - finality) p
  let d := splitFinalityFees finality p
  { workerSompi := min (min (min (s.workerBaseSompi + s.workerInclusionSompi) U64_MAX +
      f.workerSompi) U64_MAX + d.workerSompi) U64_MAX
    validatorSompi := min (min (s.validatorSompi + f.validatorSompi) U64_MAX +
      d.validatorSompi) U64_MAX
    serviceSompi := min (min (s.serviceSompi + f.serviceSompi) U64_MAX +
      d.serviceSompi) U64_MAX }

/-- The first provider, each replica, and a rest. -/
def premiumSplit (base replicaCount piBps : ℕ) : ℕ × ℕ × ℕ :=
  let m := max replicaCount 1
  let a := base * PALW_PREMIUM_BPS_ONE / (PALW_PREMIUM_BPS_ONE + m * piBps)
  let perB := (base - a) / m
  (a, perB, base - a - perB * m)

def STAKE_SCORE_SCALE : ℕ := 1000000000

/-- A share by new stake, and a bonus at the floor. -/
def workerInclusionBounty (pool newlyIncludedStake expectedStake urgencyMultiplierScaled : ℕ)
    (crossedQualityFloor : Bool) (qualityGateBonus : ℕ) : ℕ :=
  let base := proportionalShare pool newlyIncludedStake expectedStake
  let urgent := min (base * urgencyMultiplierScaled) U128_MAX / STAKE_SCORE_SCALE
  if crossedQualityFloor then min (urgent + qualityGateBonus) U128_MAX else urgent

theorem splitBlockSubsidy_sum (subsidy : ℕ) (p : FeeSplitParams) :
    (splitBlockSubsidy subsidy p).workerBaseSompi +
      (splitBlockSubsidy subsidy p).workerInclusionSompi +
      (splitBlockSubsidy subsidy p).validatorSompi +
      (splitBlockSubsidy subsidy p).serviceSompi = subsidy := by
  simp only [splitBlockSubsidy]
  omega

theorem splitNormalTxFees_sum (fees : ℕ) (p : FeeSplitParams) :
    (splitNormalTxFees fees p).workerSompi + (splitNormalTxFees fees p).validatorSompi +
      (splitNormalTxFees fees p).serviceSompi = fees := by
  simp only [splitNormalTxFees]
  omega

theorem splitFinalityFees_sum (fees : ℕ) (p : FeeSplitParams) :
    (splitFinalityFees fees p).workerSompi + (splitFinalityFees fees p).validatorSompi +
      (splitFinalityFees fees p).serviceSompi = fees := by
  simp only [splitFinalityFees]
  omega

/-- What the worker and the validators draw from one source block stays within it, with the
inclusion share counted once. -/
theorem worker_add_validator_le (subsidy totalFees finalityFees : ℕ) (p : FeeSplitParams) :
    (splitBlockSubsidy subsidy p).workerBaseSompi +
      (splitNormalTxFees (totalFees - min finalityFees totalFees) p).workerSompi +
      (splitFinalityFees (min finalityFees totalFees) p).workerSompi +
      (splitBlockSubsidy subsidy p).workerInclusionSompi +
      (splitBlockReward subsidy totalFees finalityFees p).validatorSompi ≤
    subsidy + totalFees := by
  have hs := splitBlockSubsidy_sum subsidy p
  have hf := splitNormalTxFees_sum (totalFees - min finalityFees totalFees) p
  have hd := splitFinalityFees_sum (min finalityFees totalFees) p
  have hv : (splitBlockReward subsidy totalFees finalityFees p).validatorSompi ≤
      (splitBlockSubsidy subsidy p).validatorSompi +
      (splitNormalTxFees (totalFees - min finalityFees totalFees) p).validatorSompi +
      (splitFinalityFees (min finalityFees totalFees) p).validatorSompi := by
    simp only [splitBlockReward]
    omega
  omega

theorem premiumSplit_sum (base replicaCount piBps : ℕ) :
    (premiumSplit base replicaCount piBps).1 +
      (premiumSplit base replicaCount piBps).2.1 * max replicaCount 1 +
      (premiumSplit base replicaCount piBps).2.2 = base := by
  have ha : base * PALW_PREMIUM_BPS_ONE /
      (PALW_PREMIUM_BPS_ONE + max replicaCount 1 * piBps) ≤ base := by
    refine Nat.div_le_of_le_mul ?_
    rw [Nat.mul_comm]
    exact Nat.mul_le_mul_right base (Nat.le_add_right _ _)
  have hb := Nat.div_mul_le_self
    (base - base * PALW_PREMIUM_BPS_ONE / (PALW_PREMIUM_BPS_ONE + max replicaCount 1 * piBps))
    (max replicaCount 1)
  simp only [premiumSplit]
  omega

end Misaka.Dns
