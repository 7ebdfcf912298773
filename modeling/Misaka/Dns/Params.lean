import Misaka.Chain.Transaction

/-!
# Overlay parameters

The per-network parameters of the DNS overlay that its consensus rules read (`DnsParams`,
`RewardParams`, `FeeSplitParams`).
-/

namespace Misaka.Dns

structure FeeSplitParams where
  subsidyWorkerBaseBps : ℕ
  subsidyWorkerInclusionBps : ℕ
  subsidyValidatorBps : ℕ
  subsidyServiceBps : ℕ
  normalFeeWorkerBps : ℕ
  normalFeeValidatorBps : ℕ
  normalFeeServiceBps : ℕ
  finalityFeeValidatorBps : ℕ
  finalityFeeWorkerBps : ℕ
  finalityFeeServiceBps : ℕ
  deriving DecidableEq, Repr, Inhabited

structure RewardParams where
  slashingReporterRewardBps : ℕ
  validatorParticipationBps : ℕ
  feeSplit : FeeSplitParams
  feeSplitBootstrap : FeeSplitParams
  securityReserveBps : ℕ
  victimEpochPoolBps : ℕ
  reserveDripPerEpochCapSompi : ℕ
  deriving DecidableEq, Repr, Inhabited

inductive DnsReorgMode where
  | hardCheckpoint
  | twoDimensionalDominance
  deriving DecidableEq, Repr, Inhabited

structure DnsParams where
  dnsActivationDaaScore : ℕ
  minActiveStakeSompi : ℕ
  minActiveValidators : ℕ
  minBondAmountSompi : ℕ
  epochLengthBlocks : ℕ
  requiredWorkDepth : ℕ
  requiredStakeDepth : ℕ
  emergencyWorkMargin : ℕ
  emergencyStakeMargin : ℕ
  maxReorgHorizonBlocks : ℕ
  evidenceWindowBlocks : ℕ
  unbondingPeriodBlocks : ℕ
  rewardUniquenessWindowBlocks : ℕ
  stakeEventQualityFloorBps : ℕ
  rewardParams : RewardParams
  reorgMode : DnsReorgMode
  fullRewardSplitDaaScore : ℕ
  posV2ActivationDaaScore : ℕ
  attestationEpochLengthBlueScore : ℕ
  attestationLagBlueScore : ℕ
  attestationAnchorBackoffBlueScore : ℕ
  stakeScoreWindowBlueScore : ℕ
  finalityFeeActivationDaaScore : ℕ
  bondSpendGateMergesetActivationDaaScore : ℕ
  mandatoryAttestationInclusionDaaScore : ℕ
  maxAttestationShardMass : ℕ
  degradedStakeQualityEpochs : ℕ
  dormancyActivationDaaScore : ℕ
  dormancyWindowEpochs : ℕ
  dormancyEvictPeriodEpochs : ℕ
  dormancyEvictLimitBps : ℕ
  dormancyRevivalDelayEpochs : ℕ
  deriving DecidableEq, Repr, Inhabited

def DnsParams.rewardFeeSplit (p : DnsParams) (daaScore : ℕ) : Option FeeSplitParams :=
  if daaScore < p.dnsActivationDaaScore then none
  else if p.fullRewardSplitDaaScore ≤ daaScore then some p.rewardParams.feeSplit
  else some p.rewardParams.feeSplitBootstrap

end Misaka.Dns
