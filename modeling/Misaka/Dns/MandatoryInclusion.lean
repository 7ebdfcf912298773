import Misaka.Dns.Authorization
import Misaka.Dns.Listings

/-!
# Mandatory inclusion of attestations

The optional rule by which a block must bring the oldest under-attested epoch to its quality floor,
out of what its selected parent's chain already credited, what the block accepts and what its own
body carries (`check_mandatory_attestation_inclusion`).
-/

namespace Misaka.Dns

open Misaka.Core

def requiredStakeForQualityFloor (expectedStake qualityFloorBps : ℕ) : ℕ :=
  min (min (min (expectedStake * qualityFloorBps) U128_MAX + 9999) U128_MAX / 10000) U64_MAX

structure MandatoryAttestationMassCapacity where
  expectedStake : ℕ
  includedStake : ℕ
  requiredStake : ℕ
  requiredStakeDelta : ℕ
  requiredValidatorCount : ℕ
  requiredShardCount : ℕ
  maxShardCountByMass : ℕ
  requiredMass : ℕ
  maxBlockMass : ℕ
  fits : Bool
  deriving DecidableEq, Repr

def accumulateStakes (delta : ℕ) : ℕ → ℕ → List ℕ → ℕ × ℕ
  | accumulated, count, [] => (accumulated, count)
  | accumulated, count, stake :: stakes =>
    let accumulated' := min (accumulated + stake) U64_MAX
    if delta ≤ accumulated' then (accumulated', count + 1)
    else accumulateStakes delta accumulated' (count + 1) stakes

/-- The mass the largest missing stakes need. -/
def mandatoryAttestationMassCapacity (remainingStakes : List ℕ)
    (expectedStake includedStake qualityFloorBps maxBlockMass maxAttestationShardMass : ℕ) :
    MandatoryAttestationMassCapacity :=
  let stakes := sortBy OrderDual.toDual (remainingStakes.filter (0 < ·))
  let requiredStake := requiredStakeForQualityFloor expectedStake qualityFloorBps
  let delta := requiredStake - includedStake
  let (accumulated, count) := if 0 < delta then accumulateStakes delta 0 0 stakes else (0, 0)
  let requiredMass := min (count * maxAttestationShardMass) U64_MAX
  -- a division by zero is zero, as the source spells out
  let maxShardCountByMass := maxBlockMass / maxAttestationShardMass
  { expectedStake := expectedStake
    includedStake := includedStake
    requiredStake := requiredStake
    requiredStakeDelta := delta
    requiredValidatorCount := count
    requiredShardCount := count
    maxShardCountByMass := maxShardCountByMass
    requiredMass := requiredMass
    maxBlockMass := maxBlockMass
    fits := (delta = 0 ∨ delta ≤ accumulated) ∧ (count = 0 ∨ 0 < maxAttestationShardMass ∧
      count ≤ maxShardCountByMass ∧ requiredMass ≤ maxBlockMass) }

structure AttestationContribution where
  epoch : ℕ
  validatorId : Hash64
  bondOutpoint : TransactionOutpoint
  signedStakeSompi : ℕ
  deriving DecidableEq, Repr

abbrev ContributionKey := TransactionOutpoint × Hash64 × ℕ

def AttestationContribution.key (c : AttestationContribution) : ContributionKey :=
  (c.bondOutpoint, c.validatorId, c.epoch)

def StakeAttestation.key (att : StakeAttestation) : ContributionKey :=
  (att.bondOutpoint, att.validatorId, att.epoch)

def StakeAttestation.names (att : StakeAttestation) (anchor : CanonicalLaggedEpochAnchor) : Bool :=
  att.targetHash == anchor.anchorHash && att.targetDaaScore == anchor.anchorDaaScore

/-- What `collect_stake_contributions_v2` returns. -/
structure StakeContributions where
  contributions : List AttestationContribution
  epochAnchorDaa : List (ℕ × ℕ)
  revivalSignals : List (TransactionOutpoint × ℕ)

section Rule

variable (P : Primitives) (params : DnsParams) (netId : BlockHash)

/-- The status under which an attestation counts: the bond must exist, the validator be its own, the
status be active or dormant and the signature verify. -/
def creditedStatus (bonds : List StakeBondRecord) (anchor : CanonicalLaggedEpochAnchor)
    (att : StakeAttestation) : Option (StakeBondRecord × BondStatus) :=
  match bonds.find? (·.bondOutpoint = att.bondOutpoint) with
  | none => none
  | some bond =>
    let status := effectiveBondStatus bond anchor.anchorDaaScore
    if att.validatorId = bond.validatorPubkeyHash ∧ (status = .active ∨ status = .dormant) ∧
        attestationVerifies P netId bond att then some (bond, status)
    else none

/-- The body of `collect_stake_contributions_v2` over given anchors and walked blocks. -/
def contributionsOf (acceptedTxs : BlockHash → List Transaction)
    (creditable : List (ℕ × CanonicalLaggedEpochAnchor)) (walked : List HeaderRow)
    (bonds : List StakeBondRecord) : StakeContributions :=
  let credited := (walked.flatMap fun r => attestationsFromAcceptedTxs P (acceptedTxs r.hash))
    |>.filterMap fun att =>
      match creditable.lookup att.epoch with
      | none => none
      | some anchor =>
        if att.names anchor then (creditedStatus P netId bonds anchor att).map (att, ·) else none
  { contributions := credited.filterMap fun c =>
      if c.2.2 = .active then
        some ⟨c.1.epoch, c.1.validatorId, c.1.bondOutpoint, c.2.1.amount⟩
      else none
    epochAnchorDaa := creditable.map fun a => (a.1, a.2.anchorDaaScore)
    revivalSignals := credited.filterMap fun c =>
      if c.2.2 = .active then none else some (c.1.bondOutpoint, c.1.epoch) }

/-- `collect_stake_contributions_v2` along a whole selected chain, with the transactions each of its
blocks accepted. -/
def collectStakeContributionsV2 (chain : List HeaderRow)
    (acceptedTxs : BlockHash → List Transaction) (bonds : List StakeBondRecord) :
    StakeContributions :=
  let tipBlue := (chain.head?.map (·.blueScore)).getD 0
  let walked := chain.takeWhile fun r =>
    decide (tipBlue - r.blueScore ≤ params.stakeScoreWindowBlueScore)
  contributionsOf P netId acceptedTxs (canonicalAnchorsInWindow params chain) walked bonds

structure InclusionCount where
  seen : List ContributionKey
  combined : ℕ

/-- The loop body shared by the two counting loops. A key is spent by its first attestation, whether
or not that one verifies. -/
def countAttestation (bonds : List StakeBondRecord) (seenParent : List ContributionKey) (epoch : ℕ)
    (anchor : CanonicalLaggedEpochAnchor) (s : InclusionCount) (att : StakeAttestation) :
    InclusionCount :=
  if att.epoch ≠ epoch ∨ !att.names anchor then s
  else if att.key ∈ seenParent ∨ att.key ∈ s.seen then s
  else
    let s := { s with seen := att.key :: s.seen }
    match bondByOutpoint bonds att.bondOutpoint with
    | none => s
    | some bond =>
      if att.validatorId ≠ bond.validatorPubkeyHash ∨ !isBondActiveAt bond anchor.anchorDaaScore
      then s
      else if attestationVerifies P netId bond att then
        { s with combined := min (s.combined + bond.amount) U64_MAX }
      else s

def includedByEpoch (contributions : List AttestationContribution) (epoch : ℕ) : ℕ :=
  satSum U64_MAX (((firstBy (·.key) [] contributions).filter (·.epoch = epoch)).map
    (·.signedStakeSompi))

/-- The loop over the creditable epochs, oldest first: it decides on the first epoch below its
floor, and gives up when the active set could not reach a floor in one block. -/
def checkEpochs (maxBlockMass : ℕ) (bonds : List StakeBondRecord)
    (contributions : List AttestationContribution) (candidate body : List StakeAttestation) :
    List (ℕ × CanonicalLaggedEpochAnchor) → Except RuleError Unit
  | [] => .ok ()
  | (epoch, anchor) :: rest =>
    let next := checkEpochs maxBlockMass bonds contributions candidate body rest
    let active := bonds.filter (isBondActiveAt · anchor.anchorDaaScore)
    let expected := satSum U64_MAX (active.map (·.amount))
    let floor := params.stakeEventQualityFloorBps
    let seenParent := contributions.map (·.key)
    let count := countAttestation P netId bonds seenParent epoch anchor
    if expected = 0 ∨ expected < params.minActiveStakeSompi then next
    else if active.length % 2 ^ 32 < params.minActiveValidators then next
    else if !(mandatoryAttestationMassCapacity (active.map (·.amount)) expected 0 floor maxBlockMass
        params.maxAttestationShardMass).fits then .ok ()
    else
      let parentIncluded := includedByEpoch contributions epoch
      if epochMeetsQualityFloor parentIncluded expected floor then next
      else
        let accepted := candidate.foldl count ⟨[], parentIncluded⟩
        if epochMeetsQualityFloor accepted.combined expected floor then next
        else
          let own := body.foldl count accepted
          if epochMeetsQualityFloor own.combined expected floor then .ok ()
          else .error (.missingMandatoryAttestationInBlock epoch own.combined expected floor)

/-- The inclusion rule, for every anchored epoch. -/
def checkMandatoryAttestationInclusion (dnsParams : Option DnsParams) (maxBlockMass : ℕ)
    (chain : List HeaderRow) (acceptedTxs : BlockHash → List Transaction)
    (bonds : List StakeBondRecord) (txs candidateAcceptedTxs : List Transaction) (daaScore : ℕ) :
    Except RuleError Unit :=
  match dnsParams with
  | none => .ok ()
  | some params =>
    if daaScore < params.dnsActivationDaaScore ∨
        daaScore < params.mandatoryAttestationInclusionDaaScore ∨ !params.dnsV3ParamsConsistent
    then .ok ()
    else checkEpochs P params netId maxBlockMass bonds
      (collectStakeContributionsV2 P params netId chain acceptedTxs bonds).contributions
      (attestationsFromAcceptedTxs P candidateAcceptedTxs) (attestationsFromAcceptedTxs P txs)
      (canonicalAnchorsInWindow params chain).reverse

end Rule

end Misaka.Dns
