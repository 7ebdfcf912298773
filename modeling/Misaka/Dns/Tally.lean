import Mathlib.Data.List.Dedup
import Mathlib.Data.List.Sort
import Misaka.Dns.Bond
import Misaka.Dns.Rewards

/-!
# Epoch tallies and deferred payouts

`recompute_epoch_tallies` rebuilds, from a window of selected-chain blocks, who was rewarded in each
epoch, how much stake was expected and how large the quality pool grew. A block that buries an epoch
beyond the finalization depth pays its quality bonus and drips the security reserve to it.
-/

namespace Misaka.Dns

open Misaka.Core

structure BlockEpochContribution where
  blockDaaScore : ℕ
  rewardedKeys : List (TransactionOutpoint × ℕ)
  qualitySubpool : ℕ
  deriving DecidableEq, Repr

structure EpochTally where
  expectedStake : ℕ
  included : List (Hash64 × ℕ)
  qualityPoolAccrued : ℕ
  finalized : Bool
  deriving DecidableEq, Repr

section Recompute

variable (epochLen : ℕ) (contributions : List BlockEpochContribution)
  (bonds : List StakeBondRecord)

def bondByOutpoint (o : TransactionOutpoint) : Option StakeBondRecord :=
  bonds.reverse.find? (·.bondOutpoint = o)

def includedBonds (epoch : ℕ) : List StakeBondRecord :=
  (contributions.flatMap (·.rewardedKeys)).filterMap fun k =>
    if k.2 = epoch then bondByOutpoint bonds k.1 else none

def qualityAccrued (epoch : ℕ) : ℕ :=
  satSum U128_MAX ((contributions.filter (·.blockDaaScore / epochLen = epoch)).map
    (·.qualitySubpool))

def expectedStakeAt (anchorDaa : ℕ) : ℕ :=
  satSum U128_MAX ((bonds.filter (isBondActiveAt · anchorDaa)).map (·.amount))

def touchedEpochs : List ℕ :=
  (contributions.flatMap fun c => c.blockDaaScore / epochLen ::
    (c.rewardedKeys.filter fun k => (bondByOutpoint bonds k.1).isSome).map
      Prod.snd).dedup.insertionSort (· ≤ ·)

def epochAnchorDaa (epoch : ℕ) : ℕ := min (epoch * epochLen) U64_MAX

/-- The tallies of all epochs the window touches. -/
def recomputeEpochTallies (sinkDaaScore epochLengthBlocks finalizationDepth : ℕ) :
    List (ℕ × EpochTally) :=
  let epochLen := max epochLengthBlocks 1
  (touchedEpochs epochLen contributions bonds).map fun epoch =>
    (epoch,
      { expectedStake := expectedStakeAt bonds (epochAnchorDaa epochLen epoch)
        included := (includedBonds contributions bonds epoch).map fun b =>
          (b.ownerRewardSpkPayload, b.amount)
        qualityPoolAccrued := qualityAccrued epochLen contributions epoch
        finalized := decide (min (min (min (epoch + 1) U64_MAX * epochLen) U64_MAX +
          finalizationDepth) U64_MAX ≤ sinkDaaScore) })

end Recompute

/-- The range of epochs whose finalization threshold lies in `(parentDaa, daaScore]`. -/
def epochsFinalizedAt (parentDaa daaScore epochLengthBlocks finalizationDepth : ℕ) :
    Option (ℕ × ℕ) :=
  let epochLen := max epochLengthBlocks 1
  if daaScore < finalizationDepth then none
  else
    let mMax := (daaScore - finalizationDepth) / epochLen
    if mMax = 0 then none
    else
      let mMin := max (if parentDaa < finalizationDepth then 1
        else min ((parentDaa - finalizationDepth) / epochLen + 1) U64_MAX) 1
      if mMax < mMin then none else some (mMin - 1, mMax - 1)

section Payouts

variable (params : DnsParams)

def finalizationDepth : ℕ :=
  min (params.rewardUniquenessWindowBlocks + params.maxReorgHorizonBlocks) U64_MAX

/-- What a block reads to settle the epochs it finalizes: its own score and its parent's, the
contributions in the selected parent's window, and the parent's bond rows. -/
structure SettlementInput where
  daaScore : ℕ
  parentDaaScore : ℕ
  contributions : List BlockEpochContribution
  bonds : List StakeBondRecord

def SettlementInput.tallies (b : SettlementInput) : List (ℕ × EpochTally) :=
  recomputeEpochTallies b.contributions b.bonds b.daaScore (max params.epochLengthBlocks 1)
    (finalizationDepth params)

def SettlementInput.finalized (b : SettlementInput) : Option (ℕ × ℕ) :=
  epochsFinalizedAt b.parentDaaScore b.daaScore (max params.epochLengthBlocks 1)
    (finalizationDepth params)

def epochBonusOutputs (tally : EpochTally) : List TransactionOutput :=
  let includedSum := (tally.included.map Prod.snd).sum
  validatorQualityBonusOutputs tally.qualityPoolAccrued tally.included tally.expectedStake
    (epochMeetsQualityFloor includedSum tally.expectedStake params.stakeEventQualityFloorBps)

/-- The bonus of the settled epochs. -/
def deferredQualityBonusOutputs (b : SettlementInput) : List TransactionOutput :=
  if b.daaScore < params.posV2ActivationDaaScore then []
  else
    match b.finalized params with
    | none => []
    | some (eMin, eMax) =>
      (b.tallies params).flatMap fun t =>
        if t.1 < eMin ∨ eMax < t.1 then [] else epochBonusOutputs params t.2

structure DripState where
  outputs : List TransactionOutput
  remaining : ℕ
  totalDrip : ℕ

def dripStep (cap eMin eMax : ℕ) (s : DripState) (t : ℕ × EpochTally) : DripState :=
  if t.1 < eMin ∨ eMax < t.1 ∨ s.remaining = 0 then s
  else
    let budget := min s.remaining cap
    if budget = 0 then s
    else
      let drip := validatorQualityBonusOutputs budget t.2.included t.2.expectedStake true
      let minted := satSum U64_MAX (drip.map (·.value))
      { outputs := s.outputs ++ drip
        remaining := s.remaining - minted
        totalDrip := min (s.totalDrip + minted) U64_MAX }

/-- What the reserve pays for the settled epochs. -/
def reserveDripOutputs (b : SettlementInput) (parentBalance : ℕ) : List TransactionOutput × ℕ :=
  let cap := params.rewardParams.reserveDripPerEpochCapSompi
  if b.daaScore < params.posV2ActivationDaaScore ∨ parentBalance = 0 ∨ cap = 0 then ([], 0)
  else
    match b.finalized params with
    | none => ([], 0)
    | some (eMin, eMax) =>
      let s := (b.tallies params).foldl (dripStep cap eMin eMax) ⟨[], parentBalance, 0⟩
      (s.outputs, s.totalDrip)

end Payouts

end Misaka.Dns
