import Misaka.Chain.Utxo
import Misaka.Dns.Authorization
import Misaka.Dns.Tally

/-!
# Slashing side effects

Accepting evidence removes the bond's locked output and splits its value between the reporter, the
security reserve, the honest validators of the epoch and the burn. The split is computed from the
registry row and the removal from the live UTXO view.
-/

namespace Misaka.Dns

open Misaka.Core

structure SlashingDistribution where
  reporterRewardSompi : ℕ
  securityReserveSompi : ℕ
  victimEpochPoolSompi : ℕ
  burnedSompi : ℕ
  deriving DecidableEq, Repr

def bpsOf (amount bps : ℕ) : ℕ := min (amount * bps) U128_MAX / 10000 % 2 ^ 64

/-- Reporter, reserve and victims; the rest burns. -/
def computeSlashingDistribution (slashedAmountSompi reporterBps reserveBps victimBps : ℕ) :
    SlashingDistribution :=
  let reporter := min (bpsOf slashedAmountSompi reporterBps) slashedAmountSompi
  let reserve := min (bpsOf slashedAmountSompi reserveBps) (slashedAmountSompi - reporter)
  let victim := min (bpsOf slashedAmountSompi victimBps) (slashedAmountSompi - reporter - reserve)
  { reporterRewardSompi := reporter
    securityReserveSompi := reserve
    victimEpochPoolSompi := victim
    burnedSompi := slashedAmountSompi - reporter - reserve - victim }

def applyUnrevealReporterMinCap (d : SlashingDistribution) (floor : ℕ) : SlashingDistribution :=
  let capped := min d.reporterRewardSompi floor
  { d with
    reporterRewardSompi := capped
    burnedSompi := d.burnedSompi + (d.reporterRewardSompi - capped) }

def slashingDistributionOutput (slashedAmountSompi reporterBps reserveBps victimBps : ℕ)
    (reporterRewardSpkPayload : Hash64) (unrevealFloor : Option ℕ) :
    Option TransactionOutput × SlashingDistribution :=
  let split := computeSlashingDistribution slashedAmountSompi reporterBps reserveBps victimBps
  let dist := (unrevealFloor.map (applyUnrevealReporterMinCap split)).getD split
  (if 0 < dist.reporterRewardSompi then
      some ⟨dist.reporterRewardSompi, p2pkhMldsa87Spk reporterRewardSpkPayload⟩
    else none, dist)

structure SlashingSideEffect where
  bondOutpoint : TransactionOutpoint
  slashedAmountSompi : ℕ
  reporterOutput : Option TransactionOutput
  burnedSompi : ℕ
  slashingTxId : TransactionId
  securityReserveSompi : ℕ
  victimEpochPoolSompi : ℕ
  slashedEpoch : ℕ
  victimOutputs : List TransactionOutput
  deriving DecidableEq, Repr

structure ResolvedEvidence where
  bondOutpoint : TransactionOutpoint
  slashedAmount : ℕ
  reporterPayload : Hash64
  slashingTxId : TransactionId
  slashedEpoch : ℕ
  deriving DecidableEq, Repr

def sideEffectOf (reporterBps reserveBps victimBps : ℕ) (unrevealFloor : Option ℕ)
    (ev : ResolvedEvidence) : SlashingSideEffect :=
  let (reporterOutput, dist) := slashingDistributionOutput ev.slashedAmount reporterBps reserveBps
    victimBps ev.reporterPayload unrevealFloor
  { bondOutpoint := ev.bondOutpoint
    slashedAmountSompi := ev.slashedAmount
    reporterOutput := reporterOutput
    burnedSompi := dist.burnedSompi
    slashingTxId := ev.slashingTxId
    securityReserveSompi := dist.securityReserveSompi
    victimEpochPoolSompi := dist.victimEpochPoolSompi
    slashedEpoch := ev.slashedEpoch
    victimOutputs := [] }

def slashingSideEffectsFromEvidence (evidence : List ResolvedEvidence)
    (reporterBps reserveBps victimBps : ℕ) (unrevealFloor : Option ℕ) : List SlashingSideEffect :=
  (firstBy (·.bondOutpoint) [] evidence).map
    (sideEffectOf reporterBps reserveBps victimBps unrevealFloor)

variable (P : Primitives)

/-- The loop body of `resolve_slashing_side_effects`. -/
def resolveEvidence (bondView : ActiveBondView) (daaScore : ℕ) (tx : Transaction) :
    Option ResolvedEvidence :=
  match slashingEvidenceOf P tx with
  | none => none
  | some ev =>
    match bondView.get ev.bondOutpoint with
    | none => none
    | some bond =>
      if (effectiveBondStatus bond daaScore).isSlashable then
        some ⟨ev.bondOutpoint, bond.amount, ev.reporterRewardSpkPayload, P.transactionId tx,
          ev.attestationA.epoch⟩
      else none

/-- One effect for each bond with evidence. -/
def resolveSlashingSideEffects (txs : List Transaction) (bondView : ActiveBondView)
    (daaScore reporterBps reserveBps victimBps : ℕ) : List SlashingSideEffect :=
  slashingSideEffectsFromEvidence (txs.filterMap (resolveEvidence P bondView daaScore))
    reporterBps reserveBps victimBps none

def slashedEpochVictimOutputs (params : DnsParams) (window : SettlementInput) (slashedEpoch : ℕ)
    (slashedPayload : Option Hash64) (victimPool : ℕ) : List TransactionOutput :=
  let tallies := recomputeEpochTallies window.contributions window.bonds window.parentDaaScore
    (max params.epochLengthBlocks 1) (finalizationDepth params)
  let included := ((tallies.find? (·.1 = slashedEpoch)).map (·.2.included)).getD []
  let honest := included.filter fun v => slashedPayload ≠ some v.1
  victimCompensationOutputs victimPool honest (honest.map Prod.snd).sum

def withVictims (params : DnsParams) (window : SettlementInput) (bondView : ActiveBondView)
    (e : SlashingSideEffect) : SlashingSideEffect :=
  if e.victimEpochPoolSompi = 0 then e
  else
    { e with
      victimOutputs := slashedEpochVictimOutputs params window e.slashedEpoch
        ((bondView.get e.bondOutpoint).map (·.ownerRewardSpkPayload)) e.victimEpochPoolSompi }

def DnsParams.slashingShares (params : DnsParams) (daaScore : ℕ) : ℕ × ℕ :=
  if params.posV2ActivationDaaScore ≤ daaScore then
    (params.rewardParams.securityReserveBps, params.rewardParams.victimEpochPoolBps)
  else (0, 0)

def slashingEffects (params : DnsParams) (window : SettlementInput) (accepted : List Transaction)
    (bondView : ActiveBondView) (povDaaScore : ℕ) : List SlashingSideEffect :=
  let (reserveBps, victimBps) := params.slashingShares povDaaScore
  (resolveSlashingSideEffects P accepted bondView povDaaScore
    params.rewardParams.slashingReporterRewardBps reserveBps victimBps).map
      (withVictims params window bondView)

structure UtxoState where
  mergesetDiff : UtxoDiff
  multisetHash : MuHash

def mintUtxo (mintDaaScore : ℕ) (s : UtxoState) (o : TransactionOutpoint)
    (out : TransactionOutput) : Except UtxoAlgebraError UtxoState := do
  let entry : UtxoEntry := ⟨out.value, out.scriptPublicKey, mintDaaScore, false⟩
  let diff ← s.mergesetDiff.addEntry o entry
  return ⟨diff, s.multisetHash.addUtxo o entry⟩

def SlashingSideEffect.mints (e : SlashingSideEffect) :
    List (TransactionOutpoint × TransactionOutput) :=
  (e.reporterOutput.toList.map fun out => (⟨e.slashingTxId, 0⟩, out)) ++
    e.victimOutputs.zipIdx.map fun v => (⟨e.slashingTxId, 2 + v.2⟩, v.1)

/-- Spends the bond, if it is there, and mints the shares. -/
def applySlashingEffect (view : UtxoView) (mintDaaScore : ℕ) (s : UtxoState)
    (e : SlashingSideEffect) : Except UtxoAlgebraError UtxoState :=
  match compose view s.mergesetDiff e.bondOutpoint with
  | none => .ok s
  | some entry => do
    let diff ← s.mergesetDiff.removeEntry e.bondOutpoint entry
    let removed : UtxoState := ⟨diff, s.multisetHash.removeUtxo e.bondOutpoint entry⟩
    e.mints.foldlM (fun s m => mintUtxo mintDaaScore s m.1 m.2) removed

def applySlashingEffectsToState (effects : List SlashingSideEffect) (view : UtxoView)
    (mintDaaScore : ℕ) (s : UtxoState) : Except UtxoAlgebraError UtxoState :=
  effects.foldlM (applySlashingEffect view mintDaaScore) s

def applySlashingSideEffects (dnsParams : Option DnsParams) (window : SettlementInput)
    (accepted : List Transaction) (bondView : ActiveBondView) (view : UtxoView) (povDaaScore : ℕ)
    (s : UtxoState) : Except UtxoAlgebraError (UtxoState × ℕ) :=
  match dnsParams with
  | none => .ok (s, 0)
  | some params =>
    if povDaaScore < params.dnsActivationDaaScore then .ok (s, 0)
    else do
      let effects := slashingEffects P params window accepted bondView povDaaScore
      let accrual := satSum U64_MAX (effects.map (·.securityReserveSompi))
      let s' ← applySlashingEffectsToState effects view povDaaScore s
      return (s', accrual)

end Misaka.Dns
