import Misaka.Pipeline.Acceptance

/-!
# Verifying a chain block

`verify_expected_utxo_state` of `utxo_validation.rs`, and the chain-context step of the EVM lane
that runs between acceptance and verification.
-/

namespace Misaka.Pipeline

open Misaka.Core Dns

structure Header where
  hash : BlockHash
  version : UInt16
  timestamp : ℕ
  daaScore : ℕ
  blueWork : ℕ
  powAlgoId : UInt8
  acceptedIdMerkleRoot : Hash64
  utxoCommitment : Hash64
  overlayCommitmentRoot : Hash64
  palwBeaconSeed : Hash64
  evmCommitmentRoot : Hash64
  pruningPoint : BlockHash
  deriving DecidableEq, Repr

structure Block where
  header : Header
  transactions : List Transaction
  evmPayload : EvmExecutionPayload
  deriving DecidableEq

/-- How the processing of a block ends other than well: a broken rule, a fault of the EVM step, or a
panic. -/
inductive VerifyFault where
  | rule (e : RuleError)
  | evmClaims (e : DepositClaimsError)
  | evmExecution (message : String)
  | evmCommitmentMismatch
  | evmBridge (e : BridgeError)
  | acceptance (e : AcceptanceFault)
  | emptyBody
  | coinbasePayload (e : CoinbaseError)
  | coinbase (e : CoinbaseFault)
  deriving DecidableEq, Repr

variable (V : VirtualProcessor)

def calcAcceptedIdMerkleRoot (acceptedTxIds : List TransactionId) (selectedParent : BlockHash) :
    Hash64 :=
  V.idMerkleBranch (V.acceptedIdMerkleRoot selectedParent) (V.idMerkleRoot acceptedTxIds)

def chainDaaScore (block : BlockHash) : ℕ := ((V.chain block).head?.map (·.daaScore)).getD 0

def computeOverlaySnapshot (selectedParent : BlockHash) (records : List StakeBondRecord) :
    OverlaySnapshot :=
  match V.dnsParams with
  | none => ⟨[], 0, []⟩
  | some params =>
    let anchorDaa := chainDaaScore V selectedParent
    overlaySnapshotOf records anchorDaa ((V.reserveBalance selectedParent).getD 0)
      (selectedChainOverlayWindow V.persistedOverlay (V.chain selectedParent) anchorDaa
        (overlayWindowWalkBound params))

def versionedOverlayCommitmentRoot (version : UInt16) (selectedParent : BlockHash)
    (snapshot : OverlaySnapshot) : Hash64 :=
  let legacy := snapshot.commitmentRoot V.primitives
  if PALW_HEADER_VERSION ≤ version then V.palw.wrapOverlayRoot version selectedParent legacy
  else legacy

def commitsOverlay (version : UInt16) : Bool :=
  V.dnsParams.isSome || PALW_HEADER_VERSION ≤ version

/-- `check_mandatory_attestation_inclusion` on top of a selected parent. -/
def checkMandatoryInclusionOn (selectedParent : BlockHash) (records : List StakeBondRecord)
    (txs candidateAcceptedTxs : List Transaction) (daaScore : ℕ) : Except RuleError Unit :=
  checkMandatoryAttestationInclusion V.primitives V.genesisHash V.dnsParams V.maxBlockMass
    ((V.chain selectedParent).map (·.toHeaderRow)) V.acceptedTxsOfChainBlock records txs
    candidateAcceptedTxs daaScore

structure BlockPayouts where
  carve : Option FeeSplitParams
  pool : ℕ
  rewards : ValidatorRewards
  dripOutputs : List TransactionOutput
  dripTotal : ℕ

/-- The carve, the validator pool, the validator rewards and the reserve drip, as the two paths
compute them in this order. -/
def blockPayouts (g : GhostdagData) (ms : MergesetRewards) (bondView : ActiveBondView)
    (records : List StakeBondRecord) (txs : List Transaction) (daaScore : ℕ) :
    Except CoinbaseFault BlockPayouts := do
  let sp := g.selectedParent
  let carve := V.dnsParams.bind (·.rewardFeeSplit daaScore)
  let pool ← validatorPool ms carve
  let rewards := validatorRewardOutputsForBlock V.primitives V.dnsParams V.persistedOverlay
    (V.chain sp) txs bondView records daaScore pool
  let drip := V.dnsParams.elim ([], 0) fun params =>
    reserveDripOutputs params (settlementOn V params sp records daaScore)
      ((V.reserveBalance sp).getD 0)
  return ⟨carve, pool, rewards, drip.1, drip.2⟩

def expectedCoinbase (ms : MergesetRewards) (p : BlockPayouts) (daaScore : ℕ)
    (minerData : MinerData) : Except CoinbaseFault CoinbaseTransactionTemplate :=
  expectedCoinbaseTransaction V.coinbaseManager daaScore minerData ms
    (p.rewards.outputs ++ p.dripOutputs) p.carve
    (p.rewards.newlyIncludedStake, p.rewards.expectedStake)

def mergesetRewardsOf (g : GhostdagData) (rewards : Table BlockHash BlockRewardData)
    (mergesetNonDaa : List BlockHash) : MergesetRewards :=
  ⟨g.blueScore, g.mergesetBlues, g.mergesetReds, mergesetNonDaa, rewards⟩

def expectEq {α : Type} [DecidableEq α] (header expected : α) (e : RuleError) :
    Except RuleError Unit :=
  if expected = header then .ok () else .error e

def derivePalwBeaconStateValue (block : BlockHash) (daaScore : ℕ) (selectedParent : BlockHash)
    (bondView : ActiveBondView) : Option PalwBeaconState :=
  if V.palw.activationDaaScore = U64_MAX then none
  else if daaScore < V.palw.activationDaaScore ∨ block = V.genesisHash then none
  else V.palw.deriveBeaconStateCore daaScore selectedParent bondView

def verifyBeacon (header : Header) (derived : PalwBeaconState) : Except RuleError Unit := do
  expectEq header.palwBeaconSeed derived.seed
    (.badPalwBeaconSeed header.hash header.palwBeaconSeed derived.seed)
  if header.powAlgoId = POW_ALGO_ID_PALW_REPLICA ∧ derived.halted then
    .error (.palwLaneHalted header.hash derived.epoch derived.degradedEpochs)
  else .ok ()

def verifyCommitments (ctx : UtxoProcessingContext) (bondView : ActiveBondView)
    (records : List StakeBondRecord) (header : Header) : Except RuleError Unit := do
  let sp := ctx.ghostdagData.selectedParent
  let commitment := V.finalizeMultiset ctx.utxo.multisetHash
  expectEq header.utxoCommitment commitment
    (.badUTXOCommitment header.hash header.utxoCommitment commitment)
  let idRoot := calcAcceptedIdMerkleRoot V ctx.acceptedTxIds sp
  expectEq header.acceptedIdMerkleRoot idRoot
    (.badAcceptedIDMerkleRoot header.hash header.acceptedIdMerkleRoot idRoot)
  if commitsOverlay V header.version then
    let overlay := versionedOverlayCommitmentRoot V header.version sp
      (computeOverlaySnapshot V sp records)
    expectEq header.overlayCommitmentRoot overlay
      (.badOverlayCommitment header.hash header.overlayCommitmentRoot overlay)
  if PALW_HEADER_VERSION ≤ header.version then
    (derivePalwBeaconStateValue V header.hash header.daaScore sp bondView).elim (.ok ())
      (verifyBeacon header)

def mergesetBondGateActive (daaScore : ℕ) : Bool :=
  V.dnsParams.any (·.bondSpendGateMergesetActivationDaaScore ≤ daaScore)

def verifyBody (ctx : UtxoProcessingContext) (bondView : ActiveBondView)
    (records : List StakeBondRecord) (daaScore : ℕ) (txs : List Transaction) :
    Except RuleError Unit := do
  checkAttestationRewardEligibility V.primitives V.dnsParams V.genesisHash txs bondView daaScore
  checkMandatoryInclusionOn V ctx.ghostdagData.selectedParent records txs
    (acceptedTxsFromAcceptanceData V ctx.mergesetAcceptanceData) daaScore
  checkSlashingEvidenceGenuine V.primitives V.dnsParams V.genesisHash txs bondView daaScore
  if !mergesetBondGateActive V daaScore then
    checkBondSpendGate V.primitives V.dnsParams txs bondView daaScore
  checkUnbondRequestAuthorized V.primitives V.dnsParams V.genesisHash txs bondView daaScore

def verifyCoinbaseTransaction (ms : MergesetRewards) (p : BlockPayouts) (daaScore : ℕ)
    (coinbase : Transaction) : Except VerifyFault Unit := do
  let data ← (V.coinbaseManager.deserializeCoinbasePayload coinbase.payload).mapError
    .coinbasePayload
  let expected ← (expectedCoinbase V ms p daaScore data.minerData).mapError .coinbase
  (expectEq (V.transactionHash coinbase) (V.transactionHash expected.tx)
    .badCoinbaseTransaction).mapError .rule

def verifyTransactions (view : UtxoView) (daaScore : ℕ) (txs : List Transaction) :
    Except RuleError Unit :=
  let valid := (validateTransactions V txs view daaScore .full .off).length
  if valid < txs.length - 1 then
    .error (.invalidTransactionsInUtxoContext (txs.length - 1 - valid) (txs.length - 1))
  else .ok ()

structure VerifiedState where
  rewardedKeys : List RewardKey
  qualitySubpool : ℕ
  reserveBalanceAfter : ℕ
  pruningSample : BlockHash
  deriving DecidableEq

def qualitySubpool (daaScore pool : ℕ) : ℕ :=
  match V.dnsParams with
  | none => 0
  | some params =>
    if params.posV2ActivationDaaScore ≤ daaScore then
      min (splitValidatorPool pool params.rewardParams.validatorParticipationBps).2 U64_MAX
    else 0

def reserveBalanceAfter (ctx : UtxoProcessingContext) (dripTotal : ℕ) : ℕ :=
  if V.dnsParams.isSome then
    min ((V.reserveBalance ctx.ghostdagData.selectedParent).getD 0 + ctx.reserveAccrual) U64_MAX -
      dripTotal
  else 0

/-- All checks of a block over its UTXO state. -/
def verifyExpectedUtxoState (ctx : UtxoProcessingContext) (view : UtxoView)
    (bondView : ActiveBondView) (records : List StakeBondRecord) (mergesetNonDaa : List BlockHash)
    (header : Header) (txs : List Transaction) : Except VerifyFault VerifiedState := do
  (verifyCommitments V ctx bondView records header).mapError .rule
  (verifyBody V ctx bondView records header.daaScore txs).mapError .rule
  let ms := mergesetRewardsOf ctx.ghostdagData ctx.mergesetRewards mergesetNonDaa
  let p ← (blockPayouts V ctx.ghostdagData ms bondView records txs header.daaScore).mapError
    .coinbase
  let coinbase ← txs.head?.elim (.error .emptyBody) .ok
  verifyCoinbaseTransaction V ms p header.daaScore coinbase
  let (pruningPoint, pruningSample) := V.expectedHeaderPruningPoint ctx.ghostdagData
  (expectEq header.pruningPoint pruningPoint
    (.wrongHeaderPruningPoint pruningPoint header.pruningPoint)).mapError .rule
  (verifyTransactions V (compose view ctx.utxo.mergesetDiff) header.daaScore txs).mapError .rule
  return ⟨p.rewards.rewardedKeys, qualitySubpool V header.daaScore p.pool,
    reserveBalanceAfter V ctx p.dripTotal, pruningSample⟩

def Header.evmEnv (h : Header) : EvmBlockEnv := ⟨h.timestamp, h.blueWork, h.daaScore⟩

def evmChainContextStep (ctx : UtxoProcessingContext) (view : UtxoView) (header : Header)
    (payload : EvmExecutionPayload) : Except VerifyFault UtxoProcessingContext :=
  if header.daaScore < V.evm.activationDaaScore then .ok ctx
  else do
    let locks ← (validateEvmDepositClaims payload.systemOps (compose view ctx.utxo.mergesetDiff)
      header.daaScore).mapError .evmClaims
    let result ← (V.evm.executeAcceptance ctx.ghostdagData.selectedParent ctx.ghostdagData.mergeset
      header.evmEnv payload).mapError .evmExecution
    if result.commitmentRoot = header.evmCommitmentRoot then
      let utxo ← (V.evm.applyEvmBridgeEffects header.daaScore locks result.withdrawals
        ctx.utxo).mapError .evmBridge
      return { ctx with utxo }
    else .error .evmCommitmentMismatch

/-- The processing of a block that becomes a chain candidate: acceptance of its mergeset, the EVM
step, verification. Committing the block uses the context and what verification left in it. -/
def processChainBlock (c : AcceptanceContext) (parentMultiset : MuHash)
    (records : List StakeBondRecord) (mergesetNonDaa : List BlockHash) (block : Block) :
    Except VerifyFault (UtxoProcessingContext × VerifiedState) := do
  let ctx ← (calculateUtxoState V c records parentMultiset).mapError .acceptance
  let ctx ← evmChainContextStep V ctx c.view block.header block.evmPayload
  let verified ← verifyExpectedUtxoState V ctx c.view c.bondView records mergesetNonDaa block.header
    block.transactions
  return (ctx, verified)

theorem processChainBlock_eq_ok {V : VirtualProcessor} {c : AcceptanceContext} {m : MuHash}
    {records : List StakeBondRecord} {nonDaa : List BlockHash} {block : Block}
    {s : UtxoProcessingContext × VerifiedState} :
    processChainBlock V c m records nonDaa block = .ok s ↔
      ∃ ctx, calculateUtxoState V c records m = .ok ctx ∧
        evmChainContextStep V ctx c.view block.header block.evmPayload = .ok s.1 ∧
        verifyExpectedUtxoState V s.1 c.view c.bondView records nonDaa block.header
          block.transactions = .ok s.2 := by
  constructor
  · intro h
    obtain ⟨ctx, hctx, h₁⟩ := bind_eq_ok.mp h
    obtain ⟨ctx', hctx', h₂⟩ := bind_eq_ok.mp h₁
    obtain ⟨v, hv, h₃⟩ := bind_eq_ok.mp h₂
    cases h₃
    exact ⟨ctx, mapError_eq_ok.mp hctx, hctx', hv⟩
  · rintro ⟨ctx, hctx, hctx', hv⟩
    exact bind_eq_ok.mpr ⟨ctx, mapError_eq_ok.mpr hctx, bind_eq_ok.mpr ⟨s.1, hctx', bind_eq_ok.mpr
      ⟨s.2, hv, rfl⟩⟩⟩

end Misaka.Pipeline
