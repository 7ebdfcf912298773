import Misaka.Pipeline.Verify

/-!
# Building a block template

From the mempool to a block (`processor.rs`): the selector offers batches of admitted transactions,
the selection loop keeps those that are still valid and are not ineligible attestation shards, and a
header and a coinbase are built around them. The selector is the list of the batches it returns.
-/

namespace Misaka.Pipeline

open Misaka.Core Dns

structure VirtualState where
  ghostdagData : GhostdagData
  daaScore : ℕ
  pastMedianTime : ℕ
  multiset : MuHash
  acceptedTxIds : List TransactionId
  mergesetRewards : Table BlockHash BlockRewardData
  mergesetNonDaa : List BlockHash
  utxoSet : UtxoView

inductive TemplateError where
  | invalidTransactionsInNewBlock (invalid : Table TransactionId TxRuleError)
  | rule (e : RuleError)
  | evmTemplateExecutionFailed (message : String)
  | bridge (e : BridgeError)
  | coinbase (e : CoinbaseFault)

variable (V : VirtualProcessor)

def calculateVirtualState (c : AcceptanceContext) (parentMultiset : MuHash)
    (records : List StakeBondRecord) (mergesetNonDaa : List BlockHash) (pastMedianTime : ℕ) :
    Except AcceptanceFault VirtualState := do
  let ctx ← calculateUtxoState V c records parentMultiset
  return ⟨c.ghostdagData, c.povDaaScore, pastMedianTime, ctx.utxo.multisetHash, ctx.acceptedTxIds,
    ctx.mergesetRewards, mergesetNonDaa, compose c.view ctx.utxo.mergesetDiff⟩

def acceptedTxsFromVirtualState (vs : VirtualState) : List Transaction :=
  (rawMergesetTxs V vs.ghostdagData).filter fun tx =>
    decide (V.primitives.transactionId tx ∈ vs.acceptedTxIds)

def validatePalwOverlayActivation (tx : Transaction) (povDaaScore : ℕ) : Except TxRuleError Unit :=
  reject (povDaaScore < V.palw.activationDaaScore && tx.subnetworkId.palwTxKind.isSome)
    (.subnetworksDisabled tx.subnetworkId)

def populateMempoolTransaction (view : UtxoView) (populated : ℕ → Option UtxoEntry)
    (tx : Transaction) : Except TxRuleError (List UtxoEntry) :=
  (tx.inputs.zipIdx.mapM fun p => (populated p.2).or (view p.1.previousOutpoint)).elim
    (.error .missingTxOutpoints) .ok

def validateMempoolTransaction (vs : VirtualState) (feerateTooLow : ℕ → ℕ → Bool)
    (populated : ℕ → Option UtxoEntry) (tx : Transaction) :
    Except TxRuleError (Transaction × ℕ) := do
  V.validator.validateTxInIsolation V.primitives tx
  validatePalwOverlayActivation V tx vs.daaScore
  validateTxInHeaderContextWithArgs tx vs.daaScore vs.pastMedianTime
  let entries ← populateMempoolTransaction vs.utxoSet populated tx
  let mass ← (V.validator.storageMass tx entries).elim (.error .massIncomputable) .ok
  let tx := { tx with mass }
  let fee ← V.validator.validatePopulatedTransactionAndGetFee tx entries vs.daaScore .skipMassCheck
    (feerateTooLow (max mass (V.validator.nonContextualMass tx)))
  return (tx, fee)

def validateBlockTemplateTransaction (vs : VirtualState) (tx : Transaction) :
    Except TxRuleError ℕ := do
  validatePalwOverlayActivation V tx vs.daaScore
  validateTxInHeaderContextWithArgs tx vs.daaScore vs.pastMedianTime
  let validated ← validateTransactionInUtxoContext V tx vs.utxoSet vs.daaScore .full .off
  return validated.calculatedFee

inductive Verdict where
  | invalid (e : TxRuleError)
  | dropped (reason : AttestationDropReason)
  | kept (fee : ℕ)

def Verdict.isKept : Verdict → Bool
  | .kept _ => true
  | _ => false

def judge (vs : VirtualState) (bondView : ActiveBondView) (tx : Transaction) : Verdict :=
  match validateBlockTemplateTransaction V vs tx with
  | .error e => .invalid e
  | .ok fee =>
    match classifyAttestationShardForTemplate V.primitives tx bondView V.genesisHash
      (overlayActivated V.dnsParams vs.daaScore) with
    | .drop reason _ _ => .dropped reason
    | .keepNonShard | .keepEligible _ => .kept fee

structure Selection where
  txs : List Transaction
  calculatedFees : List ℕ
  invalidTransactions : Table TransactionId TxRuleError
  droppedShards : List (TransactionId × AttestationDropReason)

def Selection.note (vs : VirtualState) (bondView : ActiveBondView) (s : Selection)
    (tx : Transaction) : Selection :=
  let id := V.primitives.transactionId tx
  match judge V vs bondView tx with
  | .invalid e => { s with invalidTransactions := s.invalidTransactions.insert id e }
  | .dropped reason => { s with droppedShards := s.droppedShards ++ [(id, reason)] }
  | .kept fee => { s with calculatedFees := s.calculatedFees ++ [fee] }

def hasRejections (vs : VirtualState) (bondView : ActiveBondView) (batch : List Transaction) :
    Bool :=
  batch.any fun tx => !(judge V vs bondView tx).isKept

/-- The first batch without what is rejected. -/
def selectFirst (vs : VirtualState) (bondView : ActiveBondView) (batch : List Transaction) :
    Selection :=
  let s := batch.foldl (Selection.note V vs bondView) ⟨[], [], ∅, []⟩
  { s with
    txs := if hasRejections V vs bondView batch then
        batch.filter fun tx =>
          (s.invalidTransactions.lookup (V.primitives.transactionId tx)).isNone &&
            decide (V.primitives.transactionId tx ∉ s.droppedShards.map Prod.fst)
      else batch }

def refill (vs : VirtualState) (bondView : ActiveBondView) :
    Selection → List (List Transaction) → Selection
  | s, [] => s
  | s, batch :: batches =>
    let noted := batch.foldl (Selection.note V vs bondView) s
    let s' := { noted with
      txs := s.txs ++ batch.filter fun tx => (judge V vs bondView tx).isKept }
    if hasRejections V vs bondView batch then refill vs bondView s' batches else s'

def selectTransactions (vs : VirtualState) (bondView : ActiveBondView) :
    List (List Transaction) → Selection
  | [] => selectFirst V vs bondView []
  | batch :: batches =>
    let s := selectFirst V vs bondView batch
    if hasRejections V vs bondView batch then refill V vs bondView s batches else s

structure EvmTemplateData where
  transactions : List Bytes
  systemOps : List DepositClaim
  evmCoinbase : Bytes
  deriving DecidableEq, Repr

def EvmTemplateData.empty : EvmTemplateData := ⟨[], [], List.replicate 20 0⟩

def EvmExecutionPayload.empty : EvmExecutionPayload := ⟨[], [], List.replicate 20 0⟩

def admitWithin (E : EvmLane) : ℕ → List Bytes → List Bytes
  | _, [] => []
  | budget, raw :: rest =>
    if budget < 4 + raw.length then admitWithin E budget rest
    else if E.admits raw then raw :: admitWithin E (budget - (4 + raw.length)) rest
    else admitWithin E budget rest

def trimToFit (E : EvmLane) (payload : EvmExecutionPayload) : List Bytes → List Bytes
  | [] => []
  | last :: earlier =>
    let txs := (last :: earlier).reverse
    if MAX_EVM_PAYLOAD_BYTES_PER_DAG_BLOCK < E.payloadLen { payload with transactions := txs } then
      trimToFit E payload earlier
    else txs

def assemblePayload (E : EvmLane) (data : EvmTemplateData) (claims : List DepositClaim) :
    EvmExecutionPayload :=
  let base := EvmExecutionPayload.empty
  let admitted := admitWithin E (MAX_EVM_PAYLOAD_BYTES_PER_DAG_BLOCK - E.payloadLen base)
    data.transactions
  let payload := { base with systemOps := claims }
  let txs := trimToFit E payload admitted.reverse
  { payload with
    transactions := txs
    evmCoinbase := if txs = [] ∧ claims = [] then base.evmCoinbase else data.evmCoinbase }

def evmTemplateFields (vs : VirtualState) (header : Header) (data : EvmTemplateData)
    (prepared : PreparedDepositClaims) :
    Except TemplateError
      (Header × EvmExecutionPayload × List (TransactionOutpoint × EvmClaimStaleKind)) :=
  if header.daaScore < V.evm.activationDaaScore then .ok (header, .empty, [])
  else do
    let payload := assemblePayload V.evm data prepared.accepted
    let result ← (V.evm.executeAcceptance vs.ghostdagData.selectedParent vs.ghostdagData.mergeset
      header.evmEnv payload).mapError .evmTemplateExecutionFailed
    let header := { header with evmCommitmentRoot := result.commitmentRoot }
    if prepared.consumedLocks = [] ∧ result.withdrawals = [] then
      return (header, payload, prepared.stale)
    else
      -- the effects are folded into a scratch diff: only the multiset is kept
      let s ← (V.evm.applyEvmBridgeEffects header.daaScore prepared.consumedLocks
        result.withdrawals ⟨.empty, vs.multiset⟩).mapError .bridge
      return ({ header with utxoCommitment := V.finalizeMultiset s.multisetHash }, payload,
        prepared.stale)

def retainRewardEligibleAttestationShards (txs : List Transaction) (bondView : ActiveBondView)
    (daaScore : ℕ) : List Transaction :=
  if overlayActivated V.dnsParams daaScore then
    txs.filter fun tx =>
      (attestationRewardEligibility V.primitives [tx] bondView V.genesisHash true).isOk
  else txs

def templateVersion (daaScore : ℕ) : UInt16 :=
  if V.palw.activationDaaScore ≤ daaScore ∧ !V.palw.spamInert then PALW_ANTISPAM_HEADER_VERSION
  else if V.palw.activationDaaScore ≤ daaScore then PALW_HEADER_VERSION
  else if V.evm.activationDaaScore ≤ daaScore then EVM_HEADER_VERSION
  else BLOCK_VERSION

def requiredAlgoId (blake2bSha3Active : Bool) : UInt8 :=
  if blake2bSha3Active then POW_ALGO_ID_BLAKE2B_SHA3 else POW_ALGO_ID_KHEAVYHASH

def templateHeader (vs : VirtualState) (bondView : ActiveBondView) (unixNow : ℕ) : Header :=
  let g := vs.ghostdagData
  let version := templateVersion V vs.daaScore
  { hash := 0
    version := version
    timestamp := max (vs.pastMedianTime + 1) unixNow
    daaScore := vs.daaScore
    blueWork := g.blueWork
    powAlgoId := requiredAlgoId (V.powBlake2bSha3Active vs.daaScore)
    acceptedIdMerkleRoot := calcAcceptedIdMerkleRoot V vs.acceptedTxIds g.selectedParent
    utxoCommitment := V.finalizeMultiset vs.multiset
    overlayCommitmentRoot := 0
    palwBeaconSeed :=
      if PALW_HEADER_VERSION ≤ version then
        ((V.palw.deriveBeaconStateCore vs.daaScore g.selectedParent bondView).map (·.seed)).getD 0
      else 0
    evmCommitmentRoot := 0
    pruningPoint := (V.expectedHeaderPruningPoint g).1 }

def withOverlayCommitment (vs : VirtualState) (records : List StakeBondRecord) (header : Header) :
    Header :=
  let sp := vs.ghostdagData.selectedParent
  if commitsOverlay V header.version then
    { header with
      overlayCommitmentRoot := versionedOverlayCommitmentRoot V header.version sp
        (computeOverlaySnapshot V sp records) }
  else header

structure BlockTemplate where
  block : Block
  minerData : MinerData
  coinbaseHasRedReward : Bool
  minerScriptOutputIndices : List ℕ
  calculatedFees : List ℕ
  staleEvmClaims : List (TransactionOutpoint × EvmClaimStaleKind)
  droppedShards : List (TransactionId × AttestationDropReason)

def buildBlockTemplateFromVirtualState (vs : VirtualState) (bondView : ActiveBondView)
    (records : List StakeBondRecord) (prepared : PreparedDepositClaims) (minerData : MinerData)
    (selection : Selection) (data : EvmTemplateData) (unixNow : ℕ) :
    Except TemplateError BlockTemplate := do
  let g := vs.ghostdagData
  let txs := retainRewardEligibleAttestationShards V selection.txs bondView vs.daaScore
  (checkMandatoryInclusionOn V g.selectedParent records txs (acceptedTxsFromVirtualState V vs)
    vs.daaScore).mapError .rule
  let ms := mergesetRewardsOf g vs.mergesetRewards vs.mergesetNonDaa
  let p ← (blockPayouts V g ms bondView records txs vs.daaScore).mapError .coinbase
  let coinbase ← (expectedCoinbase V ms p vs.daaScore minerData).mapError .coinbase
  let (header, payload, stale) ← evmTemplateFields V vs (templateHeader V vs bondView unixNow) data
    prepared
  return {
    block := ⟨withOverlayCommitment V vs records header, coinbase.tx :: txs, payload⟩
    minerData := minerData
    coinbaseHasRedReward := coinbase.hasRedReward
    minerScriptOutputIndices := coinbase.minerScriptOutputIndices
    calculatedFees := selection.calculatedFees
    staleEvmClaims := stale
    droppedShards := selection.droppedShards }

inductive TemplateBuildMode where
  | standard
  | infallible
  deriving DecidableEq, Repr

structure TemplateRequest where
  minerData : MinerData
  buildMode : TemplateBuildMode
  evmTemplateData : EvmTemplateData
  batches : List (List Transaction)
  isSuccessful : Bool
  unixNow : ℕ

def buildBlockTemplate (vs : VirtualState) (bondView : ActiveBondView)
    (records : List StakeBondRecord) (req : TemplateRequest) :
    Except TemplateError BlockTemplate :=
  let selection := selectTransactions V vs bondView req.batches
  if req.buildMode = .standard ∧ !req.isSuccessful then
    .error (.invalidTransactionsInNewBlock selection.invalidTransactions)
  else
    let data := if V.bridgeFinalityIsFresh vs.daaScore then req.evmTemplateData else .empty
    let prepared := prepareDepositClaims data.systemOps vs.utxoSet vs.daaScore
    buildBlockTemplateFromVirtualState V vs bondView records prepared req.minerData selection data
      req.unixNow

end Misaka.Pipeline
