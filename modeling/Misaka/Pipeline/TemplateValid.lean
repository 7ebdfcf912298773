import Misaka.Dns.SelectedChain
import Misaka.Pipeline.Template

/-!
# Is a template valid

A template is judged by the rules of its own verification, with the virtual block as its past. Most
of them are met by construction: the commitments, the coinbase, the attestations, the validity of
the body. Three are not looked at when a template is built, and they decide.
-/

namespace Misaka.Pipeline

open Misaka.Core Dns List

variable {V : VirtualProcessor} {vs : VirtualState} {bondView : ActiveBondView}

/-! ## What the selection keeps -/

variable {s : Selection} {tx : Transaction} {id : TransactionId} {netId : BlockHash}
  {c : AcceptanceContext} {nonDaa : List BlockHash} {header : Header}
  {payload : EvmExecutionPayload} {template : BlockTemplate}

def Selection.Rejected (s : Selection) (id : TransactionId) : Prop :=
  (s.invalidTransactions.lookup id).isSome ∨ id ∈ s.droppedShards.map Prod.fst

theorem rejected_note (h : s.Rejected id) : (s.note V vs bondView tx).Rejected id := by
  unfold Selection.note
  dsimp only
  split
  · refine h.imp_left fun hinvalid => ?_
    rw [Table.lookup_insert_eq]
    split
    · rfl
    · exact hinvalid
  · refine h.imp_right fun hdropped => ?_
    rw [map_append]
    exact mem_append_left _ hdropped
  · exact h

theorem rejected_foldl_note (batch : List Transaction) (h : s.Rejected id) :
    (batch.foldl (Selection.note V vs bondView) s).Rejected id := by
  induction batch generalizing s with
  | nil => exact h
  | cons tx batch ih => exact ih (rejected_note h)

theorem rejected_of_mem {s : Selection} {batch : List Transaction} {tx : Transaction}
    (htx : tx ∈ batch) (hjudge : (judge V vs bondView tx).isKept = false) :
    (batch.foldl (Selection.note V vs bondView) s).Rejected (V.primitives.transactionId tx) := by
  induction batch generalizing s with
  | nil => cases htx
  | cons b batch ih =>
    rcases mem_cons.mp htx with rfl | htx
    · refine rejected_foldl_note batch ?_
      unfold Selection.note Selection.Rejected
      dsimp only
      split
      · left
        rw [Table.lookup_insert_eq, if_pos rfl]
        rfl
      · right
        simp
      · next hkept => simp [hkept, Verdict.isKept] at hjudge
    · exact ih htx

variable {batch : List Transaction} {batches : List (List Transaction)}
  {atts : List StakeAttestation} {m : MuHash} {header' : Header} {data : EvmTemplateData}
  {prepared : PreparedDepositClaims} {stale : List (TransactionOutpoint × EvmClaimStaleKind)}
  {view : UtxoView} {req : TemplateRequest} {lb : List StakeBondRecord}

theorem isKept_of_mem_selectFirst (h : tx ∈ (selectFirst V vs bondView batch).txs) :
    (judge V vs bondView tx).isKept := by
  unfold selectFirst at h
  dsimp only at h
  split at h
  · obtain ⟨hmem, hnot⟩ := mem_filter.mp h
    by_contra hjudge
    have hrej := @rejected_of_mem V vs bondView ⟨[], [], ∅, []⟩ batch tx hmem
      (Bool.eq_false_iff.mpr hjudge)
    simp only [Bool.and_eq_true, Option.isNone_iff_eq_none, decide_eq_true_eq] at hnot
    rcases hrej with hinvalid | hdropped
    · rw [hnot.1] at hinvalid
      cases hinvalid
    · exact hnot.2 hdropped
  · next hnone =>
    simpa [hasRejections] using (any_eq_false.mp (Bool.eq_false_iff.mpr hnone)) tx h

theorem isKept_of_mem_refill (hs : ∀ tx ∈ s.txs, (judge V vs bondView tx).isKept)
    (h : tx ∈ (refill V vs bondView s batches).txs) : (judge V vs bondView tx).isKept := by
  induction batches generalizing s with
  | nil => exact hs tx h
  | cons batch batches ih =>
    have hs' : ∀ tx ∈ s.txs ++ batch.filter fun tx => (judge V vs bondView tx).isKept,
        (judge V vs bondView tx).isKept :=
      forall_mem_append.mpr ⟨hs, fun _ htx => (mem_filter.mp htx).2⟩
    unfold refill at h
    dsimp only at h
    split at h
    · exact ih hs' h
    · exact hs' tx h

theorem isKept_of_mem_selectTransactions (h : tx ∈ (selectTransactions V vs bondView batches).txs) :
    (judge V vs bondView tx).isKept := by
  unfold selectTransactions at h
  split at h
  · exact isKept_of_mem_selectFirst h
  · dsimp only at h
    split at h
    · exact isKept_of_mem_refill (fun _ => isKept_of_mem_selectFirst) h
    · exact isKept_of_mem_selectFirst h

theorem judge_isKept (h : (judge V vs bondView tx).isKept) :
    (∃ v, validateTransactionInUtxoContext V tx vs.utxoSet vs.daaScore .full .off = .ok v) ∧
      ∀ reason o epoch, classifyAttestationShardForTemplate V.primitives tx bondView V.genesisHash
        (overlayActivated V.dnsParams vs.daaScore) ≠ .drop reason o epoch := by
  unfold judge at h
  split at h
  · cases h
  · next fee hfee =>
    refine ⟨?_, fun reason o epoch hdrop => ?_⟩
    · simp only [validateBlockTemplateTransaction, bind_eq_ok] at hfee
      obtain ⟨-, -, -, -, v, hv, -⟩ := hfee
      exact ⟨v, hv⟩
    · rw [hdrop] at h
      cases h

/-! ## Attestations of kept transactions are eligible -/

theorem classifyAttestations_eq_none {P : Primitives}
    (h : classifyAttestations P bondView netId atts = none) :
    ∀ att ∈ atts, classifyOneAttestation P att bondView netId = .ok () := by
  induction atts with
  | nil => exact nofun
  | cons a atts ih =>
    unfold classifyAttestations at h
    split at h
    · cases h
    · next ha => exact forall_mem_cons.mpr ⟨ha, ih h⟩

theorem exists_drop_of_classifyAttestations {P : Primitives} {d : AttestationShardDecision}
    (h : classifyAttestations P bondView netId atts = some d) :
    ∃ reason o epoch, d = .drop reason o epoch := by
  induction atts with
  | nil => cases h
  | cons a atts ih =>
    unfold classifyAttestations at h
    split at h
    · next reason _ => exact ⟨reason, _, _, (Option.some.inj h).symm⟩
    · exact ih h

theorem dnsTxKind_eq_shard {s : SubnetworkId} (h : dnsTxKind s = some .stakeAttestationShard) :
    s = SUBNETWORK_ID_STAKE_ATTESTATION_SHARD := by
  unfold dnsTxKind at h
  split_ifs at h <;> first | assumption | cases h

theorem attestationRewardEligibility_eq_ok {P : Primitives} {txs : List Transaction} :
    attestationRewardEligibility P txs bondView netId true = .ok () ↔
      ∀ att ∈ attestationsFromAcceptedTxs P txs,
        classifyOneAttestation P att bondView netId = .ok () := by
  unfold attestationRewardEligibility
  rw [if_neg (by simp), forM_eq_ok_iff]
  refine forall₂_congr fun att _ => ?_
  cases classifyOneAttestation P att bondView netId <;> simp

theorem eligible_of_not_dropped {P : Primitives} (h : ∀ reason o epoch,
      classifyAttestationShardForTemplate P tx bondView netId true ≠ .drop reason o epoch) :
    attestationRewardEligibility P [tx] bondView netId true = .ok () := by
  rw [attestationRewardEligibility_eq_ok]
  intro att hatt
  simp only [attestationsFromAcceptedTxs, flatMap_cons, flatMap_nil,
    append_nil] at hatt
  cases hshard : decodeAttestationShard P tx with
  | none => simp [hshard] at hatt
  | some shard =>
    simp only [hshard, Option.map_some, Option.getD_some] at hatt
    have hsub : tx.subnetworkId = SUBNETWORK_ID_STAKE_ATTESTATION_SHARD := by
      refine dnsTxKind_eq_shard ?_
      unfold decodeAttestationShard at hshard
      split at hshard
      · assumption
      · cases hshard
    unfold classifyAttestationShardForTemplate at h
    rw [if_neg (by simp [hsub])] at h
    simp only [hshard] at h
    cases hclass : classifyAttestations P bondView netId shard.attestations with
    | none => exact classifyAttestations_eq_none hclass att hatt
    | some d =>
      obtain ⟨reason, o, epoch, rfl⟩ := exists_drop_of_classifyAttestations hclass
      exact absurd (by rw [hclass]; rfl) (h reason o epoch)

theorem eligible_of_selected (hact : overlayActivated V.dnsParams vs.daaScore = true)
    (h : tx ∈ (selectTransactions V vs bondView batches).txs) :
    attestationRewardEligibility V.primitives [tx] bondView V.genesisHash true = .ok () :=
  eligible_of_not_dropped (hact ▸ (judge_isKept (isKept_of_mem_selectTransactions h)).2)

theorem retain_selectTransactions (batches : List (List Transaction)) :
    retainRewardEligibleAttestationShards V (selectTransactions V vs bondView batches).txs bondView
        vs.daaScore = (selectTransactions V vs bondView batches).txs := by
  unfold retainRewardEligibleAttestationShards
  split
  · next hact =>
    refine filter_eq_self.mpr fun tx htx => ?_
    rw [eligible_of_selected hact htx]
    rfl
  · rfl

theorem checkAttestationRewardEligibility_selectTransactions (batches : List (List Transaction)) :
    checkAttestationRewardEligibility V.primitives V.dnsParams V.genesisHash
      (selectTransactions V vs bondView batches).txs bondView vs.daaScore = .ok () := by
  rw [checkAttestationRewardEligibility, mapError_eq_ok]
  cases hact : overlayActivated V.dnsParams vs.daaScore with
  | false => rfl
  | true =>
    rw [attestationRewardEligibility_eq_ok]
    intro att hatt
    obtain ⟨tx, htx, hatt⟩ := mem_flatMap.mp hatt
    refine attestationRewardEligibility_eq_ok.mp (eligible_of_selected hact htx) att ?_
    simpa [attestationsFromAcceptedTxs] using hatt

/-! ## The coinbase is inert -/

structure Inert (tx : Transaction) : Prop where
  subnetwork : tx.subnetworkId = SUBNETWORK_ID_COINBASE
  inputs : tx.inputs = []

namespace Inert

variable {cb : Transaction} {txs : List Transaction} {P : Primitives}

theorem dnsTxKind_eq (h : Inert cb) : dnsTxKind cb.subnetworkId = none := by
  rw [h.subnetwork]
  rfl

theorem attestations_cons (h : Inert cb) :
    attestationsFromAcceptedTxs P (cb :: txs) = attestationsFromAcceptedTxs P txs := by
  simp [attestationsFromAcceptedTxs, decodeAttestationShard, h.dnsTxKind_eq]

theorem evidence_cons (h : Inert cb) :
    slashingEvidenceFromAcceptedTxs P (cb :: txs) = slashingEvidenceFromAcceptedTxs P txs := by
  simp [slashingEvidenceFromAcceptedTxs, slashingEvidenceOf, h.dnsTxKind_eq]

theorem unbondRequests_cons (h : Inert cb) :
    unbondRequestsFromAcceptedTxs P (cb :: txs) = unbondRequestsFromAcceptedTxs P txs := by
  simp [unbondRequestsFromAcceptedTxs, unbondRequestOf, h.dnsTxKind_eq]

theorem bondSpendGate_cons (h : Inert cb) (daa : ℕ) (activated : Bool) :
    bondSpendGate P (cb :: txs) bondView daa activated =
      bondSpendGate P txs bondView daa activated := by
  unfold bondSpendGate
  cases activated with
  | false => rfl
  | true =>
    rw [if_neg (by simp), if_neg (by simp), forM_eq_forM, forM_cons, h.inputs]
    rfl

theorem verifyBody_cons (h : Inert cb) (ctx : UtxoProcessingContext)
    (records : List StakeBondRecord) (daa : ℕ) :
    verifyBody V ctx bondView records daa (cb :: txs) =
      verifyBody V ctx bondView records daa txs := by
  simp only [verifyBody, checkAttestationRewardEligibility, attestationRewardEligibility,
    checkMandatoryInclusionOn, checkMandatoryAttestationInclusion, checkSlashingEvidenceGenuine,
    slashingEvidenceGenuine, checkBondSpendGate, checkUnbondRequestAuthorized,
    unbondRequestAuthorized, h.attestations_cons, h.evidence_cons, h.unbondRequests_cons,
    h.bondSpendGate_cons]

theorem blockPayouts_cons (h : Inert cb) (g : GhostdagData) (ms : MergesetRewards)
    (records : List StakeBondRecord) (daa : ℕ) :
    blockPayouts V g ms bondView records (cb :: txs) daa =
      blockPayouts V g ms bondView records txs daa := by
  simp only [blockPayouts, validatorRewardOutputsForBlock, creditableAttestations,
    h.attestations_cons]

end Inert

/-! ## Any listing of the bonds verifies alike -/

section Listing

variable {l l' : List StakeBondRecord}

theorem blockPayouts_eq (h : SameRows l l') (g : GhostdagData) (ms : MergesetRewards)
    (txs : List Transaction) (daa : ℕ) :
    blockPayouts V g ms bondView l txs daa = blockPayouts V g ms bondView l' txs daa := by
  have hdrip (params : DnsParams) (balance : ℕ) :
      reserveDripOutputs params (settlementOn V params g.selectedParent l daa) balance =
        reserveDripOutputs params (settlementOn V params g.selectedParent l' daa) balance :=
    h.reserveDripOutputs_eq ..
  simp only [blockPayouts, h.validatorRewardOutputsForBlock_eq, hdrip]

theorem overlayRoot_eq (h : SameRows l l') (version : UInt16) (sp : BlockHash) :
    versionedOverlayCommitmentRoot V version sp (computeOverlaySnapshot V sp l) =
      versionedOverlayCommitmentRoot V version sp (computeOverlaySnapshot V sp l') := by
  unfold versionedOverlayCommitmentRoot computeOverlaySnapshot
  cases V.dnsParams with
  | none => rfl
  | some params =>
    dsimp only
    rw [h.commitmentRoot_eq]

end Listing

/-! ## The coinbase of a template -/

section Coinbase

variable {ms : MergesetRewards} {p : BlockPayouts} {daa : ℕ} {minerData : MinerData}
  {t : CoinbaseTransactionTemplate}

theorem expectedCoinbase_spec (h : expectedCoinbase V ms p daa minerData = .ok t) :
    Inert t.tx ∧ V.coinbaseManager.serializeCoinbasePayload
      ⟨ms.blueScore, V.coinbaseManager.calcBlockSubsidy daa, minerData⟩ =
        .ok t.tx.payload := by
  obtain ⟨acc, -, h₁⟩ := bind_eq_ok.mp h
  obtain ⟨payload, hpayload, h₂⟩ := bind_eq_ok.mp h₁
  cases h₂
  exact ⟨⟨rfl, rfl⟩, mapError_eq_ok.mp hpayload⟩

def PayloadFits (V : VirtualProcessor) (minerData : MinerData) : Prop :=
  CoinbaseManager.MIN_PAYLOAD_LENGTH + minerData.scriptPublicKey.script.length +
    minerData.extraData.length ≤ V.coinbaseManager.maxCoinbasePayloadLen

instance {V : VirtualProcessor} {d : MinerData} : Decidable (PayloadFits V d) := Nat.decLe _ _

/-- The expected coinbase verifies exactly when its payload can be read back: building it does not
look at the length, reading it panics above the limit. -/
theorem verifyCoinbaseTransaction_eq_ok (h : expectedCoinbase V ms p daa minerData = .ok t)
    (htyped : CoinbaseData.Typed ⟨ms.blueScore, V.coinbaseManager.calcBlockSubsidy daa, minerData⟩)
    (hmax : V.coinbaseManager.coinbasePayloadScriptPublicKeyMaxLen < 256) :
    verifyCoinbaseTransaction V ms p daa t.tx = .ok () ↔ PayloadFits V minerData := by
  have hser := (expectedCoinbase_spec h).2
  have hlen := length_of_serializeCoinbasePayload hser
  have hback := deserialize_serialize htyped hmax hser
  dsimp only at hlen
  unfold verifyCoinbaseTransaction PayloadFits
  rw [hback]
  split
  · next hlong => exact ⟨nofun, fun hfits => by omega⟩
  · next hfits =>
    refine ⟨fun _ => by omega, fun _ => ?_⟩
    refine bind_eq_ok.mpr ⟨_, rfl, bind_eq_ok.mpr ⟨t, mapError_eq_ok.mpr h, ?_⟩⟩
    exact mapError_eq_ok.mpr (if_pos rfl)

end Coinbase

/-! ## The EVM step of a template -/

/-- What the rules rely on about the network and the virtual block: the script limit of coinbase
payloads fits their length byte, subsidies are `u64`, wherever the bridge is active only
post-quantum scripts may be spent, and withdrawals get outpoints of their own. -/
structure Deployed (V : VirtualProcessor) (vs : VirtualState) : Prop where
  scriptLen_lt : V.coinbaseManager.coinbasePayloadScriptPublicKeyMaxLen < 256
  subsidy_lt : ∀ daaScore, V.coinbaseManager.calcBlockSubsidy daaScore < 2 ^ 64
  blueScore_lt : vs.ghostdagData.blueScore < 2 ^ 64
  bridge_pq : V.evm.activationDaaScore ≤ vs.daaScore → V.validator.pqOnly vs.daaScore
  withdrawals_fresh : ∀ sp mergeset env payload result,
    V.evm.executeAcceptance sp mergeset env payload = .ok result →
      EvmLane.FreshWithdrawals V.evm vs.utxoSet result.withdrawals

structure VirtualOf (V : VirtualProcessor) (c : AcceptanceContext) (ctx : UtxoProcessingContext)
    (vs : VirtualState) : Prop where
  ghostdagData : vs.ghostdagData = c.ghostdagData
  ctx_ghostdagData : ctx.ghostdagData = c.ghostdagData
  daaScore : vs.daaScore = c.povDaaScore
  multiset : vs.multiset = ctx.utxo.multisetHash
  acceptedTxIds : vs.acceptedTxIds = ctx.acceptedTxIds
  mergesetRewards : vs.mergesetRewards = ctx.mergesetRewards
  utxoSet : vs.utxoSet = compose c.view ctx.utxo.mergesetDiff

theorem calculateUtxoState_ghostdagData {records : List StakeBondRecord}
    {ctx : UtxoProcessingContext} (h : calculateUtxoState V c records m = .ok ctx) :
    ctx.ghostdagData = c.ghostdagData := by
  simp only [calculateUtxoState, bind_eq_ok] at h
  obtain ⟨-, -, -, -, -, -, ⟨⟩⟩ := h
  rfl

theorem virtualOf_of_calculate {records : List StakeBondRecord} {time : ℕ}
    (h : calculateVirtualState V c m records nonDaa time = .ok vs) :
    ∃ ctx, calculateUtxoState V c records m = .ok ctx ∧ VirtualOf V c ctx vs ∧
      vs.mergesetNonDaa = nonDaa := by
  obtain ⟨ctx, hctx, h₁⟩ := bind_eq_ok.mp h
  cases h₁
  exact ⟨ctx, hctx, ⟨rfl, calculateUtxoState_ghostdagData hctx, rfl, rfl, rfl, rfl, rfl⟩, rfl⟩

/-- A valid transaction spends neither a claimed lock nor a withdrawal, so the bridge effects leave
it valid. -/
theorem validate_after_bridge {v : ValidatedTransaction} {view' : UtxoView}
    {locks : List ConsumedLock} {ws : List WithdrawOp} (hpq : V.validator.pqOnly vs.daaScore)
    (hlocks : ClaimedLocks vs.utxoSet vs.daaScore locks)
    (hfresh : EvmLane.FreshWithdrawals V.evm vs.utxoSet ws)
    (hview : ∀ o, o ∉ locks.map Prod.fst → o ∉ ws.map V.evm.withdrawalOutpoint →
      view' o = vs.utxoSet o)
    (h : validateTransactionInUtxoContext V tx vs.utxoSet vs.daaScore .full .off = .ok v) :
    validateTransactionInUtxoContext V tx view' vs.daaScore .full .off = .ok v := by
  obtain ⟨entries, hentries, fee, hfee⟩ := validateTransactionInUtxoContext_off_eq_ok h
  rw [← h]
  refine validateTransactionInUtxoContext_congr fun input hinput => hview _ ?_ ?_
  · intro hmem
    obtain ⟨l, hl, heq⟩ := mem_map.mp hmem
    obtain ⟨entry, hentry, hshown⟩ := mem_of_populate hentries hinput
    obtain rfl : l.2 = entry := by
      have hvis := hlocks.visible l hl
      rw [heq, hshown] at hvis
      exact (Option.some.inj hvis).symm
    obtain ⟨lock, hlock, hlt⟩ := hlocks.claimable l hl
    have hle := timeout_le_of_validatePopulated hpq hfee hentry hlock
    omega
  · intro hmem
    obtain ⟨w, hw, heq⟩ := mem_map.mp hmem
    obtain ⟨entry, -, hshown⟩ := mem_of_populate hentries hinput
    rw [← heq, hfresh.absent w hw] at hshown
    cases hshown

structure EvmStepOf (V : VirtualProcessor) (c : AcceptanceContext) (ctx : UtxoProcessingContext)
    (vs : VirtualState) (header header' : Header) (payload : EvmExecutionPayload)
    (utxo : UtxoState) : Prop where
  header_eq : header' =
    { header with
      evmCommitmentRoot := header'.evmCommitmentRoot
      utxoCommitment := V.finalizeMultiset utxo.multisetHash }
  step : ∀ final : Header, final.daaScore = header.daaScore → final.evmEnv = header.evmEnv →
    final.evmCommitmentRoot = header'.evmCommitmentRoot →
      evmChainContextStep V ctx c.view final payload = .ok { ctx with utxo }
  valid : ∀ tx v, validateTransactionInUtxoContext V tx vs.utxoSet vs.daaScore .full .off = .ok v →
    validateTransactionInUtxoContext V tx (compose c.view utxo.mergesetDiff) vs.daaScore
      .full .off = .ok v

/-- An active lane folds the effects of the claims and of the execution into the commitment, on
some diff of no consequence. -/
theorem evmTemplateFields_active (hactive : ¬header.daaScore < V.evm.activationDaaScore)
    (hcommit : header.utxoCommitment = V.finalizeMultiset vs.multiset)
    (h : evmTemplateFields V vs header data prepared = .ok (header', payload, stale)) :
    payload.systemOps = prepared.accepted ∧ ∃ result,
      V.evm.executeAcceptance vs.ghostdagData.selectedParent vs.ghostdagData.mergeset header.evmEnv
        payload = .ok result ∧
      ∃ t t', V.evm.applyEvmBridgeEffects header.daaScore prepared.consumedLocks result.withdrawals
        t = .ok t' ∧ t.multisetHash = vs.multiset ∧
        header' = { header with
          evmCommitmentRoot := result.commitmentRoot
          utxoCommitment := V.finalizeMultiset t'.multisetHash } := by
  unfold evmTemplateFields at h
  rw [if_neg hactive] at h
  obtain ⟨result, hresult, h₁⟩ := bind_eq_ok.mp h
  dsimp only at h₁
  split at h₁
  · next hnone =>
    cases h₁
    refine ⟨rfl, result, mapError_eq_ok.mp hresult, ⟨.empty, vs.multiset⟩, ⟨.empty, vs.multiset⟩,
      ?_, rfl, ?_⟩
    · rw [hnone.1, hnone.2]
      rfl
    · rw [← hcommit]
  · obtain ⟨t', ht', h₂⟩ := bind_eq_ok.mp h₁
    cases h₂
    exact ⟨rfl, result, mapError_eq_ok.mp hresult, _, t', mapError_eq_ok.mp ht', rfl, rfl⟩

theorem evmTemplateFields_step {ctx : UtxoProcessingContext} (hdep : Deployed V vs)
    (hvs : VirtualOf V c ctx vs) (hdaa : header.daaScore = vs.daaScore)
    (hcommit : header.utxoCommitment = V.finalizeMultiset vs.multiset)
    (hclaims : validateEvmDepositClaims prepared.accepted vs.utxoSet vs.daaScore =
      .ok prepared.consumedLocks)
    (h : evmTemplateFields V vs header data prepared = .ok (header', payload, stale)) :
    ∃ utxo, EvmStepOf V c ctx vs header header' payload utxo := by
  by_cases hbelow : header.daaScore < V.evm.activationDaaScore
  · -- the lane is inactive: header and context stay as they are
    unfold evmTemplateFields at h
    rw [if_pos hbelow] at h
    cases h
    refine ⟨ctx.utxo, ?_, fun final hfinal _ _ => ?_, fun tx v hv => hvs.utxoSet ▸ hv⟩
    · rw [← hvs.multiset, ← hcommit]
    · unfold evmChainContextStep
      rw [if_pos (hfinal ▸ hbelow)]
  · obtain ⟨hops, result, hexec, t, t', heffects, htm, rfl⟩ :=
      evmTemplateFields_active hbelow hcommit h
    have hpq := hdep.bridge_pq (by omega)
    have hfresh := hdep.withdrawals_fresh _ _ _ _ _ hexec
    have hlocks := claimedLocks_of_validate hclaims
    rw [hdaa] at heffects
    -- what went through on the scratch diff goes through on the real one
    obtain ⟨utxo, hutxo, hsame⟩ := @EvmLane.applyEvmBridgeEffects_transfer V.evm vs.daaScore _ _
      c.view ctx.utxo _ _ (hvs.utxoSet ▸ hlocks) (hvs.utxoSet ▸ hfresh) heffects
    have hmultiset : utxo.multisetHash = t'.multisetHash := by
      rw [EvmLane.multiset_of_applyEvmBridgeEffects hutxo,
        EvmLane.multiset_of_applyEvmBridgeEffects heffects, htm, hvs.multiset]
    refine ⟨utxo, ?_, fun final hfinal henv hroot => ?_, fun tx v hv =>
      validate_after_bridge hpq hlocks hfresh (hvs.utxoSet ▸ hsame) hv⟩
    · rw [hmultiset]
    · unfold evmChainContextStep
      rw [if_neg (hfinal ▸ hbelow), hfinal, hdaa, henv, hops, hvs.ctx_ghostdagData,
        ← hvs.ghostdagData, ← hvs.utxoSet, hclaims, hexec]
      refine bind_eq_ok.mpr ⟨_, rfl, bind_eq_ok.mpr ⟨result, rfl, ?_⟩⟩
      rw [if_pos hroot.symm]
      exact bind_eq_ok.mpr ⟨utxo, mapError_eq_ok.mpr hutxo, rfl⟩

/-! ## Verification, taken apart -/

section Verification

variable {ctx : UtxoProcessingContext} {records : List StakeBondRecord} {daa : ℕ}
  {cb : Transaction} {txs : List Transaction}

theorem verifyBody_eq_ok : verifyBody V ctx bondView records daa txs = .ok () ↔
    checkAttestationRewardEligibility V.primitives V.dnsParams V.genesisHash txs bondView daa =
      .ok () ∧
    checkMandatoryInclusionOn V ctx.ghostdagData.selectedParent records txs
      (acceptedTxsFromAcceptanceData V ctx.mergesetAcceptanceData) daa = .ok () ∧
    checkSlashingEvidenceGenuine V.primitives V.dnsParams V.genesisHash txs bondView daa =
      .ok () ∧
    (mergesetBondGateActive V daa = false →
      checkBondSpendGate V.primitives V.dnsParams txs bondView daa = .ok ()) ∧
    checkUnbondRequestAuthorized V.primitives V.dnsParams V.genesisHash txs bondView daa =
      .ok () := by
  unfold verifyBody
  cases hgate : mergesetBondGateActive V daa <;>
    simp [check_bind_eq_ok]

theorem verifyTransactions_of_valid
    (h : ∀ tx ∈ txs, ∃ v, validateTransactionInUtxoContext V tx view daa .full .off = .ok v) :
    verifyTransactions V view daa (cb :: txs) = .ok () := by
  have hlen : ((txs.zipIdx 1).filterMap fun p => (validateTransactionInUtxoContext V p.1 view
      daa .full .off).toOption.map (·, p.2)).length = (txs.zipIdx 1).length := by
    rw [length_filterMap_eq_countP, countP_eq_length]
    intro p hp
    obtain ⟨v, hv⟩ := h p.1 (fst_mem_of_mem_zipIdx hp)
    rw [hv]
    rfl
  have hdrop : (cb :: txs).zipIdx.drop 1 = txs.zipIdx 1 := rfl
  unfold verifyTransactions validateTransactions
  dsimp only
  rw [hdrop, hlen, length_zipIdx]
  simp

theorem expectEq_eq_ok {α : Type} [DecidableEq α] {header expected : α} {e : RuleError} :
    expectEq header expected e = .ok () ↔ expected = header := by
  unfold expectEq
  split <;> simp_all

theorem verifyCommitments_of
    (hutxo : V.finalizeMultiset ctx.utxo.multisetHash = header.utxoCommitment)
    (hids : calcAcceptedIdMerkleRoot V ctx.acceptedTxIds ctx.ghostdagData.selectedParent =
      header.acceptedIdMerkleRoot) (hoverlay : commitsOverlay V header.version →
      versionedOverlayCommitmentRoot V header.version ctx.ghostdagData.selectedParent
      (computeOverlaySnapshot V ctx.ghostdagData.selectedParent records) =
      header.overlayCommitmentRoot) (hbeacon : PALW_HEADER_VERSION ≤ header.version → ∀ derived,
      derivePalwBeaconStateValue V header.hash header.daaScore ctx.ghostdagData.selectedParent
      bondView = some derived →
      derived.seed = header.palwBeaconSeed ∧ header.powAlgoId ≠ POW_ALGO_ID_PALW_REPLICA) :
    verifyCommitments V ctx bondView records header = .ok () := by
  have hlane : (if PALW_HEADER_VERSION ≤ header.version then
      (derivePalwBeaconStateValue V header.hash header.daaScore ctx.ghostdagData.selectedParent
        bondView).elim (.ok ()) (verifyBeacon header) else .ok ()) = .ok () := by
    split
    · next hversion =>
      cases hderived : derivePalwBeaconStateValue V header.hash header.daaScore
          ctx.ghostdagData.selectedParent bondView with
      | none => rfl
      | some derived =>
        obtain ⟨hseed, halgo⟩ := hbeacon hversion derived hderived
        exact check_bind_eq_ok.mpr ⟨expectEq_eq_ok.mpr hseed, if_neg fun h => halgo h.1⟩
    · rfl
  unfold verifyCommitments
  dsimp only
  refine check_bind_eq_ok.mpr ⟨expectEq_eq_ok.mpr hutxo,
    check_bind_eq_ok.mpr ⟨expectEq_eq_ok.mpr hids, ?_⟩⟩
  split
  · next hcommits => exact check_bind_eq_ok.mpr ⟨expectEq_eq_ok.mpr (hoverlay hcommits), hlane⟩
  · exact hlane

theorem exists_verify_iff :
    (∃ s, verifyExpectedUtxoState V ctx view bondView records nonDaa header (cb :: txs) = .ok s) ↔
      verifyCommitments V ctx bondView records header = .ok () ∧
      verifyBody V ctx bondView records header.daaScore (cb :: txs) = .ok () ∧
      ∃ p, blockPayouts V ctx.ghostdagData
          (mergesetRewardsOf ctx.ghostdagData ctx.mergesetRewards nonDaa) bondView records
          (cb :: txs) header.daaScore = .ok p ∧
        verifyCoinbaseTransaction V
          (mergesetRewardsOf ctx.ghostdagData ctx.mergesetRewards nonDaa) p header.daaScore cb =
            .ok () ∧
        (V.expectedHeaderPruningPoint ctx.ghostdagData).1 = header.pruningPoint ∧
        verifyTransactions V (compose view ctx.utxo.mergesetDiff) header.daaScore (cb :: txs) =
          .ok () := by
  unfold verifyExpectedUtxoState
  constructor
  · rintro ⟨s, hs⟩
    simp only [bind_eq_ok, mapError_eq_ok] at hs
    obtain ⟨⟨⟩, hcommit, ⟨⟩, hbody, p, hp, _, ⟨⟩, ⟨⟩, hcoinbase, ⟨⟩, hpruning, ⟨⟩, htxs, -⟩ := hs
    exact ⟨hcommit, hbody, p, hp, hcoinbase, expectEq_eq_ok.mp hpruning, htxs⟩
  · rintro ⟨hcommit, hbody, p, hp, hcoinbase, hpruning, htxs⟩
    simp only [bind_eq_ok, mapError_eq_ok]
    exact ⟨_, (), hcommit, (), hbody, p, hp, cb, rfl, (), hcoinbase, (),
      expectEq_eq_ok.mpr hpruning, (), htxs, rfl⟩

end Verification

/-! ## Templates -/

def Block.mined (b : Block) (hash : BlockHash) : Block :=
  { b with header := { b.header with hash } }

/-- What decides whether a template is valid: the miner's data fits the payload, and the
transactions kept by the selection pass the rules that no step of the construction asks. -/
@[mk_iff]
structure TemplateSound (V : VirtualProcessor) (c : AcceptanceContext)
    (ctx : UtxoProcessingContext) (records : List StakeBondRecord) (minerData : MinerData)
    (kept : List Transaction) : Prop where
  payload_fits : PayloadFits V minerData
  inclusion : checkMandatoryInclusionOn V c.ghostdagData.selectedParent records kept
    (acceptedTxsFromAcceptanceData V ctx.mergesetAcceptanceData) c.povDaaScore = .ok ()
  evidence : checkSlashingEvidenceGenuine V.primitives V.dnsParams V.genesisHash kept c.bondView
    c.povDaaScore = .ok ()
  bondSpends : mergesetBondGateActive V c.povDaaScore = false →
    checkBondSpendGate V.primitives V.dnsParams kept c.bondView c.povDaaScore = .ok ()
  unbonds : checkUnbondRequestAuthorized V.primitives V.dnsParams V.genesisHash kept c.bondView
    c.povDaaScore = .ok ()

instance {V : VirtualProcessor} {c : AcceptanceContext} {ctx : UtxoProcessingContext}
    {records : List StakeBondRecord} {minerData : MinerData} {kept : List Transaction} :
    Decidable (TemplateSound V c ctx records minerData kept) :=
  decidable_of_iff' _ (templateSound_iff V c ctx records minerData kept)

theorem buildBlockTemplate_eq_ok {lt : List StakeBondRecord}
    (h : buildBlockTemplate V vs bondView lt req = .ok template) :
    ∃ p coinbase header payload stale data,
      blockPayouts V vs.ghostdagData
        (mergesetRewardsOf vs.ghostdagData vs.mergesetRewards vs.mergesetNonDaa) bondView lt
        (selectTransactions V vs bondView req.batches).txs vs.daaScore = .ok p ∧
      expectedCoinbase V (mergesetRewardsOf vs.ghostdagData vs.mergesetRewards vs.mergesetNonDaa) p
        vs.daaScore req.minerData = .ok coinbase ∧
      evmTemplateFields V vs (templateHeader V vs bondView req.unixNow) data
        (prepareDepositClaims data.systemOps vs.utxoSet vs.daaScore) =
          .ok (header, payload, stale) ∧
      template.block = ⟨withOverlayCommitment V vs lt header,
        coinbase.tx :: (selectTransactions V vs bondView req.batches).txs, payload⟩ := by
  unfold buildBlockTemplate at h
  dsimp only at h
  split at h
  · cases h
  · unfold buildBlockTemplateFromVirtualState at h
    rw [retain_selectTransactions] at h
    simp only [bind_eq_ok, mapError_eq_ok] at h
    obtain ⟨⟨⟩, -, p, hp, coinbase, hcoinbase, ⟨header, payload, stale⟩, hfields, ⟨⟩⟩ := h
    exact ⟨p, coinbase, header, payload, stale, _, hp, hcoinbase, hfields, rfl⟩

theorem withOverlayCommitment_eq {lt : List StakeBondRecord} (h : Header) :
    ∃ root, withOverlayCommitment V vs lt h = { h with overlayCommitmentRoot := root } ∧
      (commitsOverlay V h.version → root =
        versionedOverlayCommitmentRoot V h.version vs.ghostdagData.selectedParent
          (computeOverlaySnapshot V vs.ghostdagData.selectedParent lt)) := by
  unfold withOverlayCommitment
  dsimp only
  split
  · exact ⟨_, rfl, fun _ => rfl⟩
  · next hnot => exact ⟨_, rfl, fun hcommits => absurd hcommits hnot⟩

theorem verifyCommitments_template {ctx : UtxoProcessingContext} {lt : List StakeBondRecord}
    (hrows : SameRows lt lb) (hvs : VirtualOf V c ctx vs) {unixNow : ℕ} {utxo : UtxoState}
    (hstep : EvmStepOf V c ctx vs (templateHeader V vs bondView unixNow) header payload utxo)
    (hash : BlockHash) :
    verifyCommitments V { ctx with utxo } bondView lb
      { withOverlayCommitment V vs lt header with hash } = .ok () := by
  have hsp : ctx.ghostdagData.selectedParent = vs.ghostdagData.selectedParent := by
    rw [hvs.ctx_ghostdagData, hvs.ghostdagData]
  rw [hstep.header_eq]
  obtain ⟨root, hroot, hoverlay⟩ := @withOverlayCommitment_eq V vs lt
    { templateHeader V vs bondView unixNow with
      evmCommitmentRoot := header.evmCommitmentRoot
      utxoCommitment := V.finalizeMultiset utxo.multisetHash }
  rw [hroot]
  refine verifyCommitments_of rfl ?_ (fun hcommits => ?_) fun hversion derived hderived => ?_
  · change calcAcceptedIdMerkleRoot V ctx.acceptedTxIds ctx.ghostdagData.selectedParent =
      calcAcceptedIdMerkleRoot V vs.acceptedTxIds vs.ghostdagData.selectedParent
    rw [hsp, hvs.acceptedTxIds]
  · change versionedOverlayCommitmentRoot V _ ctx.ghostdagData.selectedParent _ = root
    rw [hoverlay hcommits, hsp]
    exact (overlayRoot_eq hrows _ _).symm
  · constructor
    · change derivePalwBeaconStateValue V hash vs.daaScore ctx.ghostdagData.selectedParent
        bondView = some derived at hderived
      change derived.seed = if PALW_HEADER_VERSION ≤ templateVersion V vs.daaScore then
        ((V.palw.deriveBeaconStateCore vs.daaScore vs.ghostdagData.selectedParent bondView).map
          (·.seed)).getD 0 else 0
      change PALW_HEADER_VERSION ≤ templateVersion V vs.daaScore at hversion
      rw [if_pos hversion]
      unfold derivePalwBeaconStateValue at hderived
      split at hderived
      · cases hderived
      · split at hderived
        · cases hderived
        · rw [hsp] at hderived
          rw [hderived]
          rfl
    · change requiredAlgoId _ ≠ POW_ALGO_ID_PALW_REPLICA
      unfold requiredAlgoId
      split <;> decide

theorem templateHeader_fields {ctx : UtxoProcessingContext} {lt : List StakeBondRecord}
    {unixNow : ℕ} {utxo : UtxoState}
    (hstep : EvmStepOf V c ctx vs (templateHeader V vs bondView unixNow) header payload utxo)
    (hash : BlockHash) :
    let final : Header := { withOverlayCommitment V vs lt header with hash }
    final.daaScore = vs.daaScore ∧
      final.evmEnv = (templateHeader V vs bondView unixNow).evmEnv ∧
      final.evmCommitmentRoot = header.evmCommitmentRoot ∧
      final.pruningPoint = (V.expectedHeaderPruningPoint vs.ghostdagData).1 := by
  obtain ⟨root, hroot, -⟩ := @withOverlayCommitment_eq V vs lt header
  dsimp only
  rw [hroot, hstep.header_eq]
  exact ⟨rfl, rfl, rfl, rfl⟩

theorem exists_process_iff {ctx : UtxoProcessingContext} {lt : List StakeBondRecord}
    (hdep : Deployed V vs) (hversion : req.minerData.scriptPublicKey.version < 2 ^ 16)
    (hrows : SameRows lt lb) (hctx : calculateUtxoState V c lb m = .ok ctx)
    (hvs : VirtualOf V c ctx vs) (hnonDaa : vs.mergesetNonDaa = nonDaa)
    (h : buildBlockTemplate V vs c.bondView lt req = .ok template) (hash : BlockHash) :
    (∃ s, processChainBlock V c m lb nonDaa (template.block.mined hash) = .ok s) ↔
      TemplateSound V c ctx lb req.minerData
        (selectTransactions V vs c.bondView req.batches).txs := by
  obtain ⟨p, coinbase, header, payload, stale, data, hp, hcoinbase, hfields, hblock⟩ :=
    buildBlockTemplate_eq_ok h
  obtain ⟨utxo, hstep⟩ := evmTemplateFields_step hdep hvs rfl rfl
    (validate_prepareDepositClaims data.systemOps) hfields
  obtain ⟨hdaa, henv, hroot, hpruning⟩ := @templateHeader_fields V vs c.bondView c header payload
    ctx lt _ _ hstep hash
  have hcommit := verifyCommitments_template hrows hvs hstep hash
  have hinert := (expectedCoinbase_spec hcoinbase).1
  have hg : ctx.ghostdagData = vs.ghostdagData := by rw [hvs.ctx_ghostdagData, hvs.ghostdagData]
  have hms : mergesetRewardsOf ctx.ghostdagData ctx.mergesetRewards nonDaa =
      mergesetRewardsOf vs.ghostdagData vs.mergesetRewards vs.mergesetNonDaa := by
    rw [hg, hvs.mergesetRewards, hnonDaa]
  -- processing reaches verification with the bridge effects applied
  have hproc : (∃ s, processChainBlock V c m lb nonDaa (template.block.mined hash) = .ok s) ↔
      ∃ s, verifyExpectedUtxoState V { ctx with utxo } c.view c.bondView lb nonDaa
        { withOverlayCommitment V vs lt header with hash }
        (coinbase.tx :: (selectTransactions V vs c.bondView req.batches).txs) = .ok s := by
    have hevm := hstep.step _ hdaa henv hroot
    rw [hblock]
    constructor
    · rintro ⟨s, hs⟩
      obtain ⟨ctx', hctx', hevm', hv⟩ := processChainBlock_eq_ok.mp hs
      obtain rfl := Except.ok.inj (hctx.symm.trans hctx')
      obtain hs₁ := Except.ok.inj (hevm.symm.trans hevm')
      exact ⟨s.2, hs₁ ▸ hv⟩
    · rintro ⟨v, hv⟩
      exact ⟨(_, v), processChainBlock_eq_ok.mpr ⟨ctx, hctx, hevm, hv⟩⟩
  rw [hproc]
  generalize ({ withOverlayCommitment V vs lt header with hash } : Header) = final at *
  generalize hkept : (selectTransactions V vs c.bondView req.batches).txs = kept at *
  have hpay : blockPayouts V ctx.ghostdagData
      (mergesetRewardsOf ctx.ghostdagData ctx.mergesetRewards nonDaa) c.bondView lb
      (coinbase.tx :: kept) final.daaScore = .ok p := by
    rwa [hinert.blockPayouts_cons, ← blockPayouts_eq hrows, hms, hg, hdaa]
  have hcoin : verifyCoinbaseTransaction V
      (mergesetRewardsOf ctx.ghostdagData ctx.mergesetRewards nonDaa) p final.daaScore coinbase.tx =
        .ok () ↔ PayloadFits V req.minerData := by
    rw [hms, hdaa]
    exact verifyCoinbaseTransaction_eq_ok hcoinbase
      ⟨hdep.blueScore_lt, hdep.subsidy_lt _, hversion⟩ hdep.scriptLen_lt
  have hvalid (tx : Transaction) (htx : tx ∈ kept) : ∃ v, validateTransactionInUtxoContext V tx
      (compose c.view utxo.mergesetDiff) final.daaScore .full .off = .ok v := by
    rw [← hkept] at htx
    obtain ⟨v, hv⟩ := (judge_isKept (isKept_of_mem_selectTransactions htx)).1
    exact ⟨v, hdaa ▸ hstep.valid tx v hv⟩
  have hatt : checkAttestationRewardEligibility V.primitives V.dnsParams V.genesisHash kept
      c.bondView final.daaScore = .ok () := by
    rw [← hkept, hdaa]
    exact checkAttestationRewardEligibility_selectTransactions req.batches
  have hscore : final.daaScore = c.povDaaScore := hdaa.trans hvs.daaScore
  rw [exists_verify_iff, hinert.verifyBody_cons, verifyBody_eq_ok]
  constructor
  · rintro ⟨-, ⟨-, hinc, hev, hspend, hunbond⟩, p', hp', hcb, -⟩
    obtain rfl := Except.ok.inj (hpay.symm.trans hp')
    rw [hscore] at hinc hev hspend hunbond
    exact ⟨hcoin.mp hcb, hvs.ctx_ghostdagData ▸ hinc, hev, hspend, hunbond⟩
  · rintro ⟨hfits, hinc, hev, hspend, hunbond⟩
    rw [← hscore] at hinc hev hspend hunbond
    exact ⟨hcommit, ⟨hatt, hvs.ctx_ghostdagData ▸ hinc, hev, hspend, hunbond⟩, p, hpay,
      hcoin.mpr hfits, hg ▸ hpruning.symm, verifyTransactions_of_valid hvalid⟩

/-- A node's own template, mined and processed on top of the virtual block it was built on: whatever
the selector offered, it is accepted exactly when the template is sound. -/
theorem template_accepted_iff {c : AcceptanceContext} {m : MuHash}
    {lv lt lb : List StakeBondRecord} {nonDaa : List BlockHash} {time : ℕ} {req : TemplateRequest}
    {template : BlockTemplate} (hdep : Deployed V vs)
    (hversion : req.minerData.scriptPublicKey.version < 2 ^ 16)
    (hkeyed : c.bondView.bonds.WellKeyed) (hlv : c.bondView.Lists lv) (hlt : c.bondView.Lists lt)
    (hlb : c.bondView.Lists lb) (hvs : calculateVirtualState V c m lv nonDaa time = .ok vs)
    (h : buildBlockTemplate V vs c.bondView lt req = .ok template) (hash : BlockHash) :
    (∃ s, processChainBlock V c m lb nonDaa (template.block.mined hash) = .ok s) ↔
      ∃ ctx, calculateUtxoState V c lb m = .ok ctx ∧
        TemplateSound V c ctx lb req.minerData
          (selectTransactions V vs c.bondView req.batches).txs := by
  obtain ⟨ctx, hctx, hof, hnonDaa⟩ := virtualOf_of_calculate hvs
  rw [calculateUtxoState_eq (SameRows.of_lists hkeyed hlv hlb)] at hctx
  rw [exists_process_iff hdep hversion (SameRows.of_lists hkeyed hlt hlb) hctx hof hnonDaa h hash]
  constructor
  · exact fun hsound => ⟨ctx, hctx, hsound⟩
  · rintro ⟨ctx', hctx', hsound⟩
    obtain rfl := Except.ok.inj (hctx.symm.trans hctx')
    exact hsound

/-! ## Evidence in a template -/

def sampleValidator : TransactionValidator where
  maxTxInputs := 1000
  maxTxOutputs := 1000
  maxSignatureScriptLen := 10000
  maxScriptPublicKeyLen := 10000
  coinbasePayloadScriptPublicKeyMaxLen := 150
  coinbaseMaturity := 100
  ghostdagK := 18
  pqEnforced := true
  pqActivationDaaScore := 0
  palwLanePresent := false
  validatePalwOverlayTx _ _ _ := .error ""
  storageMass _ _ := some 0
  nonContextualMass _ := 0
  executeScript _ _ _ _ := .ok ()

def sampleProcessor (bodies : BlockHash → List Transaction) : VirtualProcessor where
  primitives := samplePrimitives
  validator := sampleValidator
  coinbaseManager := flatManager
  dnsParams := some sampleParams
  genesisHash := 0
  evm := ⟨U64_MAX, fun _ _ _ _ => .error "", fun w => w.evmTxHash, fun _ => false, fun _ => 0⟩
  maxBlockMass := 500000
  powBlake2bSha3Active _ := true
  palw := ⟨U64_MAX, true, fun _ _ _ => none, fun _ _ _ _ => false, fun _ _ _ _ => true,
    fun _ _ _ _ _ => .hashMiner, fun _ _ _ => none, fun _ _ root => root⟩
  blockTransactions := bodies
  chain block := [⟨⟨block, 1, 99⟩, [], 0⟩]
  acceptedTxsOfChainBlock _ := []
  acceptedIdMerkleRoot _ := 0
  persistedOverlay := none
  reserveBalance _ := none
  expectedHeaderPruningPoint _ := (0, 0)
  bridgeFinalityIsFresh _ := false
  transactionHash tx := tx.payload.length
  finalizeMultiset m := m.added.card
  idMerkleRoot ids := ids.sum
  idMerkleBranch a b := a + b

def sampleCoinbase : Transaction :=
  sampleOverlayTx 0 SUBNETWORK_ID_COINBASE (List.replicate CoinbaseManager.MIN_PAYLOAD_LENGTH 0)

def sampleBondRow : StakeBondRecord :=
  { (default : StakeBondRecord) with
    bondOutpoint := ⟨1, 0⟩
    validatorPubkeyHash := 7
    validatorPubkey := List.replicate STAKE_VALIDATOR_PUBKEY_LEN 7
    amount := 100 }

def sampleContext : AcceptanceContext where
  ghostdagData := ⟨1, 2, 0, [1], [], []⟩
  view o :=
    if o = ⟨20, 0⟩ then some ⟨5, p2pkhMldsa87Spk 3, 0, false⟩
    else if o = ⟨1, 0⟩ then some ⟨100, p2pkhMldsa87Spk 7, 0, false⟩
    else none
  bondView := ⟨Finmap.singleton ⟨1, 0⟩ sampleBondRow⟩
  povDaaScore := 100

def spendingEvidence (signer : UInt8) : Transaction :=
  { sampleEvidenceTx 30 7 signer 1 95 with inputs := [⟨⟨20, 0⟩, [], U64_MAX, 1⟩] }

def sampleRequest (batch : List Transaction) : TemplateRequest where
  minerData := ⟨p2pkhMldsa87Spk 3, []⟩
  buildMode := .standard
  evmTemplateData := .empty
  batches := [batch]
  isSuccessful := true
  unixNow := 0

def coinbaseOnly : VirtualProcessor := sampleProcessor fun _ => [sampleCoinbase]

theorem sampleContext_lists : sampleContext.bondView.Lists [sampleBondRow] := rfl

theorem sampleContext_wellKeyed : sampleContext.bondView.bonds.WellKeyed := by
  intro o rec h
  have ho : o = ⟨1, 0⟩ := by
    by_contra hne
    have hnone : sampleContext.bondView.bonds.lookup o = none :=
      Finmap.lookup_eq_none.mpr fun hmem => hne ((Finmap.mem_singleton o ⟨1, 0⟩ _).mp hmem)
    rw [hnone] at h
    cases h
  subst ho
  obtain rfl : sampleBondRow = rec := Option.some.inj h
  rfl

theorem sampleProcessor_deployed (bodies : BlockHash → List Transaction)
    (hblue : vs.ghostdagData.blueScore < 2 ^ 64) :
    Deployed (sampleProcessor bodies) vs where
  scriptLen_lt := by
    change flatManager.coinbasePayloadScriptPublicKeyMaxLen < 256
    decide
  subsidy_lt daa := by
    change flatManager.calcBlockSubsidy daa < 2 ^ 64
    have hone : flatManager.calcBlockSubsidy daa = 1 := by
      simp [CoinbaseManager.calcBlockSubsidy, flatManager]
    rw [hone]
    decide
  blueScore_lt := hblue
  bridge_pq _ := by
    change (true && decide (0 ≤ vs.daaScore)) = true
    simp
  withdrawals_fresh _ _ _ _ _ h := by cases h

/-- The mempool admits evidence its bond's validator did not sign, the template carries it, and the
node refuses its own block. -/
theorem forged_template_rejected :
    ∃ vs, calculateVirtualState coinbaseOnly sampleContext .empty [sampleBondRow] [] 0 = .ok vs ∧
      validateMempoolTransaction coinbaseOnly vs (fun _ _ => false) (fun _ => none)
        (spendingEvidence 9) = .ok (spendingEvidence 9, 5) ∧
      ∃ template, buildBlockTemplate coinbaseOnly vs sampleContext.bondView [sampleBondRow]
          (sampleRequest [spendingEvidence 9]) = .ok template ∧
        ∀ hash s, processChainBlock coinbaseOnly sampleContext .empty [sampleBondRow] []
          (template.block.mined hash) ≠ .ok s := by
  obtain ⟨vs, hvs, hmempool, template, ht, hkept⟩ : ∃ vs,
      calculateVirtualState coinbaseOnly sampleContext .empty [sampleBondRow] [] 0 = .ok vs ∧
      validateMempoolTransaction coinbaseOnly vs (fun _ _ => false) (fun _ => none)
        (spendingEvidence 9) = .ok (spendingEvidence 9, 5) ∧
      ∃ template, buildBlockTemplate coinbaseOnly vs sampleContext.bondView [sampleBondRow]
          (sampleRequest [spendingEvidence 9]) = .ok template ∧ spendingEvidence 9 ∈
        (selectTransactions coinbaseOnly vs sampleContext.bondView [[spendingEvidence 9]]).txs := by
    decide +kernel
  refine ⟨vs, hvs, hmempool, template, ht, fun hash s hs => ?_⟩
  obtain ⟨ctx, hctx, hof, hnonDaa⟩ := virtualOf_of_calculate hvs
  have hblue : vs.ghostdagData.blueScore < 2 ^ 64 := by
    rw [hof.ghostdagData]
    decide
  have hsound := (exists_process_iff (sampleProcessor_deployed _ hblue) (by decide)
    (SameRows.of_lists sampleContext_wellKeyed sampleContext_lists sampleContext_lists)
    hctx hof hnonDaa ht hash).mp ⟨s, hs⟩
  have hgenuine := (checkSlashingEvidenceGenuine_eq_ok (by decide)).mp hsound.evidence _ hkept
  exact absurd hgenuine (by decide +kernel)

/-- With evidence the validator signed the same template is accepted. -/
theorem genuine_template_accepted :
    ∃ vs, calculateVirtualState coinbaseOnly sampleContext .empty [sampleBondRow] [] 0 = .ok vs ∧
      ∃ template, buildBlockTemplate coinbaseOnly vs sampleContext.bondView [sampleBondRow]
          (sampleRequest [spendingEvidence 7]) = .ok template ∧
        ∃ s, processChainBlock coinbaseOnly sampleContext .empty [sampleBondRow] []
          (template.block.mined 9) = .ok s := by
  obtain ⟨vs, hvs, hblue, template, ht, hsound⟩ : ∃ vs,
      calculateVirtualState coinbaseOnly sampleContext .empty [sampleBondRow] [] 0 = .ok vs ∧
      vs.ghostdagData.blueScore < 2 ^ 64 ∧
      ∃ template, buildBlockTemplate coinbaseOnly vs sampleContext.bondView [sampleBondRow]
          (sampleRequest [spendingEvidence 7]) = .ok template ∧
        ∃ ctx, calculateUtxoState coinbaseOnly sampleContext [sampleBondRow] .empty = .ok ctx ∧
          TemplateSound coinbaseOnly sampleContext ctx [sampleBondRow]
            (sampleRequest [spendingEvidence 7]).minerData (selectTransactions coinbaseOnly vs
              sampleContext.bondView (sampleRequest [spendingEvidence 7]).batches).txs := by
    decide +kernel
  exact ⟨vs, hvs, template, ht,
    (template_accepted_iff (sampleProcessor_deployed _ hblue) (by decide)
      sampleContext_wellKeyed sampleContext_lists sampleContext_lists sampleContext_lists hvs ht
      9).mpr hsound⟩

end Misaka.Pipeline
