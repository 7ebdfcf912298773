import Misaka.Dns.MandatoryInclusion
import Misaka.Pipeline.Bridge
import Misaka.Pipeline.TxValidator

/-!
# What a block accepts

`calculate_utxo_state` of `utxo_validation.rs`: a block, or the virtual block, accepts the coinbase
of its selected parent and, out of the bodies of its whole mergeset, every transaction that is valid
in the UTXO view built up so far. No overlay rule is asked here.
-/

namespace Misaka.Pipeline

open Misaka.Core Dns List

/-- What GHOSTDAG says of a block; the mergeset is listed in consensus order, without the selected
parent. -/
structure GhostdagData where
  selectedParent : BlockHash
  blueScore : ℕ
  blueWork : ℕ
  mergesetBlues : List BlockHash
  mergesetReds : List BlockHash
  orderedMergeset : List BlockHash
  deriving DecidableEq, Repr

structure PalwBeaconState where
  epoch : ℕ
  seed : Hash64
  halted : Bool
  degradedEpochs : ℕ
  deriving DecidableEq, Repr

/-- The replica lane as the other rules see it. Its state is read as of a selected parent; what a
gate or a classification remembers within one block is the list of what it was asked before. -/
structure PalwLane where
  activationDaaScore : ℕ
  /-- `palw_spam.is_inert()`. -/
  spamInert : Bool
  /-- `ProviderUnbondAuthFilter::unauthorized`. -/
  unauthorizedUnbond : BlockHash → ℕ → Transaction → Option TransactionOutpoint
  /-- `ProviderBondSpendFilter::locks`, over the bonds declared by the raw mergeset. -/
  locksProviderBond : BlockHash → ℕ → List Transaction → TransactionOutpoint → Bool
  /-- `PalwDaAcceptanceGate::allows`, after the transactions already presented. -/
  daAllows : BlockHash → ℕ → List Transaction → Transaction → Bool
  /-- `palw_work_reward_class`, after the blocks already classified. -/
  workRewardClass : BlockHash → ℕ → Option PalwBeaconState → List BlockHash → BlockHash →
    WorkRewardClass
  /-- `derive_palw_beacon_state_core`. -/
  deriveBeaconStateCore : ℕ → BlockHash → ActiveBondView → Option PalwBeaconState
  /-- What headers of version 3 and 4 commit to over the legacy overlay root. -/
  wrapOverlayRoot : UInt16 → BlockHash → Hash64 → Hash64

structure VirtualProcessor where
  primitives : Primitives
  validator : TransactionValidator
  coinbaseManager : CoinbaseManager
  dnsParams : Option DnsParams
  genesisHash : BlockHash
  evm : EvmLane
  maxBlockMass : ℕ
  /-- `pow_blake2b_sha3_activation.is_active`. -/
  powBlake2bSha3Active : ℕ → Bool
  palw : PalwLane
  /-- Bodies by block, the coinbase first. -/
  blockTransactions : BlockHash → List Transaction
  /-- The selected chain below a block, the block first. -/
  chain : BlockHash → List ChainEntry
  /-- `accepted_txs_of_chain_block`. -/
  acceptedTxsOfChainBlock : BlockHash → List Transaction
  acceptedIdMerkleRoot : BlockHash → Hash64
  persistedOverlay : Option PersistedOverlay
  reserveBalance : BlockHash → Option ℕ
  /-- `expected_header_pruning_point`: the point, and the sample to store. -/
  expectedHeaderPruningPoint : GhostdagData → BlockHash × BlockHash
  /-- `bridge_finality_is_fresh`. -/
  bridgeFinalityIsFresh : ℕ → Bool
  /-- `hashing::tx::hash`. -/
  transactionHash : Transaction → Hash64
  /-- `MuHash::finalize`. -/
  finalizeMultiset : MuHash → Hash64
  /-- `calc_accepted_id_merkle_root_pre_crescendo`. -/
  idMerkleRoot : List TransactionId → Hash64
  /-- `AcceptedIdMerkleBranchHash64` of the parent's root and the leaves' root. -/
  idMerkleBranch : Hash64 → Hash64 → Hash64

namespace PalwLane

def active (L : PalwLane) (daaScore : ℕ) : Bool :=
  L.activationDaaScore ≠ U64_MAX && L.activationDaaScore ≤ daaScore

end PalwLane

structure AcceptanceFilters where
  bondSpend : Option (TransactionOutpoint → Bool)
  providerUnbond : Option (Transaction → Option TransactionOutpoint)
  providerBondSpend : Option (TransactionOutpoint → Bool)

def AcceptanceFilters.off : AcceptanceFilters := ⟨none, none, none⟩

structure ValidatedTransaction where
  tx : Transaction
  entries : List UtxoEntry
  calculatedFee : ℕ
  deriving DecidableEq

def lockedInput (locks : Option (TransactionOutpoint → Bool)) (tx : Transaction) :
    Option TransactionOutpoint :=
  locks.bind fun l => (tx.inputs.map (·.previousOutpoint)).find? l

def rejectSome (found : Option TransactionOutpoint) (e : TransactionOutpoint → TxRuleError) :
    Except TxRuleError Unit :=
  found.elim (.ok ()) fun o => .error (e o)

def populate (view : UtxoView) (tx : Transaction) : Except TxRuleError (List UtxoEntry) :=
  (tx.inputs.mapM fun input => view input.previousOutpoint).elim (.error .missingTxOutpoints) .ok

variable (V : VirtualProcessor)

/-- The filters, and the rules over the spent entries. -/
def validateTransactionInUtxoContext (tx : Transaction) (view : UtxoView) (povDaaScore : ℕ)
    (flags : TxValidationFlags) (filters : AcceptanceFilters) :
    Except TxRuleError ValidatedTransaction := do
  rejectSome (filters.providerUnbond.bind (· tx)) .unauthorizedProviderUnbond
  let entries ← populate view tx
  rejectSome (lockedInput filters.bondSpend tx) .spendsNonReleasableBond
  rejectSome (lockedInput filters.providerBondSpend tx) .spendsNonReleasableProviderBond
  let fee ← V.validator.validatePopulatedTransactionAndGetFee tx entries povDaaScore flags
    fun _ => false
  return ⟨tx, entries, fee⟩

/-- `validate_transactions_in_parallel`: the valid transactions of a body behind the coinbase, with
their positions. -/
def validateTransactions (txs : List Transaction) (view : UtxoView) (povDaaScore : ℕ)
    (flags : TxValidationFlags) (filters : AcceptanceFilters) : List (ValidatedTransaction × ℕ) :=
  (txs.zipIdx.drop 1).filterMap fun p =>
    (validateTransactionInUtxoContext V p.1 view povDaaScore flags filters).toOption.map (·, p.2)

inductive AcceptanceFault where
  | emptyBody (block : BlockHash)
  | utxoAlgebra (e : UtxoAlgebraError)
  | feeOverflow
  | coinbasePayload (e : CoinbaseError)
  deriving DecidableEq, Repr

structure MergesetBlockAcceptanceData where
  blockHash : BlockHash
  acceptedTransactions : List (TransactionId × ℕ)
  deriving DecidableEq, Repr

structure AcceptanceState where
  utxo : UtxoState
  acceptedTxIds : List TransactionId
  acceptanceData : List MergesetBlockAcceptanceData
  rewards : Table BlockHash BlockRewardData
  presented : List Transaction
  classified : List BlockHash

structure AcceptanceContext where
  ghostdagData : GhostdagData
  view : UtxoView
  bondView : ActiveBondView
  povDaaScore : ℕ

def GhostdagData.mergeset (g : GhostdagData) : List BlockHash :=
  g.selectedParent :: g.orderedMergeset

/-- A merged block of the loop, with `is_selected_parent`. -/
structure MergedBlock where
  hash : BlockHash
  isSelectedParent : Bool
  deriving DecidableEq, Repr

def GhostdagData.mergedBlocks (g : GhostdagData) : List MergedBlock :=
  ⟨g.selectedParent, true⟩ :: g.orderedMergeset.map (⟨·, false⟩)

def rawMergesetTxs (g : GhostdagData) : List Transaction := g.mergeset.flatMap V.blockTransactions

/-- `BondSpendFilter::locks` of the view the mergeset gate is evaluated against: the selected
parent's bonds and every bond the raw mergeset declares. Absent below the fence. -/
def bondSpendFilter (c : AcceptanceContext) : Option (TransactionOutpoint → Bool) :=
  match V.dnsParams with
  | none => none
  | some params =>
    if params.bondSpendGateMergesetActivationDaaScore ≤ c.povDaaScore ∧
        params.dnsActivationDaaScore ≤ c.povDaaScore then
      let inserts := (bondMutationsFromAcceptedTxs V.primitives (rawMergesetTxs V c.ghostdagData)
        c.povDaaScore params.minBondAmountSompi params.unbondingPeriodBlocks).filter
          (·.inserted.isSome)
      let view := c.bondView.apply inserts
      some fun o => (view.get o).any fun bond => !isReleasable bond c.povDaaScore
    else none

def acceptanceFilters (c : AcceptanceContext) : AcceptanceFilters :=
  let sp := c.ghostdagData.selectedParent
  if V.palw.active c.povDaaScore then
    ⟨bondSpendFilter V c, some (V.palw.unauthorizedUnbond sp c.povDaaScore),
      some (V.palw.locksProviderBond sp c.povDaaScore (rawMergesetTxs V c.ghostdagData))⟩
  else ⟨bondSpendFilter V c, none, none⟩

/-- The data-availability gate, where there is one: which of the validated transactions it allows,
and everything it has been asked so far. -/
def daGate (allows : List Transaction → Transaction → Bool) :
    List Transaction → List (ValidatedTransaction × ℕ) →
      List (ValidatedTransaction × ℕ) × List Transaction
  | presented, [] => ([], presented)
  | presented, v :: vs =>
    let rest := daGate allows (presented ++ [v.1.tx]) vs
    (if allows presented v.1.tx then v :: rest.1 else rest.1, rest.2)

def addAccepted (povDaaScore : ℕ) (diff : UtxoDiff) (v : ValidatedTransaction) :
    Except AcceptanceFault UtxoDiff :=
  (diff.addTransaction (V.primitives.transactionId v.tx) v.tx v.entries povDaaScore).mapError
    .utxoAlgebra

/-- A sum of fees; a `u64` addition that overflows panics. -/
def sumFees (fees : List ℕ) : Except AcceptanceFault ℕ :=
  fees.foldlM
    (fun acc fee => if acc + fee ≤ U64_MAX then .ok (acc + fee) else .error .feeOverflow) 0

def finalityFeeActive (povDaaScore : ℕ) : Bool :=
  V.evm.activationDaaScore ≤ povDaaScore &&
    V.dnsParams.any (·.finalityFeeActivationDaaScore ≤ povDaaScore)

def createsDepositLock (tx : Transaction) : Bool :=
  tx.outputs.any fun out => (parseEvmDepositLock out.scriptPublicKey).isSome

def povBeacon (c : AcceptanceContext) : Option PalwBeaconState :=
  let sp := c.ghostdagData.selectedParent
  if V.palw.active c.povDaaScore && sp ≠ V.genesisHash then
    V.palw.deriveBeaconStateCore c.povDaaScore sp c.bondView
  else none

def acceptedFrom (c : AcceptanceContext) (s : AcceptanceState) (block : MergedBlock) :
    List (ValidatedTransaction × ℕ) × List Transaction :=
  let flags : TxValidationFlags := if block.isSelectedParent then .skipScriptChecks else .full
  let validated := validateTransactions V (V.blockTransactions block.hash)
    (compose c.view s.utxo.mergesetDiff) c.povDaaScore flags (acceptanceFilters V c)
  if V.palw.active c.povDaaScore && !V.palw.spamInert then
    daGate (V.palw.daAllows c.ghostdagData.selectedParent c.povDaaScore) s.presented validated
  else (validated, s.presented)

/-- One turn of the acceptance loop. The selected parent's entry starts with the coinbase, accepted
before the loop. -/
def acceptBlock (c : AcceptanceContext) (s : AcceptanceState) (block : MergedBlock) :
    Except AcceptanceFault AcceptanceState :=
  match V.blockTransactions block.hash with
  | [] => .error (.emptyBody block.hash)
  | coinbase :: _ => do
    let (accepted, presented) := acceptedFrom V c s block
    let multiset := accepted.foldl (fun m v => m.combine (.ofTransaction
      (V.primitives.transactionId v.1.tx) v.1.tx v.1.entries c.povDaaScore)) s.utxo.multisetHash
    let diff ← accepted.foldlM (fun d v => addAccepted V c.povDaaScore d v.1) s.utxo.mergesetDiff
    let blockFee ← sumFees (accepted.map (·.1.calculatedFee))
    let finalityFee ← sumFees ((accepted.filter fun v =>
      finalityFeeActive V c.povDaaScore && createsDepositLock v.1.tx).map (·.1.calculatedFee))
    let entries := accepted.map fun v => (V.primitives.transactionId v.1.tx, v.2)
    let first := if block.isSelectedParent then [(V.primitives.transactionId coinbase, 0)] else []
    let data ← (V.coinbaseManager.deserializeCoinbasePayload coinbase.payload).mapError
      .coinbasePayload
    let cls := V.palw.workRewardClass c.ghostdagData.selectedParent c.povDaaScore (povBeacon V c)
      s.classified block.hash
    return {
      utxo := ⟨diff, multiset⟩
      acceptedTxIds := s.acceptedTxIds ++ entries.map Prod.fst
      acceptanceData := s.acceptanceData ++ [⟨block.hash, first ++ entries⟩]
      rewards := s.rewards.insert block.hash
        ⟨data.subsidy, blockFee, finalityFee, data.minerData.scriptPublicKey, cls⟩
      presented := presented
      classified := s.classified ++ [block.hash] }

structure UtxoProcessingContext where
  ghostdagData : GhostdagData
  utxo : UtxoState
  acceptedTxIds : List TransactionId
  mergesetAcceptanceData : List MergesetBlockAcceptanceData
  mergesetRewards : Table BlockHash BlockRewardData
  reserveAccrual : ℕ

def acceptedTxsFromAcceptanceData (data : List MergesetBlockAcceptanceData) : List Transaction :=
  data.flatMap fun m => m.acceptedTransactions.filterMap fun e =>
    (V.blockTransactions m.blockHash)[e.2]?

/-- The coinbase of the selected parent comes first. -/
def acceptCoinbase (c : AcceptanceContext) (parentMultiset : MuHash) :
    Except AcceptanceFault AcceptanceState :=
  match V.blockTransactions c.ghostdagData.selectedParent with
  | [] => .error (.emptyBody c.ghostdagData.selectedParent)
  | coinbase :: _ => do
    let diff ← addAccepted V c.povDaaScore .empty ⟨coinbase, [], 0⟩
    let id := V.primitives.transactionId coinbase
    return ⟨⟨diff, parentMultiset.combine (.ofTransaction id coinbase [] c.povDaaScore)⟩, [id], [],
      ∅, [], []⟩

def settlementOn (params : DnsParams) (selectedParent : BlockHash)
    (records : List StakeBondRecord) (daaScore : ℕ) : SettlementInput :=
  settlementInput params V.persistedOverlay (V.chain selectedParent) records daaScore

def slashingWindow (c : AcceptanceContext) (records : List StakeBondRecord) : SettlementInput :=
  settlementOn V (V.dnsParams.getD default) c.ghostdagData.selectedParent records c.povDaaScore

/-- The mergeset's transactions, accepted in order. -/
def calculateUtxoState (c : AcceptanceContext) (records : List StakeBondRecord)
    (parentMultiset : MuHash) : Except AcceptanceFault UtxoProcessingContext := do
  let start ← acceptCoinbase V c parentMultiset
  let s ← c.ghostdagData.mergedBlocks.foldlM (acceptBlock V c) start
  let (utxo, accrual) ← (applySlashingSideEffects V.primitives V.dnsParams
    (slashingWindow V c records) (acceptedTxsFromAcceptanceData V s.acceptanceData) c.bondView
    c.view c.povDaaScore s.utxo).mapError .utxoAlgebra
  return ⟨c.ghostdagData, utxo, s.acceptedTxIds, s.acceptanceData, s.rewards, accrual⟩

variable {pov : ℕ} {filters : AcceptanceFilters}

variable {entries : List UtxoEntry} {v : ValidatedTransaction × ℕ} {s : AcceptanceState}
  {block : MergedBlock}

section Views

variable {V : VirtualProcessor} {view view' : UtxoView} {tx : Transaction}

theorem populate_eq_ok : populate view tx = .ok entries ↔
    List.Forall₂ (fun input entry => view input.previousOutpoint = some entry) tx.inputs
      entries := by
  rw [← mapM_eq_some, populate]
  cases tx.inputs.mapM fun input => view input.previousOutpoint <;> simp

theorem mem_of_populate (h : populate view tx = .ok entries) {input : TransactionInput}
    (hinput : input ∈ tx.inputs) : ∃ entry ∈ entries, view input.previousOutpoint = some entry :=
  exists_of_mem_left (populate_eq_ok.mp h) hinput

theorem populate_congr
    (h : ∀ input ∈ tx.inputs, view' input.previousOutpoint = view input.previousOutpoint) :
    populate view' tx = populate view tx := by
  have hmap (inputs : List TransactionInput)
      (h : ∀ input ∈ inputs, view' input.previousOutpoint = view input.previousOutpoint) :
      (inputs.mapM fun input => view' input.previousOutpoint) =
        inputs.mapM fun input => view input.previousOutpoint := by
    induction inputs with
    | nil => rfl
    | cons a inputs ih =>
      rw [mapM_cons, mapM_cons, h a mem_cons_self,
        ih (forall_mem_cons.mp h).2]
  unfold populate
  rw [hmap tx.inputs h]

theorem validateTransactionInUtxoContext_congr {flags : TxValidationFlags}
    (h : ∀ input ∈ tx.inputs, view' input.previousOutpoint = view input.previousOutpoint) :
    validateTransactionInUtxoContext V tx view' pov flags filters =
      validateTransactionInUtxoContext V tx view pov flags filters := by
  unfold validateTransactionInUtxoContext
  rw [populate_congr h]

theorem validateTransactionInUtxoContext_off_eq_ok {flags : TxValidationFlags}
    {v : ValidatedTransaction}
    (h : validateTransactionInUtxoContext V tx view pov flags .off = .ok v) :
    ∃ entries, populate view tx = .ok entries ∧ ∃ fee,
      V.validator.validatePopulatedTransactionAndGetFee tx entries pov flags
        (fun _ => false) = .ok fee := by
  simp only [validateTransactionInUtxoContext, bind_eq_ok] at h
  obtain ⟨_, -, entries, hentries, _, -, _, -, fee, hfee, -⟩ := h
  exact ⟨entries, hentries, fee, hfee⟩

end Views

section Listing

variable {V : VirtualProcessor} {l l' : List StakeBondRecord}

theorem slashingEffects_eq (h : SameRows l l') (params : DnsParams) (sp : BlockHash)
    (accepted : List Transaction) (bondView : ActiveBondView) (daa : ℕ) :
    slashingEffects V.primitives params (settlementOn V params sp l daa) accepted bondView daa =
      slashingEffects V.primitives params (settlementOn V params sp l' daa) accepted bondView
        daa := by
  have hvictims : slashedEpochVictimOutputs params (settlementOn V params sp l daa) =
      slashedEpochVictimOutputs params (settlementOn V params sp l' daa) := by
    funext epoch payload pool
    unfold slashedEpochVictimOutputs settlementOn settlementInput
    dsimp only
    rw [h.recomputeEpochTallies_eq]
  have hwith : withVictims params (settlementOn V params sp l daa) bondView =
      withVictims params (settlementOn V params sp l' daa) bondView := by
    funext e
    unfold withVictims
    rw [hvictims]
  unfold slashingEffects
  rw [hwith]

theorem calculateUtxoState_eq (h : SameRows l l') (c : AcceptanceContext)
    (parentMultiset : MuHash) :
    calculateUtxoState V c l parentMultiset = calculateUtxoState V c l' parentMultiset := by
  have hside (accepted : List Transaction) (s : UtxoState) :
      applySlashingSideEffects V.primitives V.dnsParams (slashingWindow V c l) accepted c.bondView
          c.view c.povDaaScore s =
        applySlashingSideEffects V.primitives V.dnsParams (slashingWindow V c l') accepted
          c.bondView c.view c.povDaaScore s := by
    unfold applySlashingSideEffects
    cases hparams : V.dnsParams with
    | none => rfl
    | some params =>
      have hwindow (r : List StakeBondRecord) : slashingWindow V c r =
          settlementOn V params c.ghostdagData.selectedParent r c.povDaaScore := by
        rw [slashingWindow, hparams, Option.getD_some]
      simp only [hwindow, slashingEffects_eq h]
  unfold calculateUtxoState
  simp only [hside]

end Listing

section Accepted

variable {V : VirtualProcessor} {c : AcceptanceContext}

def acceptMultiset (V : VirtualProcessor) (povDaaScore : ℕ) (m : MuHash)
    (vs : List (ValidatedTransaction × ℕ)) : MuHash :=
  vs.foldl (fun m v => m.combine (.ofTransaction (V.primitives.transactionId v.1.tx) v.1.tx
    v.1.entries povDaaScore)) m

theorem daGate_sublist (allows : List Transaction → Transaction → Bool)
    (presented : List Transaction) (vs : List (ValidatedTransaction × ℕ)) :
    (daGate allows presented vs).1.Sublist vs := by
  induction vs generalizing presented with
  | nil => exact List.Sublist.refl _
  | cons v vs ih =>
    simp only [daGate]
    split
    · exact (ih _).cons_cons v
    · exact (ih _).cons v

def MergedBlock.flags (block : MergedBlock) : TxValidationFlags :=
  if block.isSelectedParent then .skipScriptChecks else .full

theorem acceptedFrom_sublist (s : AcceptanceState) (block : MergedBlock) :
    (acceptedFrom V c s block).1.Sublist
      (validateTransactions V (V.blockTransactions block.hash) (compose c.view s.utxo.mergesetDiff)
        c.povDaaScore block.flags (acceptanceFilters V c)) := by
  unfold acceptedFrom
  dsimp only
  split
  · exact daGate_sublist _ _ _
  · exact List.Sublist.refl _

theorem validateTransactionInUtxoContext_tx {tx : Transaction} {view : UtxoView}
    {flags : TxValidationFlags} {v : ValidatedTransaction}
    (h : validateTransactionInUtxoContext V tx view pov flags filters = .ok v) :
    v.tx = tx := by
  simp only [validateTransactionInUtxoContext, bind_eq_ok] at h
  obtain ⟨_, -, entries, -, _, -, _, -, fee, -, hv⟩ := h
  cases hv
  rfl

theorem tx_mem_of_mem_acceptedFrom (hv : v ∈ (acceptedFrom V c s block).1) :
    v.1.tx ∈ V.blockTransactions block.hash := by
  obtain ⟨⟨tx, i⟩, hp, heq⟩ := mem_filterMap.mp ((acceptedFrom_sublist s block).subset hv)
  obtain ⟨w, hw, rfl⟩ := Option.map_eq_some_iff.mp heq
  rw [validateTransactionInUtxoContext_tx (toOption_eq_some.mp hw)]
  exact fst_mem_of_mem_zipIdx (mem_of_mem_drop hp)

theorem acceptBlock_eq_ok {s' : AcceptanceState} (h : acceptBlock V c s block = .ok s') :
    s'.utxo.multisetHash = acceptMultiset V c.povDaaScore s.utxo.multisetHash
        (acceptedFrom V c s block).1 ∧
      (acceptedFrom V c s block).1.foldlM (fun d v => addAccepted V c.povDaaScore d v.1)
        s.utxo.mergesetDiff = .ok s'.utxo.mergesetDiff ∧
      ∃ first, (∀ e ∈ first, e.2 = 0) ∧ s'.acceptanceData = s.acceptanceData ++ [⟨block.hash,
        first ++ (acceptedFrom V c s block).1.map fun v =>
          (V.primitives.transactionId v.1.tx, v.2)⟩] := by
  unfold acceptBlock at h
  split at h
  · cases h
  · simp only [bind_eq_ok] at h
    obtain ⟨diff, hdiff, _, -, _, -, _, -, hs'⟩ := h
    cases hs'
    refine ⟨rfl, hdiff, _, fun e he => ?_, rfl⟩
    split at he
    · rw [mem_singleton.mp he]
    · cases he

end Accepted

end Misaka.Pipeline
