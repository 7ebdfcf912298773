import Misaka.Palw.BeaconFold
import Misaka.Palw.DaRun
import Misaka.Palw.Lifecycle

/-!
# The replica lane along a selected chain

What the virtual processor does to the lane's state at a chain block: `stage_palw_da_effects`
applies the accepted challenges, responses and timeouts, then `commit_palw_overlay_effects` walks
the accepted overlay effects through the lifecycle view.
-/

namespace Misaka.Palw

open Misaka.Core Dns List

variable (P : PalwPrimitives)

inductive PalwDaOverlayEffect where
  | challenge (challenge : PalwDaChallengeV1)
  | response (response : PalwDaResponseV1)
  | timeout (evidence : PalwDaTimeoutEvidenceV1)
  deriving DecidableEq, Repr

/-- The failures of `PalwDaProcessError` that the chain walk can meet. -/
inductive PalwDaProcessError where
  | core (e : PalwDaError)
  | decode
  | unhandledSubnet (byte : UInt8)
  | missingBond
  deriving DecidableEq, Repr

def daParsed {α : Type} (decoded : Option α) (effect : α → PalwDaOverlayEffect) :
    Except PalwDaProcessError PalwDaOverlayEffect :=
  decoded.elim (.error .decode) fun a => .ok (effect a)

def parsePalwDaEffect (subnetworkByte : UInt8) (payload : Bytes) :
    Except PalwDaProcessError PalwDaOverlayEffect :=
  if subnetworkByte = 0x3a then daParsed (P.decodeDaChallenge payload) .challenge
  else if subnetworkByte = 0x3b then daParsed (P.decodeDaResponse payload) .response
  else if subnetworkByte = 0x3c then daParsed (P.decodeDaTimeoutEvidence payload) .timeout
  else .error (.unhandledSubnet subnetworkByte)

structure PalwDaApplyContext where
  networkId : ℕ
  currentDaaScore : ℕ
  currentEpoch : ℕ
  policy : PalwDaPolicyV1
  providerBonds : ProviderBondView

def PalwDaStateV1.outcome (s : PalwDaStateV1) (result : Except PalwDaError PalwDaStateV1) :
    PalwDaStateV1 × Except PalwDaProcessError (Option PalwProviderBondMutation) :=
  match result with
  | .ok s' => (s', .ok none)
  | .error e => (s, .error (.core e))

def applyPalwDaEffect (ctx : PalwDaApplyContext) (s : PalwDaStateV1) :
    PalwDaOverlayEffect →
      PalwDaStateV1 × Except PalwDaProcessError (Option PalwProviderBondMutation)
  | .challenge challenge =>
    match ctx.providerBonds.lookup challenge.challengerBond with
    | none => (s, .error .missingBond)
    | some challenger =>
      s.outcome (s.applyChallenge P challenge challenger ctx.networkId ctx.currentDaaScore
        ctx.currentEpoch ctx.policy)
  | .response response =>
    match ctx.providerBonds.lookup response.providerBond with
    | none => (s, .error .missingBond)
    | some provider =>
      s.outcome (s.applyResponse P response provider ctx.networkId ctx.currentDaaScore)
  | .timeout evidence =>
    let outcome := s.applyTimeoutEvidence P evidence ctx.networkId ctx.currentDaaScore
    (outcome.1, (outcome.2.mapError .core).map some)

/-- Why `palw_overlay_commit_fail_stop` stops the process. -/
inductive PalwFailStop where
  | parentStateInvalid
  | blockSlashDelta (e : PalwDaError)
  | stagedStateInvalid
  | acceptedLifecycleMissing
  | leafCapacity (batchId : Hash64) (leafIndex : ℕ)
  | leafRegistration (batchId : Hash64) (leafIndex : ℕ) (e : PalwDaError)
  | lifecycleViewMissing
  | committedStateInvalid
  deriving DecidableEq, Repr

structure PalwDaStaged where
  certificateState : PalwDaStateV1
  state : PalwDaStateV1
  slashMutations : List PalwProviderBondMutation

def pastRelative (parent : PalwDaStateV1) : PalwDaOverlayEffect → Bool
  | .challenge challenge => (parent.obligations.lookup challenge.obligationId).isSome
  | .response response => (parent.challenges.lookup response.challengeId).any (·.status = .open)
  | .timeout evidence => (parent.challenges.lookup evidence.challengeId).any (·.status = .open)

def recordSlash (staged : PalwDaStaged) (providerBond : TransactionOutpoint) (daaScore : ℕ) :
    Except PalwFailStop PalwDaStaged := do
  let alreadyRecorded := staged.state.blockSlashedProviders.contains providerBond
  let state ← (staged.state.recordBlockSlash providerBond).mapError .blockSlashDelta
  return { staged with
    state := state
    slashMutations :=
      if alreadyRecorded then staged.slashMutations
      else staged.slashMutations ++ [.slash providerBond daaScore] }

/-- One past-relative effect of `stage_palw_da_effects`; a refused effect is inert. -/
def stageEffect (ctx : PalwDaApplyContext) (staged : PalwDaStaged) (effect : PalwDaOverlayEffect) :
    Except PalwFailStop PalwDaStaged :=
  let outcome := applyPalwDaEffect P ctx staged.state effect
  match outcome.2 with
  | .ok (some (.slash providerBond daaScore)) =>
    recordSlash { staged with state := outcome.1 } providerBond daaScore
  | _ => .ok { staged with state := outcome.1 }

def stagedEffect? (parent : PalwDaStateV1) (tx : Transaction) : Option PalwDaOverlayEffect :=
  tx.subnetworkId.palwTxKind.bind fun kind =>
    (parsePalwDaEffect P kind tx.payload).toOption.filter (pastRelative parent)

/-- One accepted transaction of `stage_palw_da_effects`. -/
def stageTx (ctx : PalwDaApplyContext) (staged : PalwDaStaged) (tx : Transaction) :
    Except PalwFailStop PalwDaStaged :=
  match stagedEffect? P staged.certificateState tx with
  | none => .ok staged
  | some effect => stageEffect P ctx staged effect

def stagePalwDaEffects (ctx : PalwDaApplyContext) (parent : PalwDaStateV1)
    (txs : List Transaction) : Except PalwFailStop PalwDaStaged := do
  failIf (!parent.validateStructure P) .parentStateInvalid
  let staged ← txs.foldlM (stageTx P ctx) ⟨parent, parent.beginChildBlock, []⟩
  failIf (!staged.state.validateStructure P) .stagedStateInvalid
  return staged

def PalwBatchCertificateV2.hash (c : PalwBatchCertificateV2) : Hash64 :=
  P.blake2b512Keyed PALW_LEAF_DOMAIN (P.encodeCertificate c)

def palwV4LeafChunkMatchesCanonicalSpan (chunk : PalwLeafChunkV1) (lifecycle : PalwBatchLifecycleV1)
    (maxLeafChunkLeaves : ℕ) : Bool :=
  let spanStart := chunk.chunkIndex * maxLeafChunkLeaves
  let spanEnd := min (spanStart + maxLeafChunkLeaves) lifecycle.leafCount
  chunk.version == PALW_LEAF_CHUNK_VERSION_V2 && chunk.chunkIndex < lifecycle.chunkCount &&
    chunk.proofs.length == chunk.leaves.length && maxLeafChunkLeaves ≠ 0 &&
    lifecycle.chunkCount == divCeil lifecycle.leafCount maxLeafChunkLeaves &&
    spanStart < spanEnd && chunk.leaves.length == spanEnd - spanStart &&
    chunk.leaves.zipIdx.all fun (leaf, offset) => leaf.leafIndex == spanStart + offset

def palwV4AllPassSummary (c : PalwBatchCertificateV2) (entry : PalwBatchLifecycleV1) : Bool :=
  c.passedLeafCount == entry.leafCount && c.rejectedLeafBitmapRoot == 0

/-- An accepted transaction, the DAA score of the merged block that carries it, and whether
`apply_palw_overlay_effect` takes its effect: the content store and the auditors' votes. -/
structure CarriedTx where
  tx : Transaction
  carrierDaaScore : ℕ
  contentApplies : Bool

structure OverlayWalk where
  acceptedView : Option PalwBatchViewV1
  acceptedLeaves : List PalwPublicLeafV1
  certifiedBatches : List Hash64

structure PalwProcessor where
  palwActivationDaaScore : ℕ
  palwEpochLengthDaa : ℕ
  palwNetworkId : ℕ
  palwBatchAdmission : PalwBatchAdmissionParams

def parentAllowsLeaf (V : PalwProcessor) (parent : PalwBatchViewV1) (chunk : PalwLeafChunkV1) :
    Bool :=
  (parent.entry chunk.batchId).any fun entry =>
    entry.status == .registering &&
      palwV4LeafChunkMatchesCanonicalSpan chunk entry V.palwBatchAdmission.maxLeafChunkLeaves

def parentAllowsCertificate (parent : PalwBatchViewV1) (batchId : Hash64) : Bool :=
  (parent.entry batchId).any (·.status.certifiable)

/-- The transition of the accepted view, before the content check; `none` refuses the effect. -/
def transitionedView (V : PalwProcessor) (parent view : PalwBatchViewV1) (carrierEpoch : ℕ) :
    PalwOverlayEffect → Option PalwBatchViewV1
  | .manifest manifest => view.applyManifest P manifest carrierEpoch V.palwBatchAdmission
  | .leafChunk chunk =>
    if parentAllowsLeaf V parent chunk then view.applyLeafChunk chunk.batchId chunk.chunkIndex
    else none
  | .certificate certificate =>
    if parentAllowsCertificate parent certificate.batchId then some view else none
  | _ => some view

def v4Admits (parent : PalwBatchViewV1) : PalwOverlayEffect → Bool
  | .certificate certificate =>
    (parent.entry certificate.batchId).any (palwV4AllPassSummary certificate)
  | .leafChunk chunk =>
    chunk.leaves.all (·.receiptDaObjectVersion == PALW_RECEIPT_DA_OBJECT_VERSION_V2)
  | _ => true

def publishedView (view transitioned : PalwBatchViewV1) (carrierDaaScore : ℕ) :
    PalwOverlayEffect → PalwBatchViewV1
  | .manifest _ | .leafChunk _ => transitioned
  | .certificate certificate =>
    (view.applyVerifiedCertificate certificate.batchId (certificate.hash P)
      certificate.approvingStake carrierDaaScore).getD view
  | _ => view

/-- The accepted view after an effect; `none` if the lifecycle refuses the effect. A legacy block
has no accepted view and refuses nothing. -/
def nextAcceptedView (V : PalwProcessor) (parent view : Option PalwBatchViewV1)
    (carrierDaaScore : ℕ) (effect : PalwOverlayEffect) : Option (Option PalwBatchViewV1) :=
  match parent, view with
  | some parent, some view =>
    if v4Admits parent effect then
      (transitionedView P V parent view (carrierDaaScore / max V.palwEpochLengthDaa 1) effect).map
        fun transitioned => some (publishedView P view transitioned carrierDaaScore effect)
    else none
  | _, _ => some none

def OverlayWalk.collect (walk : OverlayWalk) (view : Option PalwBatchViewV1) :
    PalwOverlayEffect → OverlayWalk
  | .leafChunk chunk => ⟨view, walk.acceptedLeaves ++ chunk.leaves, walk.certifiedBatches⟩
  | .certificate certificate =>
    ⟨view, walk.acceptedLeaves, walk.certifiedBatches ++ [certificate.batchId]⟩
  | _ => { walk with acceptedView := view }

/-- `palw_da_certificate_effect_allowed`, and no beacon operation. -/
def overlayEffectAllowed (certificateState : PalwDaStateV1) : PalwOverlayEffect → Bool
  | .beaconCommit _ | .beaconReveal _ => false
  | .certificate certificate => certificateState.certificateAllowed certificate.batchId
  | _ => true

/-- One parsed effect of the walk of `commit_palw_overlay_effects`. -/
def walkEffect (V : PalwProcessor) (certificateState : PalwDaStateV1)
    (parent : Option PalwBatchViewV1) (carried : CarriedTx) (walk : OverlayWalk)
    (effect : PalwOverlayEffect) : OverlayWalk :=
  if !overlayEffectAllowed certificateState effect then walk
  else
    match nextAcceptedView P V parent walk.acceptedView carried.carrierDaaScore effect with
    | none => walk
    | some view => if carried.contentApplies then walk.collect view effect else walk

def walkTx (V : PalwProcessor) (certificateState : PalwDaStateV1)
    (parent : Option PalwBatchViewV1) (walk : OverlayWalk) (carried : CarriedTx) : OverlayWalk :=
  match carried.tx.subnetworkId.palwTxKind.bind fun kind =>
      (parsePalwOverlay P kind carried.tx.payload).toOption with
  | none => walk
  | some effect => walkEffect P V certificateState parent carried walk effect

/-- A chain block as the lane sees it: the first buried beacon below its selected parent, the lagged
health signal, and the view of the body stage, which legacy headers read. -/
structure PalwChainBlock where
  headerVersion : UInt16
  daaScore : ℕ
  accepted : List CarriedTx
  buriedBeacon : Option PalwBuriedBeaconV1
  activationOpen : Bool
  bodyView : Option PalwBatchViewV1

def PalwPublicLeafV1.commitment (leaf : PalwPublicLeafV1) : PalwReceiptDaCommitmentV1 where
  objectVersion := leaf.receiptDaObjectVersion
  objectLen := leaf.receiptDaObjectLen
  chunkCount := leaf.receiptDaChunkCount
  root := leaf.receiptDaRoot

def registerAccepted (beacon : PalwBuriedBeaconV1) (daaScore : ℕ) (s : PalwDaStateV1)
    (leaf : PalwPublicLeafV1) : Except PalwFailStop PalwDaStateV1 :=
  match s.registerLeafObligations P leaf leaf.commitment beacon .STRICT_TESTNET daaScore with
  | .ok s' => .ok s'
  | .error .obligationState => .ok s
  | .error .capacity => .error (.leafCapacity leaf.batchId leaf.leafIndex)
  | .error e => .error (.leafRegistration leaf.batchId leaf.leafIndex e)

def registerLeaves (block : PalwChainBlock) (s : PalwDaStateV1) (leaves : List PalwPublicLeafV1) :
    Except PalwFailStop PalwDaStateV1 :=
  match block.buriedBeacon with
  | none => .ok s
  | some beacon => leaves.foldlM (registerAccepted P beacon block.daaScore) s

def committedView (V : PalwProcessor) (block : PalwChainBlock) (epoch : ℕ) :
    Option PalwBatchViewV1 → Except PalwFailStop PalwBatchViewV1
  | some view =>
    let couldActivate := view.batches.values.filter fun entry =>
      entry.status = .certified ∧ entry.activationNotBeforeEpoch ≤ epoch
    let activationOpen := couldActivate ≠ 0 && block.activationOpen
    .ok ((view.advanceEpochGated epoch V.palwBatchAdmission activationOpen).retain epoch
      block.daaScore V.palwBatchAdmission)
  | none => block.bodyView.elim (.error .lifecycleViewMissing) .ok

structure PalwNode where
  da : PalwDaStateV1
  lifecycle : Option PalwBatchViewV1
  providers : ProviderBondView

def parentAcceptedView (block : PalwChainBlock) (node : PalwNode) :
    Except PalwFailStop (Option PalwBatchViewV1) :=
  if block.headerVersion ≥ PALW_ANTISPAM_HEADER_VERSION then
    node.lifecycle.elim (.error .acceptedLifecycleMissing) fun view => .ok (some view)
  else .ok none

/-- Drops what is certified, registers leaves, keeps what the view names. -/
def commitPalwOverlayEffects (V : PalwProcessor) (block : PalwChainBlock) (node : PalwNode)
    (staged : PalwDaStaged) : Except PalwFailStop (PalwDaStateV1 × PalwBatchViewV1) := do
  let epoch := block.daaScore / max V.palwEpochLengthDaa 1
  let parent ← parentAcceptedView block node
  let walk := block.accepted.foldl (walkTx P V staged.certificateState parent) ⟨parent, [], []⟩
  let removed := walk.certifiedBatches.foldl PalwDaStateV1.removeCertifiedBatch staged.state
  let registered ← registerLeaves P block removed walk.acceptedLeaves
  let view ← committedView V block epoch walk.acceptedView
  return (registered.retainReferenceableBatches view.batches.keys epoch, view)

/-- `palw_provider_bond_mutations_for_chain_block`, from the accepted transactions and the slashes
recorded in the block's state. -/
def palwProviderBondMutationsForChainBlock (V : PalwProcessor) (block : PalwChainBlock)
    (da : PalwDaStateV1) : List PalwProviderBondMutation :=
  if block.daaScore < V.palwActivationDaaScore then []
  else
    palwProviderBondMutationsFromAcceptedTxs P (block.accepted.map (·.tx)) block.daaScore
        V.palwBatchAdmission.minProviderBondSompi V.palwBatchAdmission.providerUnbondFloorEpochs ++
      da.blockSlashedProviders.map fun providerBond => .slash providerBond block.daaScore

def commitBlock (V : PalwProcessor) (node : PalwNode) (block : PalwChainBlock) :
    Except PalwFailStop (PalwDaStateV1 × PalwBatchViewV1) := do
  let ctx : PalwDaApplyContext :=
    ⟨V.palwNetworkId, block.daaScore, block.daaScore / max V.palwEpochLengthDaa 1, .STRICT_TESTNET,
      node.providers⟩
  let staged ← stagePalwDaEffects P ctx node.da (block.accepted.map (·.tx))
  let committed ← commitPalwOverlayEffects P V block node staged
  failIf (!committed.1.validateStructure P) .committedStateInvalid
  return committed

def advanceNode (V : PalwProcessor) (node : PalwNode) (block : PalwChainBlock) :
    Except PalwFailStop PalwNode :=
  if block.daaScore < V.palwActivationDaaScore then .ok node
  else do
    let committed ← commitBlock P V node block
    return { da := committed.1
             lifecycle := some committed.2
             providers := node.providers.apply
               (palwProviderBondMutationsForChainBlock P V block committed.1) }

def PalwNode.genesis : PalwNode := ⟨.initial, some .new, ∅⟩

def DaReaches (daaScore : ℕ) (s s' : PalwDaStateV1) : Prop :=
  ∃ steps : List DaStep, (∀ st ∈ steps, st.daaScore = daaScore) ∧ s' = steps.foldl (daStep P) s

variable {P} {daaScore : ℕ} {s s' s'' : PalwDaStateV1}

theorem DaReaches.refl (s : PalwDaStateV1) : DaReaches P daaScore s s := ⟨[], by simp, rfl⟩

theorem DaReaches.trans (h : DaReaches P daaScore s s') (h' : DaReaches P daaScore s' s'') :
    DaReaches P daaScore s s'' := by
  obtain ⟨steps, hsteps, rfl⟩ := h
  obtain ⟨steps', hsteps', rfl⟩ := h'
  refine ⟨steps ++ steps', forall_mem_append.mpr ⟨hsteps, hsteps'⟩, ?_⟩
  rw [foldl_append]

theorem DaReaches.op (op : DaOp) : DaReaches P daaScore s (daStep P s ⟨daaScore, op⟩) :=
  ⟨[⟨daaScore, op⟩], by simp, rfl⟩

theorem outcome_fst (result : Except PalwDaError PalwDaStateV1) :
    (s.outcome result).1 = s.orKeep result := by
  cases result <;> rfl

theorem daReaches_applyPalwDaEffect (ctx : PalwDaApplyContext) (effect : PalwDaOverlayEffect) :
    DaReaches P ctx.currentDaaScore s (applyPalwDaEffect P ctx s effect).1 := by
  cases effect with
  | challenge challenge =>
    dsimp only [applyPalwDaEffect]
    split
    · exact .refl s
    · next challenger _ =>
      rw [outcome_fst]
      exact .op (.applyChallenge challenge challenger ctx.networkId ctx.currentEpoch ctx.policy)
  | response response =>
    dsimp only [applyPalwDaEffect]
    split
    · exact .refl s
    · next provider _ =>
      rw [outcome_fst]
      exact .op (.applyResponse response provider ctx.networkId)
  | timeout evidence => exact .op (.applyTimeoutEvidence evidence ctx.networkId)

variable {staged : PalwDaStaged} {block : PalwChainBlock}

variable {staged' : PalwDaStaged} {ctx : PalwDaApplyContext} {V : PalwProcessor}
  {node node' : PalwNode} {blocks : List PalwChainBlock}

theorem daReaches_recordSlash {providerBond : TransactionOutpoint} {daa : ℕ}
    (h : recordSlash staged providerBond daa = .ok staged') :
    DaReaches P daaScore staged.state staged'.state := by
  obtain ⟨state, hstate, h⟩ := bind_eq_ok.mp h
  cases h
  have hop : DaReaches P daaScore staged.state
      (daStep P staged.state ⟨daaScore, .recordBlockSlash providerBond⟩) := .op _
  dsimp only [daStep] at hop
  rwa [mapError_eq_ok.mp hstate] at hop

theorem daReaches_stageTx {tx : Transaction} (h : stageTx P ctx staged tx = .ok staged') :
    DaReaches P ctx.currentDaaScore staged.state staged'.state := by
  unfold stageTx at h
  split at h
  · cases h
    exact .refl _
  · next effect heffect =>
    have happlied := daReaches_applyPalwDaEffect (P := P) (s := staged.state) ctx effect
    dsimp only [stageEffect] at h
    split at h
    · exact happlied.trans (daReaches_recordSlash h)
    · cases h
      exact happlied

theorem daReaches_stage {parent : PalwDaStateV1} {txs : List Transaction}
    (h : stagePalwDaEffects P ctx parent txs = .ok staged) :
    DaReaches P ctx.currentDaaScore parent staged.state := by
  obtain ⟨-, h⟩ := check_bind_eq_ok.mp h
  obtain ⟨staged', hfold, h⟩ := bind_eq_ok.mp h
  obtain ⟨-, h⟩ := check_bind_eq_ok.mp h
  cases h
  refine foldlM_induction (I := fun staged => DaReaches P ctx.currentDaaScore parent staged.state)
    (fun staged tx staged' _ hI hturn => hI.trans (daReaches_stageTx hturn)) ?_ hfold
  exact .op .beginChildBlock

theorem daReaches_removeCertified (batches : List Hash64) :
    DaReaches P daaScore s (batches.foldl PalwDaStateV1.removeCertifiedBatch s) := by
  induction batches generalizing s with
  | nil => exact .refl s
  | cons batchId batches ih => exact (DaReaches.op (.removeCertifiedBatch batchId)).trans ih

theorem daReaches_registerLeaves {leaves : List PalwPublicLeafV1}
    (h : registerLeaves P block s leaves = .ok s') : DaReaches P block.daaScore s s' := by
  unfold registerLeaves at h
  split at h
  · cases h
    exact .refl s
  · next beacon hbeacon =>
    refine foldlM_induction (I := DaReaches P block.daaScore s)
      (fun t leaf t' _ hI hturn => hI.trans ?_) (.refl s) h
    have hop : DaReaches P block.daaScore t (daStep P t ⟨block.daaScore,
        .registerLeafObligations leaf leaf.commitment beacon .STRICT_TESTNET⟩) := .op _
    dsimp only [daStep] at hop
    unfold registerAccepted at hturn
    split at hturn
    · next t₁ hok =>
      cases hturn
      rwa [hok] at hop
    · cases hturn
      exact .refl t
    · cases hturn
    · cases hturn

/-- The state a chain block leaves is reached from its selected parent's by operations at the
block's DAA score. -/
theorem daReaches_advanceNode (h : advanceNode P V node block = .ok node') :
    DaReaches P block.daaScore node.da node'.da := by
  unfold advanceNode at h
  split at h
  · cases h
    exact .refl _
  · simp only [commitBlock, commitPalwOverlayEffects, bind_eq_ok] at h
    obtain ⟨_, ⟨staged, hstaged, _, ⟨parent, -, registered, hregistered, view, -, ⟨⟩⟩, _, -, ⟨⟩⟩,
      ⟨⟩⟩ := h
    refine (daReaches_stage hstaged).trans ((daReaches_removeCertified _).trans
      ((daReaches_registerLeaves hregistered).trans ?_))
    exact .op (.retainReferenceableBatches view.batches.keys
      (block.daaScore / max V.palwEpochLengthDaa 1))

theorem exists_daRun_of_chain (h : blocks.foldlM (advanceNode P V) .genesis = .ok node) :
    ∃ steps, node.da = daRun P steps := by
  refine foldlM_induction (I := fun node => ∃ steps, node.da = daRun P steps) ?_ ⟨[], rfl⟩ h
  rintro node block node' - ⟨steps, hnode⟩ hturn
  obtain ⟨steps', -, hnode'⟩ := daReaches_advanceNode hturn
  exact ⟨steps ++ steps', by rw [hnode', hnode, daRun, daRun, foldl_append]⟩

def sampleProcessor : PalwProcessor := ⟨0, 100, 1, .INERT⟩

def sampleBlock (daaScore : ℕ) (txs : List Transaction) : PalwChainBlock where
  headerVersion := PALW_ANTISPAM_HEADER_VERSION
  daaScore := daaScore
  accepted := txs.map fun tx => ⟨tx, daaScore, true⟩
  buriedBeacon := if daaScore < 110 then none else some ⟨0, 1, 1, 10, daaScore⟩
  activationOpen := false
  bodyView := none

def sampleProviderBondTx (key : UInt8) : Transaction :=
  { sampleOverlayTx key.toNat (.fromByte 0x30) [key] with
    outputs := [⟨1000000000, p2pkhMldsa87Spk key.toNat⟩] }

def sampleProviderRecord (key : UInt8) (daaScore : ℕ) : PalwProviderBondRecord where
  version := 1
  bondOutpoint := ⟨key.toNat, 0⟩
  ownerPubkeyHash := key.toNat
  ownerPublicKey := List.replicate STAKE_VALIDATOR_PUBKEY_LEN key
  operatorGroupId := 1
  runtimeClasses := [1]
  capacityByShape := [(1, 1)]
  rewardKeyRoot := 1
  amountSompi := 1000000000
  activationDaaScore := daaScore
  createdDaaScore := daaScore
  unbondDelayEpochs := 6
  unbondRequestDaaScore := none
  slashedAtDaaScore := none

def sampleBatchId : Hash64 := 44551
def sampleManifestTx : Transaction :=
  sampleOverlayTx 10 (.fromByte 0x31) (sampleWordBytes sampleBatchId ++ [1, 1])

def sampleLeafChunkTx : Transaction :=
  sampleOverlayTx 11 (.fromByte 0x32) (sampleWordBytes sampleBatchId ++ [1, 2, 3])

def sampleObligation2 : Hash64 := 17638
def sampleObligation3 : Hash64 := 13567

def sampleChallengeTx (obligation epoch opened deadline : ℕ) : Transaction :=
  sampleOverlayTx 12 (.fromByte 0x3a) (sampleWordBytes obligation ++ [UInt8.ofNat epoch] ++
    sampleWordBytes opened ++ sampleWordBytes deadline ++ [1])

def sampleRun (blocks : List PalwChainBlock) : Except PalwFailStop PalwNode :=
  blocks.foldlM (advanceNode samplePalwPrimitives sampleProcessor) .genesis

end Misaka.Palw
