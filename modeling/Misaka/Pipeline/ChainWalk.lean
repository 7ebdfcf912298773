import Misaka.Dns.SlashingValue
import Misaka.Pipeline.TemplateValid

/-!
# The forward walk along a selected chain

`calculate_utxo_state_relatively` takes the blocks of a chain one by one and disqualifies or commits
them, with the UTXO set and the bond view moved along. A block's own body is verified against the
view of its selected parent; what it does to the bonds comes out of the bodies it accepts.
-/

namespace Misaka.Pipeline

open Misaka.Core Dns List

structure Candidate where
  ghostdagData : GhostdagData
  mergesetNonDaa : List BlockHash
  block : Block

/-- The walk at its diff point: the last committed block and the sets as of it. The last two fields
record the point of view that block was verified at; the walk does not read them. -/
structure ChainState where
  diffPoint : BlockHash
  view : UtxoView
  multiset : MuHash
  bondView : ActiveBondView
  povBondView : ActiveBondView
  povDaaScore : ℕ

def VerifyFault.disqualifies : VerifyFault → Bool
  | .rule _ | .evmClaims _ | .evmExecution _ | .evmCommitmentMismatch | .evmBridge _ => true
  | .acceptance _ | .emptyBody | .coinbasePayload _ | .coinbase _ => false

variable (V : VirtualProcessor) {records : List StakeBondRecord} {start : ChainState}

def UtxoProcessingContext.acceptedTxs (ctx : UtxoProcessingContext) : List Transaction :=
  acceptedTxsFromAcceptanceData V ctx.mergesetAcceptanceData

def dnsBondMutationsFromAcceptance (ctx : UtxoProcessingContext) (acceptedDaaScore : ℕ) :
    List BondMutation :=
  match V.dnsParams with
  | none => []
  | some params =>
    bondMutationsFromAcceptedTxs V.primitives (ctx.acceptedTxs V) acceptedDaaScore
      params.minBondAmountSompi params.unbondingPeriodBlocks

def blockSlashingEffects (c : AcceptanceContext) (records : List StakeBondRecord)
    (ctx : UtxoProcessingContext) : List SlashingSideEffect :=
  match V.dnsParams with
  | none => []
  | some params =>
    if c.povDaaScore < params.dnsActivationDaaScore then []
    else slashingEffects V.primitives params (slashingWindow V c records) (ctx.acceptedTxs V)
      c.bondView c.povDaaScore

namespace ChainState

def contextOf (s : ChainState) (b : Candidate) : AcceptanceContext :=
  ⟨b.ghostdagData, s.view, s.bondView, b.block.header.daaScore⟩

def commit (s : ChainState) (b : Candidate) (ctx : UtxoProcessingContext) : ChainState where
  diffPoint := b.block.header.hash
  view := compose s.view ctx.utxo.mergesetDiff
  multiset := ctx.utxo.multisetHash
  bondView := s.bondView.apply (dnsBondMutationsFromAcceptance V ctx b.block.header.daaScore)
  povBondView := s.bondView
  povDaaScore := b.block.header.daaScore

end ChainState

def walkBlock (records : List StakeBondRecord) (s : ChainState) (b : Candidate) :
    Except VerifyFault ChainState :=
  if b.ghostdagData.selectedParent = s.diffPoint then
    match processChainBlock V (s.contextOf b) s.multiset records b.mergesetNonDaa b.block with
    | .ok r => .ok (s.commit V b r.1)
    | .error e => if e.disqualifies then .ok s else .error e
  else .ok s

structure Commits (s : ChainState) (records : List StakeBondRecord) (b : Candidate)
    (ctx : UtxoProcessingContext) : Prop where
  lists : s.bondView.Lists records
  selectedParent_eq : b.ghostdagData.selectedParent = s.diffPoint
  processed : ∃ verified, processChainBlock V (s.contextOf b) s.multiset records b.mergesetNonDaa
    b.block = .ok (ctx, verified)

inductive Walk (start : ChainState) : ChainState → Prop
  | start : Walk start start
  | step {s s' : ChainState} {b : Candidate} {records : List StakeBondRecord} : Walk start s →
      s.bondView.Lists records →
      V.blockTransactions b.block.header.hash = b.block.transactions →
      walkBlock V records s b = .ok s' → Walk start s'

variable {V}

variable {s : ChainState} {ctx : UtxoProcessingContext} {bondView : ActiveBondView}
  {params : DnsParams} {daa : ℕ} {o : TransactionOutpoint}

variable {b : Candidate} {view : UtxoView} {header : Header} {tx : Transaction} {kind : StampKind}

theorem walkBlock_eq_ok {s' : ChainState} (hlists : s.bondView.Lists records)
    (h : walkBlock V records s b = .ok s') :
    s' = s ∨ ∃ ctx, Commits V s records b ctx ∧ s' = s.commit V b ctx := by
  unfold walkBlock at h
  split at h
  · next hsp =>
    split at h
    · next r hr =>
      exact .inr ⟨r.1, ⟨hlists, hsp, r.2, hr⟩, (Except.ok.inj h).symm⟩
    · split at h
      · exact .inl (Except.ok.inj h).symm
      · cases h
  · exact .inl (Except.ok.inj h).symm

theorem evmChainContextStep_acceptanceData {ctx' : UtxoProcessingContext}
    {payload : EvmExecutionPayload} (h : evmChainContextStep V ctx view header payload = .ok ctx') :
    ctx'.mergesetAcceptanceData = ctx.mergesetAcceptanceData := by
  unfold evmChainContextStep at h
  split at h
  · rw [Except.ok.inj h]
  · obtain ⟨_, -, h₁⟩ := bind_eq_ok.mp h
    obtain ⟨_, -, h₂⟩ := bind_eq_ok.mp h₁
    split at h₂
    · obtain ⟨_, -, h₃⟩ := bind_eq_ok.mp h₂
      rw [← Except.ok.inj h₃]
    · cases h₂

/-- The body of the diff point passed the two stamp rules, at the point of view it was verified
at. -/
structure ChainState.TipChecked (V : VirtualProcessor) (s : ChainState) : Prop where
  evidence : checkSlashingEvidenceGenuine V.primitives V.dnsParams V.genesisHash
    (V.blockTransactions s.diffPoint) s.povBondView s.povDaaScore = .ok ()
  unbonds : checkUnbondRequestAuthorized V.primitives V.dnsParams V.genesisHash
    (V.blockTransactions s.diffPoint) s.povBondView s.povDaaScore = .ok ()

theorem verifyBody_of_verify {nonDaa : List BlockHash} {txs : List Transaction} {v : VerifiedState}
    (h : verifyExpectedUtxoState V ctx view bondView records nonDaa header txs = .ok v) :
    verifyBody V ctx bondView records header.daaScore txs = .ok () := by
  obtain ⟨_, -, h₁⟩ := bind_eq_ok.mp h
  obtain ⟨⟨⟩, hbody, -⟩ := bind_eq_ok.mp h₁
  exact mapError_eq_ok.mp hbody

theorem Commits.tipChecked (h : Commits V s records b ctx)
    (hstored : V.blockTransactions b.block.header.hash = b.block.transactions) :
    (s.commit V b ctx).TipChecked V := by
  obtain ⟨verified, hproc⟩ := h.processed
  obtain ⟨_, -, -, hverify⟩ := processChainBlock_eq_ok.mp hproc
  obtain ⟨-, -, hevidence, -, hunbonds⟩ := verifyBody_eq_ok.mp (verifyBody_of_verify hverify)
  constructor
  · exact hstored.symm ▸ hevidence
  · exact hstored.symm ▸ hunbonds

theorem Walk.tipChecked (hstart : start.TipChecked V) (h : Walk V start s) :
    s.TipChecked V := by
  induction h with
  | start => exact hstart
  | step _ hlists hstored hstep ih =>
    obtain rfl | ⟨ctx, hcommits, rfl⟩ := walkBlock_eq_ok hlists hstep
    · exact ih
    · exact hcommits.tipChecked hstored

theorem ChainState.TipChecked.stampAuthorized_of_mem (h : s.TipChecked V)
    (hparams : V.dnsParams = some params) (hact : params.dnsActivationDaaScore ≤ s.povDaaScore)
    (htx : tx ∈ V.blockTransactions s.diffPoint) (kind : StampKind) :
    stampAuthorized V.primitives V.genesisHash params s.povBondView s.povDaaScore kind tx := by
  obtain ⟨hevidence, hunbonds⟩ := h
  rw [hparams] at hevidence hunbonds
  cases kind with
  | slash => exact (checkSlashingEvidenceGenuine_eq_ok hact).mp hevidence tx htx
  | unbond => exact (checkUnbondRequestAuthorized_eq_ok hact).mp hunbonds tx htx

def stampSource (V : VirtualProcessor) (ctx : UtxoProcessingContext) (kind : StampKind)
    (o : TransactionOutpoint) : Option Transaction :=
  (ctx.acceptedTxs V).find? fun tx => stampTarget V.primitives kind tx = some o

theorem exists_stamped_iff {d : ℕ} (hparams : V.dnsParams = some params) :
    (∃ m ∈ dnsBondMutationsFromAcceptance V ctx daa, m.stamped kind = some (o, d)) ↔
      d = daa ∧ ∃ tx, stampSource V ctx kind o = some tx := by
  have hstamps := @stamped_bondMutationsLoop V.primitives daa params.minBondAmountSompi
    params.unbondingPeriodBlocks [] [] kind (ctx.acceptedTxs V)
  have hseen : seenBonds [] [] kind = [] := by cases kind <;> rfl
  have hfirst : o ∈ firstBy id [] ((ctx.acceptedTxs V).filterMap (stampTarget V.primitives kind)) ↔
      ∃ tx, stampSource V ctx kind o = some tx := by
    have hkeys := @mem_keys_firstBy _ _ _ id []
      ((ctx.acceptedTxs V).filterMap (stampTarget V.primitives kind)) o
    rw [map_id, map_id] at hkeys
    rw [hkeys, ← Option.isSome_iff_exists, stampSource, List.find?_isSome]
    simp
  simp only [dnsBondMutationsFromAcceptance, hparams, bondMutationsFromAcceptedTxs]
  rw [← mem_filterMap, hstamps, hseen, mem_map]
  constructor
  · rintro ⟨o', ho', heq⟩
    cases heq
    exact ⟨rfl, hfirst.mp ho'⟩
  · rintro ⟨rfl, hsource⟩
    exact ⟨o, hfirst.mpr hsource, rfl⟩

theorem resolveEvidence_any {P : Primitives} {bond : StakeBondRecord}
    (hbond : bondView.get o = some bond) (hstatus : (effectiveBondStatus bond daa).isSlashable)
    (tx : Transaction) :
    (resolveEvidence P bondView daa tx).any (fun r => r.bondOutpoint = o) =
      decide (stampTarget P .slash tx = some o) := by
  cases hev : slashingEvidenceOf P tx with
  | none => simp [resolveEvidence, stampTarget, hev]
  | some ev =>
    by_cases ho : ev.bondOutpoint = o
    · simp [resolveEvidence, stampTarget, hev, ho, hbond, hstatus]
    · cases hother : bondView.get ev.bondOutpoint with
      | none => simp [resolveEvidence, stampTarget, hev, ho, hother]
      | some bond' =>
        simp only [resolveEvidence, stampTarget, hev, hother]
        split <;> simp [ho]

theorem stampSource_of_mem_effects {c : AcceptanceContext} {e : SlashingSideEffect}
    (he : e ∈ blockSlashingEffects V c records ctx) :
    ∃ tx, stampSource V ctx .slash e.bondOutpoint = some tx ∧
      e.slashingTxId = V.primitives.transactionId tx := by
  unfold blockSlashingEffects at he
  cases hparams : V.dnsParams with
  | none =>
    rw [hparams] at he
    cases he
  | some params =>
    rw [hparams] at he
    dsimp only at he
    split at he
    · cases he
    · obtain ⟨-, -, -, bond, -, hbond, hstatus, -, -, -, -, -, r, hfirst, hid⟩ :=
        mem_slashingEffects he
      rw [List.find?_filterMap] at hfirst
      simp only [resolveEvidence_any hbond hstatus] at hfirst
      obtain ⟨tx, hsource, hres⟩ := Option.bind_eq_some_iff.mp hfirst
      obtain ⟨_, _, -, -, -, rfl⟩ := resolveEvidence_eq_some.mp hres
      exact ⟨tx, hsource, hid⟩

def ownerSigned (P : Primitives) (bondView : ActiveBondView) (netId : Bytes)
    (req : StakeUnbondRequestPayload) : Bool :=
  (bondView.get req.bondOutpoint).any fun bond =>
    validatorIdFromPubkey P req.ownerPubkey == bond.ownerPubkeyHash &&
      signatureVerifies P req.ownerPubkey (unbondRequestMessage P netId req.bondOutpoint)
        req.signature UNBOND_REQUEST_CONTEXT

def stampGenuine (V : VirtualProcessor) (params : DnsParams) (bondView : ActiveBondView)
    (daaScore : ℕ) : StampKind → Transaction → Bool
  | .slash, tx => (slashingEvidenceOf V.primitives tx).any
      (evidenceGenuine V.primitives bondView V.genesisHash daaScore params.evidenceWindowBlocks)
  | .unbond, tx => (unbondRequestOf V.primitives tx).any
      (ownerSigned V.primitives bondView (hash64Bytes V.genesisHash))

/-- A stamp is authorized if it is justified where the accepting block stands, or where its
selected parent stood. -/
def ChainState.Authorizes (V : VirtualProcessor) (s : ChainState) (b : Candidate)
    (kind : StampKind) (tx : Transaction) : Prop :=
  ∃ params, V.dnsParams = some params ∧
    (stampGenuine V params s.bondView b.block.header.daaScore kind tx ∨
      stampGenuine V params s.povBondView s.povDaaScore kind tx)

instance {V : VirtualProcessor} {s : ChainState} {b : Candidate} {kind : StampKind}
    {tx : Transaction} : Decidable (s.Authorizes V b kind tx) :=
  decidableExistsSome V.dnsParams

structure StampsAuthorized (V : VirtualProcessor) (s : ChainState)
    (records : List StakeBondRecord) (b : Candidate) (ctx : UtxoProcessingContext) : Prop where
  mutations : ∀ m ∈ dnsBondMutationsFromAcceptance V ctx b.block.header.daaScore, ∀ kind o d,
    m.stamped kind = some (o, d) →
      ∃ tx, stampSource V ctx kind o = some tx ∧ s.Authorizes V b kind tx
  effects : ∀ e ∈ blockSlashingEffects V (s.contextOf b) records ctx,
    ∃ tx, stampSource V ctx .slash e.bondOutpoint = some tx ∧
      e.slashingTxId = V.primitives.transactionId tx ∧ s.Authorizes V b .slash tx

/-- The part of it no rule looks at: sources that were accepted from a merged body, or from a
selected parent below activation. -/
def UncheckedAuthorized (V : VirtualProcessor) (s : ChainState) (b : Candidate)
    (ctx : UtxoProcessingContext) : Prop :=
  V.dnsParams.isSome → ∀ kind o tx, stampSource V ctx kind o = some tx →
    (tx ∈ V.blockTransactions b.ghostdagData.selectedParent →
      overlayActivated V.dnsParams s.povDaaScore = false) →
    s.Authorizes V b kind tx

theorem stampGenuine_of_stampAuthorized
    (h : stampAuthorized V.primitives V.genesisHash params bondView daa kind tx)
    (ho : stampTarget V.primitives kind tx = some o) :
    stampGenuine V params bondView daa kind tx := by
  cases kind with
  | slash =>
    obtain ⟨ev, hev, -⟩ := Option.map_eq_some_iff.mp ho
    simp only [stampAuthorized, hev, Option.all_some] at h
    simp only [stampGenuine, hev, Option.any_some, h]
  | unbond =>
    obtain ⟨req, hreq, -⟩ := Option.map_eq_some_iff.mp ho
    simp only [stampAuthorized, hreq, Option.all_some, unbondAuthorized] at h
    simp only [stampGenuine, hreq, Option.any_some, ownerSigned]
    cases hbond : bondView.get req.bondOutpoint with
    | none =>
      rw [hbond] at h
      cases h
    | some bond =>
      rw [hbond] at h
      simp only [Bool.and_eq_true] at h
      simp only [Option.any_some, Bool.and_eq_true]
      exact ⟨h.1.2, h.2⟩

theorem ChainState.TipChecked.authorizes (h : s.TipChecked V)
    (hsource : stampSource V ctx kind o = some tx) (htx : tx ∈ V.blockTransactions s.diffPoint)
    (hact : overlayActivated V.dnsParams s.povDaaScore = true) : s.Authorizes V b kind tx := by
  obtain ⟨params, hparams, hscore⟩ := (Option.any_eq_true _ _).mp hact
  have htarget : stampTarget V.primitives kind tx = some o :=
    of_decide_eq_true (List.find?_some (p := fun tx => stampTarget V.primitives kind tx = some o)
      hsource)
  exact ⟨params, hparams, .inr (stampGenuine_of_stampAuthorized
    (h.stampAuthorized_of_mem hparams (of_decide_eq_true hscore) htx kind) htarget)⟩

/-- On top of a checked tip, a committed block's stamps are all authorized exactly when the
unchecked ones are. -/
theorem stampsAuthorized_iff_unchecked {s : ChainState} {b : Candidate}
    {ctx : UtxoProcessingContext} (hstart : start.TipChecked V) (hwalk : Walk V start s)
    (hb : Commits V s records b ctx) :
    StampsAuthorized V s records b ctx ↔ UncheckedAuthorized V s b ctx := by
  have htip := hwalk.tipChecked hstart
  constructor
  · intro h hsome kind o tx hsource _
    obtain ⟨params, hparams⟩ := Option.isSome_iff_exists.mp hsome
    obtain ⟨m, hm, hstamped⟩ := (exists_stamped_iff hparams).mpr
      ⟨(rfl : b.block.header.daaScore = _), tx, hsource⟩
    obtain ⟨tx', htx', hauth⟩ := h.mutations m hm kind o _ hstamped
    obtain rfl := Option.some.inj (hsource.symm.trans htx')
    exact hauth
  · intro h
    have hsources (hsome : V.dnsParams.isSome) {kind : StampKind} {o : TransactionOutpoint}
        {tx : Transaction} (hsource : stampSource V ctx kind o = some tx) :
        s.Authorizes V b kind tx := by
      by_cases hchecked : tx ∈ V.blockTransactions s.diffPoint ∧
          overlayActivated V.dnsParams s.povDaaScore = true
      · exact htip.authorizes hsource hchecked.1 hchecked.2
      · refine h hsome kind o tx hsource fun htx => ?_
        rw [hb.selectedParent_eq] at htx
        exact Bool.eq_false_iff.mpr fun hact => hchecked ⟨htx, hact⟩
    constructor
    · intro m hm kind o d hstamped
      cases hparams : V.dnsParams with
      | none => simp [dnsBondMutationsFromAcceptance, hparams] at hm
      | some params =>
        obtain ⟨-, tx, hsource⟩ := (exists_stamped_iff hparams).mp ⟨m, hm, hstamped⟩
        exact ⟨tx, hsource, hsources (by simp [hparams]) hsource⟩
    · intro e he
      obtain ⟨tx, hsource, hid⟩ := stampSource_of_mem_effects he
      have hsome : V.dnsParams.isSome := by
        cases hparams : V.dnsParams with
        | none => simp [blockSlashingEffects, hparams] at he
        | some params => rfl
      exact ⟨tx, hsource, hid, hsources hsome hsource⟩

def mergedEvidence (signer : UInt8) : VirtualProcessor :=
  sampleProcessor fun block =>
    if block = 3 then [sampleCoinbase, spendingEvidence signer] else [sampleCoinbase]

def sampleTip : ChainState where
  diffPoint := 1
  view := sampleContext.view
  multiset := .empty
  bondView := sampleContext.bondView
  povBondView := sampleContext.bondView
  povDaaScore := 99

def mergingContext : AcceptanceContext :=
  ⟨⟨1, 3, 0, [1, 3], [], [3]⟩, sampleContext.view, sampleContext.bondView, 100⟩

theorem sampleTip_checked (signer : UInt8) : sampleTip.TipChecked (mergedEvidence signer) := by
  constructor <;> rfl

/-- The candidate that merges the evidence, mined from the node's own template. -/
def mergedCandidate (signer : UInt8) : Option Candidate := do
  let V := mergedEvidence signer
  let vs ← (calculateVirtualState V mergingContext .empty [sampleBondRow] [] 0).toOption
  let template ← (buildBlockTemplate V vs sampleContext.bondView [sampleBondRow]
    (sampleRequest [])).toOption
  return ⟨⟨1, 3, 0, [1, 3], [], [3]⟩, [], template.block.mined 9⟩

/-- A block that merges evidence its bond's validator did not sign passes verification and slashes
the bond. -/
theorem forged_evidence_slashes :
    sampleTip.TipChecked (mergedEvidence 9) ∧ ∃ b ctx,
      Commits (mergedEvidence 9) sampleTip [sampleBondRow] b ctx ∧
      BondMutation.slash ⟨1, 0⟩ 100 ∈ dnsBondMutationsFromAcceptance (mergedEvidence 9) ctx
        b.block.header.daaScore ∧
      (∃ e ∈ blockSlashingEffects (mergedEvidence 9) (sampleTip.contextOf b) [sampleBondRow] ctx,
        e.bondOutpoint = ⟨1, 0⟩ ∧ e.slashedAmountSompi = 100) ∧
      stampSource (mergedEvidence 9) ctx .slash ⟨1, 0⟩ = some (spendingEvidence 9) ∧
      ¬sampleTip.Authorizes (mergedEvidence 9) b .slash (spendingEvidence 9) := by
  obtain ⟨b, -, hparent, ctx, verified, hprocessed, hslashes⟩ : ∃ b,
      mergedCandidate 9 = some b ∧ b.ghostdagData.selectedParent = 1 ∧ ∃ ctx verified,
      processChainBlock (mergedEvidence 9) (sampleTip.contextOf b) .empty [sampleBondRow]
        b.mergesetNonDaa b.block = .ok (ctx, verified) ∧
      BondMutation.slash ⟨1, 0⟩ 100 ∈ dnsBondMutationsFromAcceptance (mergedEvidence 9) ctx
        b.block.header.daaScore ∧
      (∃ e ∈ blockSlashingEffects (mergedEvidence 9) (sampleTip.contextOf b) [sampleBondRow] ctx,
        e.bondOutpoint = ⟨1, 0⟩ ∧ e.slashedAmountSompi = 100) ∧
      stampSource (mergedEvidence 9) ctx .slash ⟨1, 0⟩ = some (spendingEvidence 9) ∧
      ¬sampleTip.Authorizes (mergedEvidence 9) b .slash (spendingEvidence 9) := by
    decide +kernel
  exact ⟨sampleTip_checked 9, b, ctx, ⟨sampleContext_lists, hparent, verified, hprocessed⟩,
    hslashes⟩

/-- With evidence the validator signed, every stamp of the block is authorized. -/
theorem signed_evidence_authorized :
    ∃ b ctx, Commits (mergedEvidence 7) sampleTip [sampleBondRow] b ctx ∧
      StampsAuthorized (mergedEvidence 7) sampleTip [sampleBondRow] b ctx := by
  obtain ⟨b, -, hparent, ctx, verified, hprocessed, hacc, hauthorizes⟩ : ∃ b,
      mergedCandidate 7 = some b ∧ b.ghostdagData.selectedParent = 1 ∧ ∃ ctx verified,
      processChainBlock (mergedEvidence 7) (sampleTip.contextOf b) .empty [sampleBondRow]
        b.mergesetNonDaa b.block = .ok (ctx, verified) ∧
      ctx.acceptedTxs (mergedEvidence 7) = [sampleCoinbase, spendingEvidence 7] ∧
      sampleTip.Authorizes (mergedEvidence 7) b .slash (spendingEvidence 7) := by
    decide +kernel
  have hcommits : Commits (mergedEvidence 7) sampleTip [sampleBondRow] b ctx :=
    ⟨sampleContext_lists, hparent, verified, hprocessed⟩
  refine ⟨b, ctx, hcommits, (stampsAuthorized_iff_unchecked (sampleTip_checked 7) .start
    hcommits).mpr fun _ kind o tx hsource _ => ?_⟩
  rw [stampSource, hacc] at hsource
  have htarget := List.find?_some hsource
  rcases mem_pair.mp (mem_of_find?_eq_some hsource) with rfl | rfl
  · cases kind <;> cases htarget
  · cases kind with
    | slash => exact hauthorizes
    | unbond => cases htarget

end Misaka.Pipeline
