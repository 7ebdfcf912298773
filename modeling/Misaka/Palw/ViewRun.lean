import Misaka.Palw.DaChain

/-!
# Runs of the batch view

The view of a block is its selected parent's view with the effects of the mergeset folded in, each
manifest at the epoch of the block that carries it, and then advanced and retained at the block's
own epoch. A carrier may be merged long after its own epoch.
-/

namespace Misaka.Palw

open Misaka.Core Dns List Table

/-! ## Operations -/

def PalwBatchViewV1.applyCertificate (view : PalwBatchViewV1) (batchId certHash : Hash64)
    (currentDaa : ℕ) : Option PalwBatchViewV1 :=
  (view.entry batchId).bind fun e =>
    let next :=
      match e.status with
      | .auditing => e.status.next .certificateQuorum
      | .committed => some .certified
      | _ => none
    next.map fun status => view.setEntry batchId
      { e with
        status := status
        certHash := some (e.certHash.getD certHash)
        firstCertDaa := some (e.firstCertDaa.getD currentDaa) }

inductive ViewOp where
  | manifest (m : PalwBatchManifestV1) (carrierEpoch : ℕ)
  | leafChunk (batchId : Hash64) (chunkIndex : ℕ)
  | certificate (batchId certHash : Hash64) (currentDaa : ℕ)
  | verifiedCertificate (batchId certHash : Hash64) (approvingStake currentDaa : ℕ)
  deriving DecidableEq

structure ViewBlock where
  epoch : ℕ
  daaScore : ℕ
  ops : List ViewOp
  activationOpen : Bool

variable (P : PalwPrimitives) (params : PalwBatchAdmissionParams)

def ViewOp.transition (view : PalwBatchViewV1) : ViewOp → Option PalwBatchViewV1
  | .manifest m carrierEpoch => view.applyManifest P m carrierEpoch params
  | .leafChunk batchId chunkIndex => view.applyLeafChunk batchId chunkIndex
  | .certificate batchId certHash currentDaa => view.applyCertificate batchId certHash currentDaa
  | .verifiedCertificate batchId certHash approvingStake currentDaa =>
    view.applyVerifiedCertificate batchId certHash approvingStake currentDaa

def applyViewOp (view : PalwBatchViewV1) (op : ViewOp) : PalwBatchViewV1 :=
  (op.transition P params view).getD view

def foldViewBlock (view : PalwBatchViewV1) (block : ViewBlock) : PalwBatchViewV1 :=
  ((block.ops.foldl (applyViewOp P params) view).advanceEpochGated block.epoch params
    block.activationOpen).retain block.epoch block.daaScore params

def viewRun (blocks : List ViewBlock) : PalwBatchViewV1 :=
  blocks.foldl (foldViewBlock P params) .new

/-! ## The body stage -/

def overlayEffect? (tx : Transaction) : Option PalwOverlayEffect :=
  tx.subnetworkId.palwTxKind.bind fun kind => (parsePalwOverlay P kind tx.payload).toOption

def bodyOp (V : PalwProcessor) (carrierDaaScore : ℕ) (tx : Transaction) : Option ViewOp :=
  match overlayEffect? P tx with
  | some (.manifest m) => some (.manifest m (carrierDaaScore / max V.palwEpochLengthDaa 1))
  | some (.leafChunk chunk) => some (.leafChunk chunk.batchId chunk.chunkIndex)
  | some (.certificate c) => some (.certificate c.batchId (c.hash P) carrierDaaScore)
  | _ => none

/-- The mergeset blues of a block, each with its DAA score and its transactions, and the lagged
health signal. -/
structure BodyBlock where
  daaScore : ℕ
  blues : List (ℕ × List Transaction)
  activationOpen : Bool

/-- `commit_palw_overlay_view` past the fence, as a block of operations. -/
def BodyBlock.viewBlock (V : PalwProcessor) (block : BodyBlock) : ViewBlock where
  epoch := block.daaScore / max V.palwEpochLengthDaa 1
  daaScore := block.daaScore
  ops := block.blues.flatMap fun (carrierDaaScore, txs) =>
    txs.filterMap (bodyOp P V carrierDaaScore)
  activationOpen := block.activationOpen

/-! ## What an operation does to an entry -/

structure BatchTerms where
  registrationEpoch : ℕ
  activationNotBeforeEpoch : ℕ
  expiryEpoch : ℕ
  leafCount : ℕ
  chunkCount : ℕ
  leafRoot : Hash64

def PalwBatchLifecycleV1.terms (e : PalwBatchLifecycleV1) : BatchTerms :=
  ⟨e.registrationEpoch, e.activationNotBeforeEpoch, e.expiryEpoch, e.leafCount, e.chunkCount,
    e.leafRoot⟩

def PalwBatchManifestV1.terms (m : PalwBatchManifestV1) : BatchTerms :=
  ⟨m.registrationEpoch, m.activationNotBeforeEpoch, m.expiryEpoch, m.leafCount, m.chunkCount,
    m.leafRoot⟩

inductive EntryStep (e : PalwBatchLifecycleV1) : PalwBatchLifecycleV1 → Prop
  | chunk {index : ℕ} (registering : e.status = .registering) (inside : index < e.chunkCount)
      (absent : index ∉ e.chunksPresent) : EntryStep e (e.withChunk index)
  | certificate {certHash : Hash64} {stake first : ℕ} (certifiable : e.status.certifiable = true) :
      EntryStep e { e with
        status := if e.status = .committed ∨ e.status = .auditing then .certified else e.status
        certHash := some certHash
        certApprovingStake := stake
        firstCertDaa := some first }

variable {P params} {view view' : PalwBatchViewV1} {batchId certHash : Hash64}
  {m : PalwBatchManifestV1} {M : PalwBatchManifestV1 → Prop} {e e' : PalwBatchLifecycleV1}
  {epoch daa index stake : ℕ} {ops : List ViewOp} {activationOpen : Bool}

theorem applyManifest_eq_some (h : view.applyManifest P m epoch params = some view') :
    (params.maxViewBatches ≠ 0 → view.batches.size < params.maxViewBatches) ∧
      m.admissionValid P epoch params = true ∧ view.entry m.batchId = none ∧
      view' = view.setEntry m.batchId m.registered := by
  unfold PalwBatchViewV1.applyManifest at h
  split_ifs at h with hfull hinvalid hknown
  refine ⟨fun hcap => not_le.mp fun hle => hfull ⟨hcap, hle⟩, by simpa using hinvalid,
    by simpa using hknown, (Option.some.inj h).symm⟩

theorem applyLeafChunk_eq_some (h : view.applyLeafChunk batchId index = some view') :
    ∃ e, view.entry batchId = some e ∧ e.status = .registering ∧ index < e.chunkCount ∧
      index ∉ e.chunksPresent ∧ view' = view.setEntry batchId (e.withChunk index) := by
  obtain ⟨e, he, h⟩ := Option.bind_eq_some_iff.mp h
  split_ifs at h with hrefused habsent
  rw [not_or, not_not, ge_iff_le, not_le] at hrefused
  exact ⟨e, he, hrefused.1, hrefused.2, habsent, (Option.some.inj h).symm⟩

theorem entryStep_of_applyCertificate
    (h : view.applyCertificate batchId certHash daa = some view') :
    ∃ e e', view.entry batchId = some e ∧ EntryStep e e' ∧ view' = view.setEntry batchId e' := by
  obtain ⟨e, he, h⟩ := Option.bind_eq_some_iff.mp h
  obtain ⟨status, hstatus, rfl⟩ := Option.map_eq_some_iff.mp h
  have hcertified : status = .certified ∧ (e.status = .committed ∨ e.status = .auditing) := by
    cases hold : e.status <;> rw [hold] at hstatus <;> simp [PalwBatchStatus.next] at hstatus <;>
      simp [hstatus]
  obtain ⟨rfl, hold⟩ := hcertified
  have hcertifiable : e.status.certifiable = true := by
    rcases hold with hold | hold <;> rw [hold] <;> rfl
  have hstep : EntryStep e { e with
      status := if e.status = .committed ∨ e.status = .auditing then .certified else e.status
      certHash := some (e.certHash.getD certHash)
      firstCertDaa := some (e.firstCertDaa.getD daa) } := .certificate hcertifiable
  rw [if_pos hold] at hstep
  exact ⟨e, _, he, hstep, rfl⟩

theorem applyVerifiedCertificate_eq_some
    (h : view.applyVerifiedCertificate batchId certHash stake daa = some view') :
    ∃ e, view.entry batchId = some e ∧ e.status.certifiable = true ∧
      view' = view.setEntry batchId (e.withCertificate certHash stake daa) := by
  obtain ⟨e, he, h⟩ := Option.bind_eq_some_iff.mp h
  split_ifs at h with hcertifiable
  cases h
  exact ⟨e, he, by simpa using hcertifiable, rfl⟩

theorem entryStep_of_applyVerifiedCertificate
    (h : view.applyVerifiedCertificate batchId certHash stake daa = some view') :
    ∃ e e', view.entry batchId = some e ∧ EntryStep e e' ∧ view' = view.setEntry batchId e' := by
  obtain ⟨e, he, hcertifiable, rfl⟩ := applyVerifiedCertificate_eq_some h
  exact ⟨e, _, he, .certificate hcertifiable, rfl⟩

variable (P params) in
theorem applyViewOp_cases (view : PalwBatchViewV1) (op : ViewOp) :
    applyViewOp P params view op = view ∨
    (∃ m epoch, op = .manifest m epoch ∧ m.admissionValid P epoch params = true ∧
      (params.maxViewBatches ≠ 0 → view.batches.size < params.maxViewBatches) ∧
      view.entry m.batchId = none ∧
      applyViewOp P params view op = view.setEntry m.batchId m.registered) ∨
    ∃ batchId e e', view.entry batchId = some e ∧ EntryStep e e' ∧
      applyViewOp P params view op = view.setEntry batchId e' := by
  unfold applyViewOp
  cases h : op.transition P params view with
  | none => exact .inl rfl
  | some view' =>
    rw [Option.getD_some]
    cases op with
    | manifest m epoch =>
      obtain ⟨hcap, hvalid, hnew, rfl⟩ := applyManifest_eq_some h
      exact .inr (.inl ⟨m, epoch, rfl, hvalid, hcap, hnew, rfl⟩)
    | leafChunk batchId index =>
      obtain ⟨e, he, hregistering, hinside, habsent, rfl⟩ := applyLeafChunk_eq_some h
      exact .inr (.inr ⟨batchId, e, _, he, .chunk hregistering hinside habsent, rfl⟩)
    | certificate batchId certHash daa =>
      obtain ⟨e, e', he, hstep, rfl⟩ := entryStep_of_applyCertificate h
      exact .inr (.inr ⟨batchId, e, e', he, hstep, rfl⟩)
    | verifiedCertificate batchId certHash stake daa =>
      obtain ⟨e, e', he, hstep, rfl⟩ := entryStep_of_applyVerifiedCertificate h
      exact .inr (.inr ⟨batchId, e, e', he, hstep, rfl⟩)

/-! ## The invariant -/

/-- What holds of every entry of a view whose manifests are among `M`: it stands under the terms of
an admissible manifest with its id, its bits are of its chunks, it is complete once it can be
certified, and a certified batch has a certificate. -/
structure EntryValid (P : PalwPrimitives) (params : PalwBatchAdmissionParams)
    (M : PalwBatchManifestV1 → Prop) (batchId : Hash64) (e : PalwBatchLifecycleV1) : Prop where
  admitted : ∃ m, M m ∧ m.batchId = batchId ∧
    m.admissionValid P m.registrationEpoch params = true ∧ e.terms = m.terms
  inside : e.chunksPresent ⊆ Finset.range e.chunkCount
  phase : e.status = .registering ∨ e.status.certifiable = true
  complete : e.status.certifiable = true → e.chunksPresent = Finset.range e.chunkCount
  certified : e.status = .certified ∨ e.status = .active → e.certHash.isSome
  unrevoked : e.revokedFromDaa = none

structure ViewValid (P : PalwPrimitives) (params : PalwBatchAdmissionParams)
    (M : PalwBatchManifestV1 → Prop) (view : PalwBatchViewV1) : Prop where
  cap : params.maxViewBatches ≠ 0 → view.batches.size ≤ params.maxViewBatches
  entries : ∀ batchId e, view.entry batchId = some e → EntryValid P params M batchId e

theorem viewValid_new : ViewValid P params M .new := by
  refine ⟨fun _ => Nat.zero_le _, fun batchId e he => ?_⟩
  simp [PalwBatchViewV1.entry, PalwBatchViewV1.new] at he

theorem admissionValid_epoch (h : m.admissionValid P epoch params = true) :
    m.registrationEpoch = epoch := by
  simp only [PalwBatchManifestV1.admissionValid, Bool.and_eq_true, beq_iff_eq] at h
  exact h.1.1.1.1.2

theorem entryValid_registered (hm : M m) (hvalid : m.admissionValid P epoch params = true) :
    EntryValid P params M m.batchId m.registered where
  admitted := ⟨m, hm, rfl, admissionValid_epoch hvalid ▸ hvalid, rfl⟩
  inside := Finset.empty_subset _
  phase := .inl rfl
  complete := by rintro ⟨⟩
  certified := by rintro (h | h) <;> cases h
  unrevoked := rfl

theorem EntryStep.terms (h : EntryStep e e') : e'.terms = e.terms := by
  cases h <;> rfl

theorem withChunk_status (hregistering : e.status = .registering)
    (hinside : e.chunksPresent ⊆ Finset.range e.chunkCount) (hindex : index < e.chunkCount) :
    (e.withChunk index).status = .committed ∧
        (e.withChunk index).chunksPresent = Finset.range e.chunkCount ∨
      (e.withChunk index).status = .registering := by
  have hsubset : insert index e.chunksPresent ⊆ Finset.range e.chunkCount :=
    Finset.insert_subset (Finset.mem_range.mpr hindex) hinside
  dsimp only [PalwBatchLifecycleV1.withChunk]
  rw [hregistering]
  split
  · next hfull =>
    exact .inl ⟨rfl, Finset.eq_of_subset_of_card_le hsubset (by rw [hfull, Finset.card_range])⟩
  · exact .inr rfl

theorem EntryValid.step (h : EntryValid P params M batchId e) (hstep : EntryStep e e') :
    EntryValid P params M batchId e' := by
  obtain ⟨m, hm, hid, hvalid, hterms⟩ := h.admitted
  have hadmitted : ∃ m, M m ∧ m.batchId = batchId ∧
      m.admissionValid P m.registrationEpoch params = true ∧ e'.terms = m.terms :=
    ⟨m, hm, hid, hvalid, hstep.terms.trans hterms⟩
  cases hstep with
  | @chunk index hregistering hindex habsent =>
    have hinside : (e.withChunk index).chunksPresent ⊆ Finset.range e.chunkCount :=
      Finset.insert_subset (Finset.mem_range.mpr hindex) h.inside
    rcases withChunk_status hregistering h.inside hindex with ⟨hstatus, hall⟩ | hstatus
    · refine ⟨hadmitted, hinside, .inr (by rw [hstatus]; rfl), fun _ => hall, ?_, h.unrevoked⟩
      rw [hstatus]
      rintro (h | h) <;> cases h
    · refine ⟨hadmitted, hinside, .inl hstatus, ?_, ?_, h.unrevoked⟩ <;> rw [hstatus]
      · rintro ⟨⟩
      · rintro (h | h) <;> cases h
  | certificate hcertifiable =>
    refine ⟨hadmitted, h.inside, .inr ?_, fun _ => h.complete hcertifiable, fun _ => rfl,
      h.unrevoked⟩
    dsimp only
    split
    · rfl
    · exact hcertifiable

theorem ViewValid.setEntry (h : ViewValid P params M view)
    (hcap : params.maxViewBatches ≠ 0 →
      (view.setEntry batchId e).batches.size ≤ params.maxViewBatches)
    (he : EntryValid P params M batchId e) : ViewValid P params M (view.setEntry batchId e) := by
  refine ⟨hcap, fun batchId' e' he' => ?_⟩
  rw [entry_setEntry] at he'
  split at he'
  · next hid =>
    cases Option.some.inj he'
    rwa [hid]
  · exact h.entries batchId' e' he'

theorem ViewValid.applyViewOp (h : ViewValid P params M view) {op : ViewOp}
    (hM : ∀ m epoch, op = .manifest m epoch → M m) :
    ViewValid P params M (applyViewOp P params view op) := by
  rcases applyViewOp_cases P params view op with
    hsame | ⟨m, epoch, hop, hvalid, hcap, -, heq⟩ | ⟨batchId, e, e', he, hstep, heq⟩
  · rwa [hsame]
  · rw [heq]
    refine h.setEntry (fun hbound => ?_) (entryValid_registered (hM m epoch hop) hvalid)
    exact (size_insert_le _ _ _).trans (hcap hbound)
  · rw [heq]
    refine h.setEntry (fun hbound => ?_) ((h.entries batchId e he).step hstep)
    exact (size_insert_of_some _ he).trans_le (h.cap hbound)

theorem ViewValid.foldl (h : ViewValid P params M view)
    (hM : ∀ m epoch, .manifest m epoch ∈ ops → M m) :
    ViewValid P params M (ops.foldl (Palw.applyViewOp P params) view) :=
  foldlRecOn ops _ h fun _ hview _ hop =>
    hview.applyViewOp fun m epoch heq => hM m epoch (heq ▸ hop)

/-! ## The end of a block -/

theorem entry_retain_advance :
    ((view.advanceEpochGated epoch params activationOpen).retain epoch daa params).entry batchId =
        some e' ↔
      ∃ e, view.entry batchId = some e ∧ e' = e.advanced epoch params activationOpen ∧
        palwBatchReferenceable e' epoch daa params = true := by
  unfold PalwBatchViewV1.entry PalwBatchViewV1.retain PalwBatchViewV1.advanceEpochGated
  dsimp only
  rw [lookup_filterRows, lookup_mapVal, Option.filter_eq_some_iff,
    Option.map_eq_some_iff]
  constructor
  · rintro ⟨⟨e, he, rfl⟩, href⟩
    exact ⟨e, he, rfl, href⟩
  · rintro ⟨e, he, rfl, href⟩
    exact ⟨⟨e, he, rfl⟩, href⟩

theorem advanced_eq (e : PalwBatchLifecycleV1) (epoch : ℕ) (activationOpen : Bool) :
    e.advanced epoch params activationOpen =
      { e with status := (e.advanced epoch params activationOpen).status } := by
  unfold PalwBatchLifecycleV1.advanced
  cases e.status <;> dsimp only <;> split_ifs <;> rfl

theorem EntryValid.windows (h : EntryValid P params M batchId e) :
    params.deadline e.registrationEpoch ≤ e.activationNotBeforeEpoch ∧
      e.activationNotBeforeEpoch < e.expiryEpoch := by
  obtain ⟨m, -, -, hvalid, hterms⟩ := h.admitted
  obtain ⟨hregistration, hactivation, hexpiry, -⟩ := BatchTerms.mk.inj hterms
  simp only [PalwBatchManifestV1.admissionValid, Bool.and_eq_true, decide_eq_true_eq] at hvalid
  rw [hregistration, hactivation, hexpiry]
  exact ⟨hvalid.1.1.1.2, hvalid.1.2⟩

theorem referenceable_of_unrevoked (h : e.revokedFromDaa = none) (epoch daa : ℕ) :
    palwBatchReferenceable e epoch daa params =
      match e.status with
      | .active | .certified => decide (epoch < e.expiryEpoch)
      | .registering | .committed | .auditing =>
        decide (epoch ≤ params.deadline e.registrationEpoch)
      | .missing | .slashed | .expired | .revoked => false := by
  unfold palwBatchReferenceable
  rw [h]
  cases e.status <;> rfl

inductive KeptStatus (params : PalwBatchAdmissionParams) (epoch : ℕ) (e : PalwBatchLifecycleV1) :
    PalwBatchStatus → Prop
  | registering (before : e.status = .registering)
      (early : epoch ≤ params.deadline e.registrationEpoch) : KeptStatus params epoch e .registering
  | committed (before : e.status = .committed)
      (early : epoch < params.deadline e.registrationEpoch) : KeptStatus params epoch e .committed
  | auditing (before : e.status = .committed ∨ e.status = .auditing)
      (early : epoch ≤ params.deadline e.registrationEpoch) : KeptStatus params epoch e .auditing
  | certified (before : e.status = .certified) (live : epoch < e.expiryEpoch) :
      KeptStatus params epoch e .certified
  | activated (before : e.status = .certified) (due : e.activationNotBeforeEpoch ≤ epoch)
      (live : epoch < e.expiryEpoch) : KeptStatus params epoch e .active
  | active (before : e.status = .active) (live : epoch < e.expiryEpoch) :
      KeptStatus params epoch e .active

theorem kept_or_dropped (epoch daa : ℕ) (activationOpen : Bool)
    (hunrevoked : e.revokedFromDaa = none)
    (hphase : e.status = .registering ∨ e.status.certifiable = true) :
    (palwBatchReferenceable (e.advanced epoch params activationOpen) epoch daa params = true ∧
      KeptStatus params epoch e (e.advanced epoch params activationOpen).status) ∨
    (palwBatchReferenceable (e.advanced epoch params activationOpen) epoch daa params = false ∧
      (params.deadline e.registrationEpoch < epoch ∨ e.expiryEpoch ≤ epoch)) := by
  have hunrevoked : (e.advanced epoch params activationOpen).revokedFromDaa = none := by
    rwa [advanced_eq]
  rw [referenceable_of_unrevoked hunrevoked]
  unfold PalwBatchLifecycleV1.advanced
  cases hstatus : e.status <;> rw [hstatus] at hphase <;>
    simp only [PalwBatchStatus.certifiable, reduceCtorEq, Bool.false_eq_true, or_self] at hphase
  case registering =>
    by_cases hlate : epoch > params.deadline e.registrationEpoch
    · exact .inr (by simp [hlate])
    · have hearly := not_lt.mp hlate
      exact .inl (by simp [hlate, hstatus, hearly, KeptStatus.registering hstatus hearly])
  case committed =>
    by_cases hlate : epoch ≥ params.deadline e.registrationEpoch
    · by_cases hpast : params.deadline e.registrationEpoch < epoch
      · exact .inr (by simp [hlate, hpast])
      · have hearly := not_lt.mp hpast
        exact .inl (by simp [hlate, hearly, KeptStatus.auditing (.inl hstatus) hearly])
    · have hearly := not_le.mp hlate
      exact .inl (by simp [hlate, hstatus, hearly.le, KeptStatus.committed hstatus hearly])
  case auditing =>
    by_cases hpast : params.deadline e.registrationEpoch < epoch
    · exact .inr (by simp [hstatus, hpast])
    · have hearly := not_lt.mp hpast
      exact .inl (by simp [hstatus, hearly, KeptStatus.auditing (.inr hstatus) hearly])
  case certified =>
    by_cases hdue : (activationOpen && decide (epoch ≥ e.activationNotBeforeEpoch)) = true
    · have hepoch : e.activationNotBeforeEpoch ≤ epoch :=
        of_decide_eq_true (Bool.and_eq_true_iff.mp hdue).2
      rw [if_pos hdue]
      by_cases hlive : epoch < e.expiryEpoch
      · exact .inl (by simp [hlive, KeptStatus.activated hstatus hepoch hlive])
      · exact .inr (by simp [hlive, not_lt.mp hlive])
    · rw [if_neg hdue]
      by_cases hexpired : epoch ≥ e.expiryEpoch
      · exact .inr (by simp [hexpired])
      · have hlive := not_le.mp hexpired
        exact .inl (by simp [hexpired, hstatus, hlive, KeptStatus.certified hstatus hlive])
  case active =>
    by_cases hexpired : epoch ≥ e.expiryEpoch
    · exact .inr (by simp [hexpired])
    · have hlive := not_le.mp hexpired
      exact .inl (by simp [hexpired, hstatus, hlive, KeptStatus.active hstatus hlive])

theorem EntryValid.dropped (h : EntryValid P params M batchId e) (daa : ℕ) (activationOpen : Bool)
    (href :
      palwBatchReferenceable (e.advanced epoch params activationOpen) epoch daa params ≠ true) :
    params.deadline e.registrationEpoch < epoch := by
  obtain ⟨hdeadline, hwindow⟩ := h.windows
  rcases kept_or_dropped epoch daa activationOpen h.unrevoked h.phase with
    ⟨hkept, -⟩ | ⟨-, hlate | hexpired⟩
  · exact absurd hkept href
  · exact hlate
  · omega

theorem EntryValid.withStatus (h : EntryValid P params M batchId e) {status : PalwBatchStatus}
    (hphase : status = .registering ∨ e.status.certifiable = true ∧ status.certifiable = true)
    (hcertified : status = .certified ∨ status = .active → e.certHash.isSome) :
    EntryValid P params M batchId { e with status } where
  admitted := h.admitted
  inside := h.inside
  phase := hphase.imp_right And.right
  complete hcertifiable := by
    rcases hphase with rfl | ⟨hbefore, -⟩
    · cases hcertifiable
    · exact h.complete hbefore
  certified := hcertified
  unrevoked := h.unrevoked

theorem EntryValid.advanced (h : EntryValid P params M batchId e)
    (hkept : KeptStatus params epoch e (e.advanced epoch params activationOpen).status) :
    EntryValid P params M batchId (e.advanced epoch params activationOpen) := by
  rw [advanced_eq]
  generalize (e.advanced epoch params activationOpen).status = status at hkept
  cases hkept with
  | registering before => exact h.withStatus (.inl rfl) (by simp)
  | committed before => exact h.withStatus (.inr ⟨by rw [before]; rfl, rfl⟩) (by simp)
  | auditing before =>
    refine h.withStatus (.inr ⟨?_, rfl⟩) (by simp)
    rcases before with before | before <;> rw [before] <;> rfl
  | certified before | activated before =>
    exact h.withStatus (.inr ⟨by rw [before]; rfl, rfl⟩) fun _ => h.certified (.inl before)
  | active before =>
    exact h.withStatus (.inr ⟨by rw [before]; rfl, rfl⟩) fun _ => h.certified (.inr before)

theorem ViewValid.close (h : ViewValid P params M view) :
    ViewValid P params M
      ((view.advanceEpochGated epoch params activationOpen).retain epoch daa params) := by
  refine ⟨fun hbound => ?_, fun batchId e' he' => ?_⟩
  · refine ((size_filterRows_le _ _).trans ?_).trans (h.cap hbound)
    rw [← card_keys, ← card_keys]
    exact (congrArg Finset.card (keys_mapVal _ _)).le
  · obtain ⟨e, he, rfl, href⟩ := entry_retain_advance.mp he'
    have hvalid := h.entries batchId e he
    rcases kept_or_dropped _ _ _ hvalid.unrevoked hvalid.phase with ⟨-, hkept⟩ | ⟨hdropped, -⟩
    · exact hvalid.advanced hkept
    · rw [href] at hdropped
      cases hdropped

def ActiveBy (epoch : ℕ) (view : PalwBatchViewV1) : Prop :=
  ∀ batchId e, view.entry batchId = some e → e.status = .active → e.activationNotBeforeEpoch ≤ epoch

theorem EntryStep.active (h : EntryStep e e') (hactive : e'.status = .active) :
    e.status = .active := by
  cases h with
  | @chunk index hregistering _ _ =>
    dsimp only [PalwBatchLifecycleV1.withChunk] at hactive
    rw [hregistering] at hactive
    split at hactive <;> cases hactive
  | certificate _ =>
    dsimp only at hactive
    split at hactive
    · cases hactive
    · exact hactive

theorem activeBy_foldl (h : ActiveBy epoch view) :
    ActiveBy epoch (ops.foldl (applyViewOp P params) view) := by
  refine foldlRecOn ops _ h fun view h op _ batchId e he hactive => ?_
  rcases applyViewOp_cases P params view op with
    hsame | ⟨m, carrierEpoch, -, -, -, -, heq⟩ | ⟨batchId', e₀, e', he₀, hstep, heq⟩
  · exact h batchId e (hsame ▸ he) hactive
  all_goals
    rw [heq, entry_setEntry] at he
    split at he
  · cases Option.some.inj he
    cases hactive
  · exact h batchId e he hactive
  · cases Option.some.inj he
    rw [(BatchTerms.mk.inj hstep.terms).2.1]
    exact h batchId' e₀ he₀ (hstep.active hactive)
  · exact h batchId e he hactive

theorem active_close {epoch' : ℕ} (h : ViewValid P params M view) (hactive : ActiveBy epoch view)
    (hepoch : epoch ≤ epoch')
    (he : ((view.advanceEpochGated epoch' params activationOpen).retain epoch' daa params).entry
      batchId = some e) (hstatus : e.status = .active) :
    e.activationNotBeforeEpoch ≤ epoch' ∧ epoch' < e.expiryEpoch := by
  obtain ⟨e₀, he₀, rfl, href⟩ := entry_retain_advance.mp he
  have hvalid := h.entries batchId e₀ he₀
  rcases kept_or_dropped _ _ _ hvalid.unrevoked hvalid.phase with ⟨-, hkept⟩ | ⟨hdropped, -⟩
  · rw [hstatus] at hkept
    rw [advanced_eq]
    cases hkept with
    | activated before due live => exact ⟨due, live⟩
    | active before live => exact ⟨(hactive batchId e₀ he₀ before).trans hepoch, live⟩
  · rw [href] at hdropped
    cases hdropped

/-! ## Leaving the view -/

def PastDeadline (P : PalwPrimitives) (params : PalwBatchAdmissionParams)
    (M : PalwBatchManifestV1 → Prop) (batchId : Hash64) (epoch : ℕ) : Prop :=
  ∀ m, M m → m.batchId = m.contentId P → m.batchId = batchId →
    params.deadline m.registrationEpoch < epoch

def ContentAddressed (P : PalwPrimitives) (M : PalwBatchManifestV1 → Prop) : Prop :=
  ∀ m m', M m → M m' → m.batchId = m.contentId P → m'.batchId = m'.contentId P →
    m.batchId = m'.batchId → m = m'

theorem admissionValid_contentId (h : m.admissionValid P epoch params = true) :
    m.batchId = m.contentId P := by
  simp only [PalwBatchManifestV1.admissionValid, Bool.and_eq_true, beq_iff_eq] at h
  exact h.1.1.1.1.1.1.1.1.1.1.1.2

theorem pastDeadline_of_close (h : ViewValid P params M view) (hdistinct : ContentAddressed P M)
    (he : view.entry batchId = some e)
    (hleft : ((view.advanceEpochGated epoch params activationOpen).retain epoch daa params).entry
      batchId = none) : PastDeadline P params M batchId epoch := by
  intro m hm hcontent hid
  have hvalid := h.entries batchId e he
  obtain ⟨m', hm', hid', hadmitted, hterms⟩ := hvalid.admitted
  obtain rfl : m = m' := hdistinct m m' hm hm' hcontent (admissionValid_contentId hadmitted)
    (hid.trans hid'.symm)
  rw [← (BatchTerms.mk.inj hterms).1]
  refine hvalid.dropped daa activationOpen fun href => ?_
  have hkept := entry_retain_advance.mpr ⟨e, he, rfl, href⟩
  rw [hleft] at hkept
  cases hkept

theorem entry_foldl_eq_none (hM : ∀ m carrierEpoch, .manifest m carrierEpoch ∈ ops → M m)
    (hpast : PastDeadline P params M batchId epoch)
    (htimely : ∀ m carrierEpoch, .manifest m carrierEpoch ∈ ops →
      epoch ≤ params.deadline m.registrationEpoch) (hout : view.entry batchId = none) :
    (ops.foldl (applyViewOp P params) view).entry batchId = none := by
  refine foldlRecOn (motive := (PalwBatchViewV1.entry · batchId = none)) ops _ hout
    fun view hout op hop => ?_
  rcases applyViewOp_cases P params view op with
    hsame | ⟨m, c, rfl, hvalid, -, -, heq⟩ | ⟨batchId', e₀, e', he₀, hstep, heq⟩
  · rw [hsame, hout]
  · rw [heq, entry_setEntry, if_neg, hout]
    rintro rfl
    have hlate := hpast m (hM m c hop) (admissionValid_contentId hvalid) rfl
    exact absurd (htimely m c hop) (not_le.mpr hlate)
  · rw [heq, entry_setEntry, if_neg, hout]
    rintro rfl
    rw [hout] at he₀
    cases he₀

/-! ## Runs -/

section Runs

variable {blocks before mid after : List ViewBlock} {block : ViewBlock}

def Folds (blocks : List ViewBlock) (m : PalwBatchManifestV1) : Prop :=
  ∃ block ∈ blocks, ∃ carrierEpoch, ViewOp.manifest m carrierEpoch ∈ block.ops

theorem Folds.mono {blocks' : List ViewBlock} (h : ∀ b ∈ blocks, b ∈ blocks')
    (hm : Folds blocks m) :
    Folds blocks' m :=
  let ⟨b, hb, hops⟩ := hm
  ⟨b, h b hb, hops⟩

theorem viewRun_concat (blocks : List ViewBlock) (block : ViewBlock) :
    viewRun P params (blocks ++ [block]) =
      foldViewBlock P params (viewRun P params blocks) block := by
  rw [viewRun, foldl_append]
  rfl

theorem viewValid_viewRun (hM : ∀ m, Folds blocks m → M m) :
    ViewValid P params M (viewRun P params blocks) := by
  induction blocks using List.reverseRecOn with
  | nil => exact viewValid_new
  | append_singleton blocks block ih =>
    rw [viewRun_concat]
    refine ((ih fun m hm => hM m (hm.mono fun b hb => mem_append_left _ hb)).foldl
      fun m c hc => hM m ⟨block, ?_, c, hc⟩).close
    exact mem_append_right _ mem_cons_self

theorem activeBy_viewRun (hordered : blocks.Pairwise fun a b => a.epoch ≤ b.epoch)
    (hepoch : ∀ block ∈ blocks, block.epoch ≤ epoch) :
    ActiveBy epoch (viewRun P params blocks) := by
  induction blocks using List.reverseRecOn generalizing epoch with
  | nil =>
    intro batchId e he
    simp [viewRun, PalwBatchViewV1.new, PalwBatchViewV1.entry] at he
  | append_singleton blocks block ih =>
    obtain ⟨hordered, -, hlast⟩ := pairwise_append.mp hordered
    have hbefore := ih hordered fun b hb => hlast b hb block mem_cons_self
    have hvalid : ViewValid P params (fun _ => True) (viewRun P params blocks) :=
      viewValid_viewRun fun _ _ => trivial
    intro batchId e he hactive
    rw [viewRun_concat] at he
    refine (active_close (hvalid.foldl fun _ _ _ => trivial) (activeBy_foldl hbefore) le_rfl he
      hactive).1.trans ?_
    exact hepoch block (mem_append_right _ mem_cons_self)

variable (P params) in
theorem exists_entry_foldl (ops : List ViewOp) (he : view.entry batchId = some e) :
    ∃ e', (ops.foldl (applyViewOp P params) view).entry batchId = some e' := by
  refine foldlRecOn (motive := fun v : PalwBatchViewV1 => ∃ e, v.entry batchId = some e) ops _
    ⟨e, he⟩ fun view ⟨e, he⟩ op _ => ?_
  rcases applyViewOp_cases P params view op with
    hsame | ⟨m, c, -, -, -, -, heq⟩ | ⟨batchId', e₀, e', -, -, heq⟩
  · exact ⟨e, by rw [hsame, he]⟩
  all_goals
    rw [heq, entry_setEntry]
    split
    · exact ⟨_, rfl⟩
    · exact ⟨e, he⟩

theorem exists_pastDeadline (hdistinct : ContentAddressed P M) (hvalid : ViewValid P params M view)
    (hM : ∀ m, Folds blocks m → M m) (he : view.entry batchId = some e)
    (hleft : (blocks.foldl (foldViewBlock P params) view).entry batchId = none) :
    ∃ block ∈ blocks, PastDeadline P params M batchId block.epoch := by
  induction blocks generalizing view e with
  | nil =>
    rw [foldl_nil, he] at hleft
    cases hleft
  | cons block blocks ih =>
    obtain ⟨e₁, he₁⟩ := exists_entry_foldl P params block.ops he
    have hfolded : ViewValid P params M (block.ops.foldl (applyViewOp P params) view) :=
      hvalid.foldl fun m c hc => hM m ⟨block, mem_cons_self, c, hc⟩
    cases hnext : (foldViewBlock P params view block).entry batchId with
    | none => exact ⟨block, mem_cons_self, pastDeadline_of_close hfolded hdistinct he₁ hnext⟩
    | some e₂ =>
      obtain ⟨b, hb, hpast⟩ := ih hfolded.close
        (fun m hm => hM m (hm.mono fun b hb => mem_cons_of_mem _ hb)) hnext hleft
      exact ⟨b, mem_cons_of_mem _ hb, hpast⟩

def ViewBlock.Timely (params : PalwBatchAdmissionParams) (block : ViewBlock) : Prop :=
  ∀ m carrierEpoch, .manifest m carrierEpoch ∈ block.ops →
    block.epoch ≤ params.deadline m.registrationEpoch

theorem entry_foldl_blocks_eq_none (hM : ∀ m, Folds blocks m → M m)
    (hpast : PastDeadline P params M batchId epoch) (hepoch : ∀ block ∈ blocks, epoch ≤ block.epoch)
    (htimely : ∀ block ∈ blocks, block.Timely params) (hout : view.entry batchId = none) :
    (blocks.foldl (foldViewBlock P params) view).entry batchId = none := by
  induction blocks generalizing view with
  | nil => exact hout
  | cons block blocks ih =>
    refine ih (fun m hm => hM m (hm.mono fun b hb => mem_cons_of_mem _ hb))
      (forall_mem_cons.mp hepoch).2
      (forall_mem_cons.mp htimely).2 ?_
    have hlate : PastDeadline P params M batchId block.epoch := fun m hm hcontent hid =>
      (hpast m hm hcontent hid).trans_le (hepoch block mem_cons_self)
    have hfold := entry_foldl_eq_none (fun m c hc => hM m ⟨block, mem_cons_self, c, hc⟩) hlate
      (htimely block mem_cons_self) hout
    rw [foldViewBlock, Option.eq_none_iff_forall_ne_some]
    intro e he
    obtain ⟨e₀, he₀, -⟩ := entry_retain_advance.mp he
    rw [hfold] at he₀
    cases he₀

/-- What a view shows at any time: it is within its cap, no bit lies past the chunks of a batch, and
a certified or active batch has a certificate. -/
def ViewSound (params : PalwBatchAdmissionParams) (view : PalwBatchViewV1) : Prop :=
  (params.maxViewBatches ≠ 0 → view.batches.size ≤ params.maxViewBatches) ∧
    ∀ batchId e, view.entry batchId = some e → (∀ index ∈ e.chunksPresent, index < e.chunkCount) ∧
      (e.status = .certified ∨ e.status = .active → e.certHash.isSome)

theorem ViewValid.sound (h : ViewValid P params M view) : ViewSound params view :=
  ⟨h.cap, fun batchId e he => ⟨fun _ hindex =>
    Finset.mem_range.mp ((h.entries batchId e he).inside hindex),
    (h.entries batchId e he).certified⟩⟩

/-- Along every chain whose epochs do not decrease, the view is sound inside every fold and at the
end of every block. If no block folds a manifest past its registration deadline, a batch that has
left the view never enters it again. -/
theorem batchView_runs (hordered : blocks.Pairwise fun a b => a.epoch ≤ b.epoch) :
    (∀ before block after, blocks = before ++ block :: after →
      (∀ ops, ops <+: block.ops →
        ViewSound params (ops.foldl (applyViewOp P params) (viewRun P params before))) ∧
      ViewSound params (viewRun P params (before ++ [block])) ∧
      ∀ batchId e, (viewRun P params (before ++ [block])).entry batchId = some e →
        e.status = .active → e.activationNotBeforeEpoch ≤ block.epoch ∧
          block.epoch < e.expiryEpoch) ∧
    ((∀ block ∈ blocks, block.Timely params) → ContentAddressed P (Folds blocks) →
      ∀ before mid after, blocks = before ++ mid ++ after →
        ∀ batchId e, (viewRun P params before).entry batchId = some e →
          (viewRun P params (before ++ mid)).entry batchId = none →
          (viewRun P params blocks).entry batchId = none ∧
          ∀ block rest ops, after = block :: rest → ops <+: block.ops →
            (ops.foldl (applyViewOp P params) (viewRun P params (before ++ mid))).entry batchId =
              none) := by
  constructor
  · rintro before block after rfl
    have hvalid : ∀ bs, ViewValid P params (fun _ => True) (viewRun P params bs) :=
      fun _ => viewValid_viewRun fun _ _ => trivial
    refine ⟨fun ops _ => ((hvalid before).foldl fun _ _ _ => trivial).sound, (hvalid _).sound, ?_⟩
    intro batchId e he hactive
    obtain ⟨hbefore, -, hlast⟩ := pairwise_append.mp hordered
    have hsince : ActiveBy block.epoch (viewRun P params before) :=
      activeBy_viewRun hbefore fun b hb => hlast b hb block mem_cons_self
    rw [viewRun_concat] at he
    exact active_close ((hvalid before).foldl fun _ _ _ => trivial) (activeBy_foldl hsince) le_rfl
      he hactive
  · rintro htimely hdistinct before mid after rfl batchId e he hleft
    have hvalid : ViewValid P params (Folds (before ++ mid ++ after)) (viewRun P params before) :=
      viewValid_viewRun fun m hm => hm.mono fun b hb => by simp [hb]
    have hout := hleft
    rw [viewRun, foldl_append, ← viewRun] at hleft
    obtain ⟨last, hlast, hpast⟩ := exists_pastDeadline hdistinct hvalid
      (fun m hm => hm.mono fun b hb => by simp [hb]) he hleft
    have hafter : ∀ b ∈ after, last.epoch ≤ b.epoch := fun b hb =>
      (pairwise_append.mp hordered).2.2 last (mem_append_right _ hlast) b hb
    refine ⟨?_, ?_⟩
    · rw [viewRun, foldl_append, ← viewRun]
      exact entry_foldl_blocks_eq_none (fun m hm => hm.mono fun b hb => by simp [hb]) hpast hafter
        (forall_mem_append.mp htimely).2 hout
    · rintro block rest ops rfl hops
      have hlate :
          PastDeadline P params (Folds (before ++ mid ++ block :: rest)) batchId block.epoch :=
        fun m hm hcontent hid => (hpast m hm hcontent hid).trans_le (hafter block mem_cons_self)
      refine entry_foldl_eq_none (fun m c hc => ?_) hlate (fun m c hc => ?_) hout
      · exact ⟨block, by simp, c, hops.subset hc⟩
      · exact htimely block (by simp) m c (hops.subset hc)

end Runs

def sampleAbandonedRun : List ViewBlock :=
  [⟨1, 150, [.manifest (sampleManifest sampleBatchId 1 1) 1], false⟩, ⟨10, 1000, [], false⟩,
    ⟨10, 1010, [.leafChunk sampleBatchId 0], false⟩]

theorem batchView_runs_abandoned :
    (viewRun samplePalwPrimitives .INERT (sampleAbandonedRun.take 1)).batches.size = 1 ∧
      (viewRun samplePalwPrimitives .INERT sampleAbandonedRun).entry sampleBatchId = none := by
  have hordered : sampleAbandonedRun.Pairwise fun a b => a.epoch ≤ b.epoch := by
    decide +kernel
  have hfolds : ∀ m, Folds sampleAbandonedRun m → m = sampleManifest sampleBatchId 1 1 := by
    rintro m ⟨block, hblock, c, hc⟩
    simp only [sampleAbandonedRun, mem_cons, not_mem_nil, or_false] at hblock
    rcases hblock with rfl | rfl | rfl <;> simp at hc
    exact hc.1
  refine ⟨by decide +kernel, ((batchView_runs hordered).2 ?_
    (fun m m' hm hm' _ _ _ => (hfolds m hm).trans (hfolds m' hm').symm)
    (sampleAbandonedRun.take 1) ((sampleAbandonedRun.drop 1).take 1) (sampleAbandonedRun.drop 2)
    rfl sampleBatchId (sampleManifest sampleBatchId 1 1).registered (by decide +kernel)
    (by decide +kernel)).1⟩
  intro block hblock m c hc
  simp only [sampleAbandonedRun, mem_cons, not_mem_nil, or_false] at hblock
  rcases hblock with rfl | rfl | rfl <;> simp at hc
  rw [hc.1]
  decide

def certifyingPrimitives : PalwPrimitives :=
  { samplePalwPrimitives with
    decodeCertificate := fun
      | [hi, lo] => some
        { version := 2
          batchId := sampleWord hi lo
          manifestHash := 0
          leafRoot := 0
          auditBeaconEpoch := 0
          auditSampleRoot := 0
          passedLeafCount := 0
          rejectedLeafBitmapRoot := 0
          certificateEpoch := 0
          activationEpoch := 0
          expiryEpoch := 0
          auditorSetCommitment := 0
          approvingStake := 0
          votes := [] }
      | _ => none }

/-- The same batch; a second carrier of its own epoch is merged after the batch was dropped, with
the manifest, the chunk and a certificate. -/
def sampleLateCarrier : List BodyBlock :=
  [⟨150, [(150, [sampleManifestTx])], false⟩, ⟨1000, [], false⟩,
    ⟨1010, [(160, [sampleManifestTx, sampleLeafChunkTx,
      sampleOverlayTx 12 (.fromByte 0x33) (sampleWordBytes sampleBatchId)])], false⟩]

/-- The batch leaves the view and re-enters it, certified. -/
theorem late_carrier_readmits_batch :
    let blocks := sampleLateCarrier.map (·.viewBlock certifyingPrimitives sampleProcessor)
    blocks.Pairwise (fun a b => a.epoch ≤ b.epoch) ∧
      ((viewRun certifyingPrimitives .INERT (blocks.take 1)).entry sampleBatchId).map (·.status) =
        some .registering ∧
      (viewRun certifyingPrimitives .INERT (blocks.take 2)).entry sampleBatchId = none ∧
      ((viewRun certifyingPrimitives .INERT blocks).entry sampleBatchId).map (·.status) =
        some .certified := by
  decide +kernel

end Misaka.Palw
