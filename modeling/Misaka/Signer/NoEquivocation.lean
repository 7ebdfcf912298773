import Misaka.Signer.Engine

/-!
# What a strict signer releases

Along a run of requests and restarts, the file of a validator has a record of every attestation
whose signature left, and the memory store of a loaded validator holds at least what its file holds.
-/

namespace Misaka.Signer

open Misaka.Core Dns List Table

structure AttestedFacts where
  networkId : Bytes
  epoch : ℕ
  targetHash : Hash64
  targetDaaScore : ℕ
  validatorSetCommitment : Hash64
  bondOutpoint : TransactionOutpoint
  deriving DecidableEq, Repr

variable (P : SignerPrimitives) (formed : Set AttestedFacts)

def AttestedFacts.digest (a : AttestedFacts) : Bytes :=
  stakeAttestationMessage P.toPrimitives a.networkId a.epoch a.targetHash a.targetDaaScore
    a.validatorSetCommitment a.bondOutpoint

def Verifies (validatorId : Hash64) (message signature context : Bytes) : Prop :=
  verifyMldsa87WithContext P.toPrimitives (P.publicKey validatorId) message signature context =
    .ok true

/-- A signature made under one context verifies under no other, as ML-DSA-87 binds the context. -/
def ContextBinding : Prop :=
  ∀ signer randomness message context validatorId message' context',
    Verifies P validatorId message' (P.signWithContext signer randomness message context) context' →
      context' = context

def ReleasePurpose.reservedContext : ReleasePurpose → Option Bytes
  | .request purpose => purpose.requiredContext
  | .auditCheckpoint => some AUDIT_CHECKPOINT_MLDSA87_CONTEXT

/-- No two released signatures of one key are over the digests of two attestations, of those that
were formed, of one epoch with different targets. -/
def NoEquivocation (released : List Released) : Prop :=
  ∀ r ∈ released, ∀ r' ∈ released, r.validatorId = r'.validatorId →
    r.context = ATTESTATION_MLDSA87_CONTEXT → r'.context = ATTESTATION_MLDSA87_CONTEXT →
    ∀ a ∈ formed, ∀ a' ∈ formed, a.digest P = r.message → a'.digest P = r'.message →
      a.epoch = a'.epoch →
      a.targetHash = a'.targetHash ∧ a.targetDaaScore = a'.targetDaaScore

def ContextsKept (released : List Released) : Prop :=
  ∀ r ∈ released, ∀ purpose : ReleasePurpose, purpose ≠ r.purpose →
    ∀ context, purpose.reservedContext = some context →
      ∀ validatorId message, ¬Verifies P validatorId message r.signature context

/-- A request that says what it wants signed: the metadata is of the attestation its digest is of, a
transaction does not borrow the checkpoint context, and what the memory store holds for the epoch is
in the file. -/
structure FairRequest (w : SignerWorld) (req : SignerRequest) : Prop where
  metadata : req.purpose = .attestation → ∀ a ∈ formed, a.digest P = req.messageDigest.bytes →
      req.metadata = .attestation a.epoch a.targetHash a.targetDaaScore
  checkpoint : req.purpose = .transaction → req.context ≠ AUDIT_CHECKPOINT_MLDSA87_CONTEXT
  durable : req.purpose = .attestation → ∀ epoch targetHash targetDaaScore,
    req.metadata = .attestation epoch targetHash targetDaaScore →
    ∀ record, (w.state.store req.validatorId).lookup epoch = some record →
      (w.dir.records req.validatorId).lookup epoch = some record

def FairEvent (w : SignerWorld) : SignerEvent → Prop
  | .request req _ _ _ => FairRequest P formed w req
  | .restart _ _ => True

/-! ## The log in memory and on disk -/

def MemoryCovers (st : SignerState) (dir : StateDir) : Prop :=
  ∀ validatorId store, st.epochStores.lookup validatorId = some store →
    ∀ epoch record, (dir.records validatorId).lookup epoch = some record →
      store.lookup epoch = some record

def DiskGrows (dir dir' : StateDir) : Prop :=
  ∀ validatorId epoch record, (dir.records validatorId).lookup epoch = some record →
    (dir'.records validatorId).lookup epoch = some record

theorem diskGrows_refl (dir : StateDir) : DiskGrows dir dir := fun _ _ _ h => h

variable {P formed}

theorem records_insert (dir : StateDir) (vid other : Hash64) (records : SignedEpochs) :
    ({ dir with epochs := dir.epochs.insert vid records } : StateDir).records other =
      if other = vid then records else dir.records other := by
  simp only [StateDir.records, lookup_insert_eq]
  split <;> rfl

variable {st st' : SignerState} {dir : StateDir} {vid : Hash64} {loadError : Option String}
  {req : SignerRequest} {context : Bytes}

theorem loadStore_eq_ok (h : st.loadStore dir vid loadError = .ok st')
    (hcovers : MemoryCovers st dir) :
    MemoryCovers st' dir ∧ st'.policy = st.policy ∧
      (∃ store, st'.epochStores.lookup vid = some store) ∧
      (st'.store vid = st.store vid ∨
        st'.store vid = dir.records vid) := by
  unfold SignerState.loadStore at h
  split at h
  · rename_i store hstore
    cases h
    exact ⟨hcovers, rfl, ⟨store, hstore⟩, .inl rfl⟩
  · cases h
  · cases h
    refine ⟨fun v store hstore epoch record hrecord => ?_, rfl, ⟨dir.records vid, ?_⟩,
      .inr ?_⟩
    · simp only [lookup_insert_eq] at hstore
      split at hstore
      · rename_i hv
        cases hstore
        rwa [← hv]
      · exact hcovers v store hstore epoch record hrecord
    · exact Finmap.lookup_insert _
    · simp [SignerState.store]

variable {dir' : StateDir} {io : SignerIo} {result : Except SignerError Bytes} {r : Released}
  {w : SignerWorld}

theorem recordAndFlush_spec {record : SignedEpochRecord} {flushError : Option String}
    {result : Except SignerError Unit}
    (h : st.recordAndFlush dir vid record flushError = (result, st', dir'))
    (hcovers : MemoryCovers st dir)
    (hloaded : ∃ store, st.epochStores.lookup vid = some store)
    (hnew : (st.store vid).lookup record.epoch = none) :
    MemoryCovers st' dir' ∧ DiskGrows dir dir' ∧ st'.policy = st.policy ∧
      (result = .ok () → (dir'.records vid).lookup record.epoch = some record) := by
  obtain ⟨store, hstore⟩ := hloaded
  have hstoreEq : st.store vid = store := by
    rw [SignerState.store, hstore, Option.getD_some]
  rw [hstoreEq] at hnew
  -- the record of another epoch, or of the file, is found in the new records
  have hkept : ∀ epoch r, (dir.records vid).lookup epoch = some r →
      (store.insert record.epoch record).lookup epoch = some r := by
    intro epoch r hr
    have hmem := hcovers vid store hstore epoch r hr
    have hne : epoch ≠ record.epoch := by
      rintro rfl
      rw [hnew] at hmem
      cases hmem
    rw [lookup_insert_eq, if_neg hne, hmem]
  unfold SignerState.recordAndFlush at h
  rw [hstoreEq] at h
  cases flushError with
  | some e =>
    cases h
    refine ⟨fun v s hs epoch r hr => ?_, diskGrows_refl dir, rfl, nofun⟩
    simp only [lookup_insert_eq] at hs
    split at hs
    · rename_i hv
      cases hs
      exact hkept epoch r (hv ▸ hr)
    · exact hcovers v s hs epoch r hr
  | none =>
    cases h
    refine ⟨fun v s hs epoch r hr => ?_, fun v epoch r hr => ?_, rfl, fun _ => ?_⟩
    · rw [records_insert] at hr
      simp only [lookup_insert_eq] at hs
      split at hs
      · rename_i hv
        cases hs
        rwa [if_pos hv] at hr
      · rename_i hv
        rw [if_neg hv] at hr
        exact hcovers v s hs epoch r hr
    · rw [records_insert]
      split
      · rename_i hv
        exact hkept epoch r (hv ▸ hr)
      · exact hr
    · rw [records_insert, if_pos rfl]
      exact Finmap.lookup_insert _

def RecordsTarget (dir : StateDir) (req : SignerRequest) : Prop :=
  ∃ epoch targetHash targetDaaScore record,
    req.metadata = .attestation epoch targetHash targetDaaScore ∧
      (dir.records req.validatorId).lookup epoch = some record ∧
      record.targetHash = targetHash ∧ record.targetDaaScore = targetDaaScore

def DurableFor (st : SignerState) (dir : StateDir) (req : SignerRequest) : Prop :=
  ∀ epoch targetHash targetDaaScore, req.metadata = .attestation epoch targetHash targetDaaScore →
    ∀ record, (st.store req.validatorId).lookup epoch = some record →
      (dir.records req.validatorId).lookup epoch = some record

theorem guardEpoch_attestation {result : Except SignerError (Option SignedEpochRecord)}
    (hpurpose : req.purpose = .attestation) (hstrict : st.policy = .strict)
    (hcovers : MemoryCovers st dir) (hdurable : DurableFor st dir req)
    (h : st.guardEpoch dir req loadError = (result, st')) :
    MemoryCovers st' dir ∧ st'.policy = .strict ∧
      (result = .ok none → RecordsTarget dir req) ∧
      ∀ candidate, result = .ok (some candidate) →
        (∃ epoch hash daa,
          req.metadata = .attestation epoch hash daa ∧
            candidate = ⟨epoch, hash, daa, 0⟩) ∧
        (∃ store, st'.epochStores.lookup req.validatorId = some store) ∧
        (st'.store req.validatorId).lookup candidate.epoch = none := by
  unfold SignerState.guardEpoch at h
  rw [if_pos ⟨hpurpose, by rw [hstrict]; decide⟩] at h
  cases hmetadata : req.metadata with
  | none | takeoverToken =>
    rw [hmetadata] at h
    cases h
    exact ⟨hcovers, hstrict, nofun, nofun⟩
  | attestation epoch hash daa =>
    rw [hmetadata] at h
    cases hload : st.loadStore dir req.validatorId loadError with
    | error e =>
      simp only [hload] at h
      cases h
      exact ⟨hcovers, hstrict, nofun, nofun⟩
    | ok loaded =>
      obtain ⟨hcovers', hpolicy, hloaded, hstore⟩ := loadStore_eq_ok hload hcovers
      have hstrict' : loaded.policy = .strict := hpolicy.trans hstrict
      simp only [hload] at h
      cases hrecord : (loaded.store req.validatorId).lookup epoch with
      | none =>
        simp only [hrecord, checkSignedEpochRecord] at h
        cases h
        refine ⟨hcovers', hstrict', nofun, fun candidate hcandidate => ?_⟩
        cases hcandidate
        exact ⟨⟨epoch, hash, daa, rfl, rfl⟩, hloaded, hrecord⟩
      | some record =>
        simp only [hrecord, checkSignedEpochRecord] at h
        by_cases htarget : record.targetHash = hash ∧ record.targetDaaScore = daa
        · simp only [if_pos htarget] at h
          cases h
          refine ⟨hcovers', hstrict', fun _ => ?_, nofun⟩
          refine ⟨epoch, hash, daa, record, hmetadata, ?_, htarget⟩
          rcases hstore with hstore | hstore
          · rw [hstore] at hrecord
            exact hdurable epoch hash daa hmetadata record hrecord
          · rwa [hstore] at hrecord
        · simp only [if_neg htarget, hstrict', if_true] at h
          cases h
          exact ⟨hcovers', hstrict', nofun, nofun⟩

theorem guardEpoch_other (hpurpose : req.purpose ≠ .attestation) :
    st.guardEpoch dir req loadError = (.ok none, st) := by
  unfold SignerState.guardEpoch
  rw [if_neg fun h => hpurpose h.1]

/-- Signing: memory covers disk afterwards, nothing on disk is lost, and a signed attestation is on
disk with the target it names. -/
theorem trySign_spec (hstrict : st.policy = .strict) (hcovers : MemoryCovers st dir)
    (hdurable : req.purpose = .attestation → DurableFor st dir req)
    (h : st.trySign P dir req io = (result, st', dir')) :
    MemoryCovers st' dir' ∧ DiskGrows dir dir' ∧ st'.policy = .strict ∧
      ∀ sig, result = .ok sig → st.checkRequest req = .ok () ∧
        sig = P.signWithContext req.validatorId io.randomness req.messageDigest.bytes req.context ∧
        (req.purpose = .attestation → RecordsTarget dir' req) := by
  unfold SignerState.trySign at h
  cases hcheck : st.checkRequest req with
  | error e =>
    simp only [hcheck] at h
    cases h
    exact ⟨hcovers, diskGrows_refl dir, hstrict, nofun⟩
  | ok _ =>
    simp only [hcheck] at h
    by_cases hpurpose : req.purpose = .attestation
    · obtain ⟨guarded, st₁, hguard⟩ : ∃ guarded st₁,
          st.guardEpoch dir req io.loadError = (guarded, st₁) := ⟨_, _, rfl⟩
      obtain ⟨hcovers₁, hstrict₁, hrebroadcast, hnew⟩ :=
        guardEpoch_attestation hpurpose hstrict hcovers (hdurable hpurpose) hguard
      rw [hguard] at h
      cases guarded with
      | error e =>
        cases h
        exact ⟨hcovers₁, diskGrows_refl dir, hstrict₁, nofun⟩
      | ok recordAfterSign =>
        cases recordAfterSign with
        | none =>
          cases h
          refine ⟨hcovers₁, diskGrows_refl dir, hstrict₁, fun sig hsig => ?_⟩
          exact ⟨rfl, (Except.ok.inj hsig).symm, fun _ => hrebroadcast rfl⟩
        | some candidate =>
          obtain ⟨⟨epoch, hash, daa, hmetadata, rfl⟩, hloaded, hnone⟩ :=
            hnew candidate rfl
          simp only at h
          set sig := P.signWithContext req.validatorId io.randomness req.messageDigest.bytes
            req.context with hsig
          obtain ⟨flushed, st₂, dir₂, hflush⟩ : ∃ flushed st₂ dir₂, st₁.recordAndFlush dir
              req.validatorId ⟨epoch, hash, daa, signatureFingerprint P sig⟩
              io.flushError = (flushed, st₂, dir₂) := ⟨_, _, _, rfl⟩
          obtain ⟨hcovers₂, hgrows, hpolicy, hondisk⟩ :=
            recordAndFlush_spec hflush hcovers₁ hloaded hnone
          rw [hflush] at h
          cases flushed with
          | error e =>
            cases h
            exact ⟨hcovers₂, hgrows, hpolicy.trans hstrict₁, nofun⟩
          | ok _ =>
            cases h
            refine ⟨hcovers₂, hgrows, hpolicy.trans hstrict₁, fun s hs => ?_⟩
            exact ⟨rfl, (Except.ok.inj hs).symm, fun _ =>
              ⟨epoch, hash, daa, _, hmetadata, hondisk rfl, rfl, rfl⟩⟩
    · rw [guardEpoch_other hpurpose] at h
      cases h
      exact ⟨hcovers, diskGrows_refl dir, hstrict, fun sig hsig =>
        ⟨rfl, (Except.ok.inj hsig).symm, fun h => absurd h hpurpose⟩⟩

/-! ## Runs -/

structure Released.Proper (P : SignerPrimitives) (r : Released) : Prop where
  made : ∃ randomness, r.signature = P.signWithContext r.validatorId randomness r.message r.context
  reserved : ∀ context, r.purpose.reservedContext = some context → r.context = context
  unreserved : r.purpose.reservedContext = none →
    ∀ purpose : ReleasePurpose, purpose.reservedContext ≠ some r.context

structure SignerInv (P : SignerPrimitives) (formed : Set AttestedFacts) (w : SignerWorld) :
    Prop where
  strict : w.state.policy = .strict
  covers : MemoryCovers w.state w.dir
  logged : ∀ r ∈ w.released, r.context = ATTESTATION_MLDSA87_CONTEXT →
    ∀ a ∈ formed, a.digest P = r.message →
      ∃ record, (w.dir.records r.validatorId).lookup a.epoch = some record ∧
        record.targetHash = a.targetHash ∧ record.targetDaaScore = a.targetDaaScore
  proper : ∀ r ∈ w.released, r.Proper P

theorem memoryCovers_new (keys : List Hash64) (policy : SignerPolicy) (dir : StateDir)
    (denied : List SigningPurpose) : MemoryCovers (.new P keys policy dir denied) dir := by
  intro v store h
  exact nomatch (Finmap.lookup_empty v).symm.trans h

theorem signerInv_initial (keys : List Hash64) (denied : List SigningPurpose) :
    SignerInv P formed (.initial P keys denied) :=
  ⟨rfl, memoryCovers_new keys .strict _ denied, nofun, nofun⟩

theorem reservedContext_inj {p q : ReleasePurpose} (hp : p.reservedContext = some context)
    (hq : q.reservedContext = some context) : p = q := by
  have hcases : ∀ r : ReleasePurpose, r.reservedContext = none ∨
      r = .request .attestation ∨ r = .request .unbond ∨ r = .request .takeoverToken ∨
      r = .auditCheckpoint := by
    rintro (purpose | _)
    · cases purpose <;> simp [ReleasePurpose.reservedContext, SigningPurpose.requiredContext]
    · simp
  have hdistinct : (ATTESTATION_MLDSA87_CONTEXT ≠ UNBOND_REQUEST_CONTEXT ∧
      ATTESTATION_MLDSA87_CONTEXT ≠ TAKEOVER_TOKEN_CONTEXT ∧
      ATTESTATION_MLDSA87_CONTEXT ≠ AUDIT_CHECKPOINT_MLDSA87_CONTEXT ∧
      UNBOND_REQUEST_CONTEXT ≠ TAKEOVER_TOKEN_CONTEXT ∧
      UNBOND_REQUEST_CONTEXT ≠ AUDIT_CHECKPOINT_MLDSA87_CONTEXT ∧
      TAKEOVER_TOKEN_CONTEXT ≠ AUDIT_CHECKPOINT_MLDSA87_CONTEXT) := by
    decide +kernel
  rcases hcases p with h | rfl | rfl | rfl | rfl
  · rw [h] at hp
    cases hp
  all_goals
    rcases hcases q with h | rfl | rfl | rfl | rfl
    · rw [h] at hq
      cases hq
    all_goals
      simp only [ReleasePurpose.reservedContext, SigningPurpose.requiredContext,
        Option.some.injEq] at hp hq
      grind

theorem checkRequest_context (h : st.checkRequest req = .ok ()) :
    (∀ context, req.purpose.requiredContext = some context → req.context = context) ∧
      (req.purpose.requiredContext = none → OVERLAY_CONTEXTS.contains req.context = false) := by
  obtain ⟨-, h⟩ := check_bind_eq_ok.mp h
  obtain ⟨hcontext, -⟩ := check_bind_eq_ok.mp h
  unfold checkContext at hcontext
  cases hrequired : req.purpose.requiredContext with
  | some context =>
    simp only [hrequired] at hcontext
    refine ⟨fun c hc => ?_, nofun⟩
    cases hc
    simpa using failIf_eq_ok.mp hcontext
  | none =>
    simp only [hrequired] at hcontext
    exact ⟨nofun, fun _ => failIf_eq_ok.mp hcontext⟩

theorem mem_auditCheckpoint (h : r ∈ st.auditCheckpoint P io) :
    r.purpose = .auditCheckpoint ∧ r.Proper P := by
  unfold SignerState.auditCheckpoint at h
  split at h
  · cases h
  · split at h
    · cases h
    · rw [mem_singleton.mp h]
      refine ⟨rfl, ⟨_, rfl⟩, fun context hreserved => ?_, nofun⟩
      cases hreserved
      rfl

/-- What leaves with a request is a checkpoint or the signature that was made for it, and the log is
what signing left. -/
theorem handleRequest_spec {st₁ : SignerState} {dir₁ : StateDir} (client : Bytes) (now : ℕ)
    (htry : st.trySign P dir req io = (result, st₁, dir₁)) :
    let answered := st.handleRequest P dir req client now io
    answered.2.1.policy = st₁.policy ∧ answered.2.1.epochStores = st₁.epochStores ∧
      answered.2.2.1.epochs = dir₁.epochs ∧
      ∀ r ∈ answered.2.2.2,
        (r.purpose = .auditCheckpoint ∧ r.Proper P) ∨
        ∃ sig, result = .ok sig ∧ r = ⟨.request req.purpose, req.validatorId,
          req.messageDigest.bytes, req.context, sig⟩ := by
  simp only [SignerState.handleRequest, htry]
  cases io.auditError with
  | some e => exact ⟨rfl, rfl, rfl, nofun⟩
  | none =>
    simp only
    refine ⟨?_, ?_, trivial, fun r hr => ?_⟩
    · split <;> rfl
    · split <;> rfl
    · rcases mem_append.mp hr with hr | hr
      · split at hr
        · exact .inl (mem_auditCheckpoint hr)
        · cases hr
      · cases result with
        | error e => cases hr
        | ok sig => exact .inr ⟨sig, rfl, mem_singleton.mp hr⟩

theorem records_congr (h : dir'.epochs = dir.epochs) (v : Hash64) :
    dir'.records v = dir.records v := by
  rw [StateDir.records, StateDir.records, h]

theorem proper_request {randomness : ℕ} (hfair : FairRequest P formed w req)
    (hcheck : w.state.checkRequest req = .ok ()) :
    Released.Proper P ⟨.request req.purpose, req.validatorId, req.messageDigest.bytes, req.context,
      P.signWithContext req.validatorId randomness req.messageDigest.bytes req.context⟩ := by
  obtain ⟨hrequired, hborrowed⟩ := checkRequest_context hcheck
  refine ⟨⟨randomness, rfl⟩, hrequired, fun hnone purpose hreserved => ?_⟩
  have htransaction : req.purpose = .transaction := by
    cases hpurpose : req.purpose with
    | transaction => rfl
    | attestation | unbond | takeoverToken =>
      rw [show ReleasePurpose.reservedContext (.request req.purpose) =
        req.purpose.requiredContext from rfl, hpurpose] at hnone
      cases hnone
  have hoverlay := hborrowed hnone
  have hcheckpoint := hfair.checkpoint htransaction
  rcases purpose with purpose | _
  · have hmem : OVERLAY_CONTEXTS.contains req.context = true := by
      cases purpose with
      | transaction => cases hreserved
      | attestation | unbond | takeoverToken =>
        rw [show req.context = _ from (Option.some.inj hreserved).symm]
        decide
    rw [hmem] at hoverlay
    cases hoverlay
  · exact hcheckpoint (Option.some.inj hreserved).symm

theorem Released.Proper.attestation (h : r.Proper P)
    (hcontext : r.context = ATTESTATION_MLDSA87_CONTEXT) : r.purpose = .request .attestation := by
  cases hreserved : r.purpose.reservedContext with
  | none =>
    exact absurd (congrArg some hcontext.symm) (h.unreserved hreserved (.request .attestation))
  | some context =>
    have heq := h.reserved context hreserved
    exact reservedContext_inj (hreserved.trans (congrArg some (heq.symm.trans hcontext))) rfl

theorem SignerInv.step {event : SignerEvent} (h : SignerInv P formed w)
    (hfair : FairEvent P formed w event) : SignerInv P formed (w.step P event) := by
  cases event with
  | restart keys denied =>
    exact ⟨rfl, memoryCovers_new keys .strict w.dir denied, h.logged, h.proper⟩
  | request req client now io =>
    have hfair : FairRequest P formed w req := hfair
    obtain ⟨result, st₁, dir₁, htry⟩ : ∃ result st₁ dir₁,
        w.state.trySign P w.dir req io = (result, st₁, dir₁) := ⟨_, _, _, rfl⟩
    obtain ⟨hcovers, hgrows, hstrict, hsigned⟩ := trySign_spec h.strict h.covers hfair.durable htry
    obtain ⟨hpolicy, hstores, hepochs, hreleased⟩ :=
      handleRequest_spec client now htry
    -- what left with this request
    have hproper : ∀ r ∈ (w.state.handleRequest P w.dir req client now io).2.2.2,
        r.Proper P := by
      intro r hr
      rcases hreleased r hr with ⟨-, hproper⟩ | ⟨sig, hsig, rfl⟩
      · exact hproper
      · obtain ⟨hcheck, rfl, -⟩ := hsigned sig hsig
        exact proper_request hfair hcheck
    constructor
    · exact hpolicy.trans hstrict
    · intro v store hstore epoch record hrecord
      rw [show (w.step P (.request req client now io)).dir.records v = dir₁.records v from
        records_congr hepochs v] at hrecord
      exact hcovers v store (hstores ▸ hstore) epoch record hrecord
    · intro r hr hcontext a hformed ha
      rw [show (w.step P (.request req client now io)).dir.records r.validatorId =
        dir₁.records r.validatorId from records_congr hepochs r.validatorId]
      rcases mem_append.mp hr with hr | hr
      · obtain ⟨record, hrecord, htarget⟩ := h.logged r hr hcontext a hformed ha
        exact ⟨record, hgrows _ _ _ hrecord, htarget⟩
      · have hpurpose := (hproper r hr).attestation hcontext
        rcases hreleased r hr with ⟨hcheckpoint, -⟩ | ⟨sig, hsig, rfl⟩
        · rw [hcheckpoint] at hpurpose
          cases hpurpose
        · have hattestation : req.purpose = .attestation := ReleasePurpose.request.inj hpurpose
          obtain ⟨-, -, htarget⟩ := hsigned sig hsig
          obtain ⟨epoch, hash, daa, record, hmetadata, hrecord, hhash, hdaa⟩ :=
            htarget hattestation
          have hclaimed := hfair.metadata hattestation a hformed ha
          rw [hmetadata] at hclaimed
          cases hclaimed
          exact ⟨record, hrecord, hhash, hdaa⟩
    · exact forall_mem_append.mpr ⟨h.proper, hproper⟩

/-- In every run of requests and restarts of a strict signer whose requests are fair in the state
they arrive in, no two released signatures equivocate, and none verifies under the context of
another purpose. -/
theorem strict_signer_never_equivocates (P : SignerPrimitives) (hbinding : ContextBinding P)
    (formed : Set AttestedFacts) (keys : List Hash64) (denied : List SigningPurpose)
    (events : List SignerEvent)
    (hfair : StepsMeet (SignerWorld.step P) (FairEvent P formed) (.initial P keys denied) events) :
    let w := events.foldl (SignerWorld.step P) (.initial P keys denied)
    NoEquivocation P formed w.released ∧ ContextsKept P w.released := by
  intro w
  have hinv : SignerInv P formed w :=
    hfair.invariant (fun _ _ hw hok => hw.step hok) (signerInv_initial keys denied)
  constructor
  · intro r hr r' hr' hvalidator hcontext hcontext' a hformed a' hformed' ha ha' hepoch
    obtain ⟨record, hrecord, htarget⟩ := hinv.logged r hr hcontext a hformed ha
    obtain ⟨record', hrecord', htarget'⟩ := hinv.logged r' hr' hcontext' a' hformed' ha'
    rw [hvalidator, hepoch, hrecord'] at hrecord
    cases hrecord
    exact ⟨htarget.1.symm.trans htarget'.1, htarget.2.symm.trans htarget'.2⟩
  · intro r hr purpose hne context hreserved v message hverifies
    have hproper := hinv.proper r hr
    obtain ⟨randomness, hmade⟩ := hproper.made
    rw [hmade] at hverifies
    have hcontext := hbinding _ _ _ _ _ _ _ hverifies
    cases hown : r.purpose.reservedContext with
    | none => exact hproper.unreserved hown purpose (hcontext ▸ hreserved)
    | some own =>
      have heq := hproper.reserved own hown
      exact hne (reservedContext_inj hreserved (hown.trans (by rw [← heq, hcontext])))

/-! ## A small instance -/

def sampleSignature (message context : Bytes) : Bytes :=
  List.rightpad STAKE_ATTESTATION_SIG_LEN 0 (UInt8.ofNat context.length :: context ++ message)

def sampleSigner : SignerPrimitives where
  toPrimitives := { samplePrimitives with
    blake2b256 := fun _ data => data.take 8 ++ (data.drop 70).take 24
    mldsa87Verify := fun _ message context signature =>
      decide (context.length ≤ 255 ∧ signature = sampleSignature message context) }
  publicKey := fun _ => List.replicate STAKE_VALIDATOR_PUBKEY_LEN 0
  signWithContext := fun _ _ message context =>
    if context.length ≤ 255 then sampleSignature message context else []
  encodeAuditRecord := fun _ => []

theorem sampleSignature_context {message message' context' : Bytes} (hlen : context.length ≤ 255)
    (hlen' : context'.length ≤ 255)
    (h : sampleSignature message context = sampleSignature message' context') :
    context = context' := by
  simp only [sampleSignature, List.rightpad, cons_append, List.cons.injEq,
    append_assoc] at h
  have hcount := congrArg UInt8.toNat h.1
  rw [UInt8.toNat_ofNat', UInt8.toNat_ofNat', Nat.mod_eq_of_lt (by omega),
    Nat.mod_eq_of_lt (by omega)] at hcount
  exact (append_inj h.2 hcount).1

theorem verifies_sampleSigner {message signature : Bytes} :
    Verifies sampleSigner vid message signature context ↔
      signature.length = STAKE_ATTESTATION_SIG_LEN ∧ context.length ≤ 255 ∧
        signature = sampleSignature message context := by
  have hkey : (sampleSigner.publicKey vid).length = STAKE_VALIDATOR_PUBKEY_LEN :=
    length_replicate
  unfold Verifies verifyMldsa87WithContext
  rw [if_neg (not_not.mpr hkey)]
  split
  · next hlen => exact ⟨nofun, fun h => absurd h.1 hlen⟩
  · next hlen =>
    rw [Except.ok.injEq]
    exact ⟨fun h => ⟨not_not.mp hlen, of_decide_eq_true h⟩, fun h => decide_eq_true h.2⟩

theorem contextBinding_sampleSigner : ContextBinding sampleSigner := by
  intro signer randomness message context vid message' context' hverifies
  obtain ⟨hsize, hlen', heq⟩ := verifies_sampleSigner.mp hverifies
  simp only [sampleSigner] at heq hsize
  split at heq
  · next hlen => exact (sampleSignature_context hlen hlen' heq).symm
  · next hlen =>
    rw [if_neg hlen] at hsize
    cases hsize

def sampleFacts (targetHash : Hash64) : AttestedFacts := ⟨[], 7, targetHash, 0, 0, ⟨0, 0⟩⟩

def sampleAttest (targetHash claimed : Hash64) : SignerRequest where
  requestId := 0
  validatorId := 1
  purpose := .attestation
  context := ATTESTATION_MLDSA87_CONTEXT
  messageDigest := .attestation ((sampleFacts targetHash).digest sampleSigner)
  metadata := .attestation 7 claimed 0

def sampleBorrow : SignerRequest where
  requestId := 0
  validatorId := 1
  purpose := .transaction
  context := AUDIT_CHECKPOINT_MLDSA87_CONTEXT
  messageDigest := .transaction 5
  metadata := .none

def sampleRequest (req : SignerRequest) (flushError : Option String) : SignerEvent :=
  .request req [] 0 ⟨0, 0, none, flushError, none, false⟩

def sampleReleased (events : List SignerEvent) : List Released :=
  (events.foldl (SignerWorld.step sampleSigner) (.initial sampleSigner [1] [])).released

theorem not_noEquivocation_of_targets {released : List Released}
    (h : released.map (fun r => (r.validatorId, r.message, r.context)) =
      [(1, (sampleFacts 1).digest sampleSigner, ATTESTATION_MLDSA87_CONTEXT),
        (1, (sampleFacts 2).digest sampleSigner, ATTESTATION_MLDSA87_CONTEXT)]) :
    ¬NoEquivocation sampleSigner {sampleFacts 1, sampleFacts 2} released := by
  intro hno
  obtain ⟨r, hr, hkey⟩ := mem_map.mp (h ▸ mem_cons_self)
  obtain ⟨r', hr', hkey'⟩ := mem_map.mp (h ▸ mem_cons_of_mem _ mem_cons_self)
  simp only [Prod.mk.injEq] at hkey hkey'
  have htarget := hno r hr r' hr' (hkey.1.trans hkey'.1.symm) hkey.2.2 hkey'.2.2
    (sampleFacts 1) (.inl rfl) (sampleFacts 2) (.inr rfl) hkey.2.1.symm hkey'.2.1.symm rfl
  exact absurd htarget.1 (by decide)

/-- A second attestation of an epoch that claims the target of the first is signed as a rebroadcast;
a transaction is signed under the checkpoint context; an attestation whose record failed to reach
the file is signed when asked for again, and after a restart so is one with another target. -/
theorem strict_signer_equivocates :
    ¬NoEquivocation sampleSigner {sampleFacts 1, sampleFacts 2}
      (sampleReleased [sampleRequest (sampleAttest 1 1) none,
        sampleRequest (sampleAttest 2 1) none]) ∧
    ¬ContextsKept sampleSigner (sampleReleased [sampleRequest sampleBorrow none]) ∧
    ¬NoEquivocation sampleSigner {sampleFacts 1, sampleFacts 2}
      (sampleReleased [sampleRequest (sampleAttest 1 1) (some "fsync"),
        sampleRequest (sampleAttest 1 1) none, .restart [1] [],
        sampleRequest (sampleAttest 2 2) none]) := by
  refine ⟨not_noEquivocation_of_targets (by decide +kernel), fun hkept => ?_,
    not_noEquivocation_of_targets (by decide +kernel)⟩
  have hreleased : sampleReleased [sampleRequest sampleBorrow none] =
      [⟨.request .transaction, 1, hash64Bytes 5, AUDIT_CHECKPOINT_MLDSA87_CONTEXT,
        sampleSignature (hash64Bytes 5) AUDIT_CHECKPOINT_MLDSA87_CONTEXT⟩] := rfl
  rw [hreleased] at hkept
  refine hkept _ mem_cons_self .auditCheckpoint nofun _ rfl 1 (hash64Bytes 5) ?_
  refine verifies_sampleSigner.mpr ⟨?_, by decide, rfl⟩
  rw [sampleSignature, length_rightpad]
  decide

def sampleFairRun : List SignerEvent :=
  [sampleRequest (sampleAttest 1 1) none, .restart [1] [], sampleRequest (sampleAttest 1 1) none,
    sampleRequest (sampleAttest 2 2) none]

theorem fairRequest_sampleAttest {hash : Hash64} (hknown : hash = 1 ∨ hash = 2)
    (hdurable : (w.state.store 1).lookup 7 = none ∨
      (w.state.store 1).lookup 7 = (w.dir.records 1).lookup 7) :
    FairRequest sampleSigner {sampleFacts 1, sampleFacts 2} w (sampleAttest hash hash) := by
  refine ⟨fun _ a ha hdigest => ?_, nofun, fun _ epoch _ _ hmetadata record hrecord => ?_⟩
  · rcases ha with rfl | rfl <;> rcases hknown with rfl | rfl <;>
      first
        | rfl
        | exact absurd hdigest (by decide)
  · cases hmetadata
    rcases hdurable with hnone | heq
    · exact absurd (hnone.symm.trans hrecord) nofun
    · exact heq.symm.trans hrecord

theorem strict_signer_never_equivocates_fairRun :
    ContextBinding sampleSigner ∧
      StepsMeet (SignerWorld.step sampleSigner)
        (FairEvent sampleSigner {sampleFacts 1, sampleFacts 2})
        (.initial sampleSigner [1] []) sampleFairRun ∧
      (sampleReleased sampleFairRun).map (·.message) =
        [(sampleFacts 1).digest sampleSigner, (sampleFacts 1).digest sampleSigner] ∧
      NoEquivocation sampleSigner {sampleFacts 1, sampleFacts 2} (sampleReleased sampleFairRun) ∧
      ContextsKept sampleSigner (sampleReleased sampleFairRun) := by
  have hfair : StepsMeet (SignerWorld.step sampleSigner)
      (FairEvent sampleSigner {sampleFacts 1, sampleFacts 2})
      (.initial sampleSigner [1] []) sampleFairRun :=
    ⟨fairRequest_sampleAttest (.inl rfl) (by decide +kernel), trivial,
      fairRequest_sampleAttest (.inl rfl) (by decide +kernel),
      fairRequest_sampleAttest (.inr rfl) (by decide +kernel), trivial⟩
  exact ⟨contextBinding_sampleSigner, hfair, by decide +kernel,
    strict_signer_never_equivocates sampleSigner contextBinding_sampleSigner _ [1] [] sampleFairRun
      hfair⟩

end Misaka.Signer
