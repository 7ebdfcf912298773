import Misaka.Core.Run
import Misaka.Core.Table
import Misaka.Dns.Payload

/-!
# The remote signer

The signing engine of `kaspa-pq-signer/src/lib.rs` over the signed-epoch log of
`kaspa-pq-validator-core`. The log is a memory store over a file; a restart reloads the file. What a
request says about its attestation is not part of what is signed.
-/

namespace Misaka.Signer

open Misaka.Core Dns

def TAKEOVER_TOKEN_CONTEXT : Bytes := domain "kaspa-pq-v1/takeover/mldsa87"
def AUDIT_CHECKPOINT_MLDSA87_CONTEXT : Bytes := domain "kaspa-pq-v1/audit-ckpt/mldsa87"
def AUDIT_LOG_CHAIN_KEY : Bytes := domain "kaspa-pq-signer-audit-v1"
def AUDIT_CHECKPOINT_INTERVAL : ℕ := 32

inductive SigningPurpose where
  | transaction
  | attestation
  | takeoverToken
  | unbond
  deriving DecidableEq, Repr

def SigningPurpose.debug : SigningPurpose → String
  | .transaction => "Transaction"
  | .attestation => "Attestation"
  | .takeoverToken => "TakeoverToken"
  | .unbond => "Unbond"

inductive SignerMessageDigest where
  | transaction (digest : Hash64)
  | attestation (digest : Bytes)
  | unbond (digest : Bytes)
  | takeoverToken (digest : Bytes)
  deriving DecidableEq, Repr

def SignerMessageDigest.purpose : SignerMessageDigest → SigningPurpose
  | .transaction _ => .transaction
  | .attestation _ => .attestation
  | .unbond _ => .unbond
  | .takeoverToken _ => .takeoverToken

def SignerMessageDigest.bytes : SignerMessageDigest → Bytes
  | .transaction digest => hash64Bytes digest
  | .attestation digest | .unbond digest | .takeoverToken digest => digest

inductive SignerMetadata where
  | none
  | attestation (epoch : ℕ) (targetHash : Hash64) (targetDaaScore : ℕ)
  | takeoverToken (yieldingHostId takingOverHostId : Bytes) (validFromEpoch graceEpochs : ℕ)
  deriving DecidableEq, Repr

/-- The variants of `SignerError` that the engine returns. -/
inductive SignerError where
  | keyNotFound
  | policyViolation (reason : String)
  | internalError (reason : String)
  deriving DecidableEq, Repr

inductive SignerPolicy where
  | permissive
  | auditOnly
  | strict
  deriving DecidableEq, Repr

structure SignerRequest where
  requestId : ℕ
  validatorId : Hash64
  purpose : SigningPurpose
  context : Bytes
  messageDigest : SignerMessageDigest
  metadata : SignerMetadata
  deriving DecidableEq, Repr

def SignerRequest.purposeMatchesDigest (req : SignerRequest) : Bool :=
  req.purpose == req.messageDigest.purpose

inductive SignerOutcome where
  | signed
  | refused (e : SignerError)
  deriving DecidableEq, Repr

structure SignerAuditRecord where
  timestampUnixSecs : ℕ
  clientIdentity : Bytes
  requestId : ℕ
  validatorId : Hash64
  purpose : SigningPurpose
  metadata : SignerMetadata
  messageDigest : SignerMessageDigest
  signatureFingerprint : Hash64
  outcome : SignerOutcome
  deriving DecidableEq, Repr

/-- What the engine takes from outside the repository, beside the primitives of the overlay: the
ML-DSA-87 key pairs by validator id, with the randomness of a hedged signature as an argument, and
`borsh` for audit records. -/
structure SignerPrimitives extends Primitives where
  publicKey : Hash64 → Bytes
  signWithContext : Hash64 → ℕ → Bytes → Bytes → Bytes
  encodeAuditRecord : SignerAuditRecord → Bytes

structure SignedEpochRecord where
  epoch : ℕ
  targetHash : Hash64
  targetDaaScore : ℕ
  signatureFingerprint : Hash64
  deriving DecidableEq, Repr

inductive SignedEpochCheckOutcome where
  | allow
  | allowRebroadcast
  | block
  deriving DecidableEq, Repr

/-- One target an epoch; the same one again is allowed. -/
def checkSignedEpochRecord (prev : Option SignedEpochRecord) (candidate : SignedEpochRecord) :
    SignedEpochCheckOutcome :=
  match prev with
  | none => .allow
  | some p =>
    if p.targetHash = candidate.targetHash ∧ p.targetDaaScore = candidate.targetDaaScore then
      .allowRebroadcast
    else .block

/-- The records of a `SignedEpochStore`, by epoch. -/
abbrev SignedEpochs := Table ℕ SignedEpochRecord

structure StateDir where
  epochs : Table Hash64 SignedEpochs
  audit : List SignerAuditRecord

def StateDir.records (dir : StateDir) (validatorId : Hash64) : SignedEpochs :=
  (dir.epochs.lookup validatorId).getD ∅

structure SignerState where
  keys : List Hash64
  policy : SignerPolicy
  epochStores : Table Hash64 SignedEpochs
  auditChain : Hash64
  appendsSinceCheckpoint : ℕ
  deniedPurposes : List SigningPurpose

/-- What the environment adds to a request: the randomness of the signatures, and the file
operations that fail. -/
structure SignerIo where
  randomness : ℕ
  checkpointRandomness : ℕ
  loadError : Option String
  flushError : Option String
  auditError : Option String
  checkpointFails : Bool
  deriving DecidableEq, Repr

inductive ReleasePurpose where
  | request (purpose : SigningPurpose)
  | auditCheckpoint
  deriving DecidableEq, Repr

structure Released where
  purpose : ReleasePurpose
  validatorId : Hash64
  message : Bytes
  context : Bytes
  signature : Bytes
  deriving DecidableEq, Repr

variable (P : SignerPrimitives)

def computeSignerAuditChainEntry (prevChainHash : Hash64) (record : SignerAuditRecord) : Hash64 :=
  P.blake2b512Keyed AUDIT_LOG_CHAIN_KEY (hash64Bytes prevChainHash ++ P.encodeAuditRecord record)

def signatureFingerprint (signature : Bytes) : Hash64 := P.blake2b512 signature

def OVERLAY_CONTEXTS : List Bytes :=
  [ATTESTATION_MLDSA87_CONTEXT, UNBOND_REQUEST_CONTEXT, TAKEOVER_TOKEN_CONTEXT]

def SigningPurpose.requiredContext : SigningPurpose → Option Bytes
  | .attestation => some ATTESTATION_MLDSA87_CONTEXT
  | .unbond => some UNBOND_REQUEST_CONTEXT
  | .takeoverToken => some TAKEOVER_TOKEN_CONTEXT
  | .transaction => none

def checkContext (req : SignerRequest) : Except SignerError Unit :=
  match req.purpose.requiredContext with
  | some context =>
    failIf (req.context != context) (.policyViolation
      ("signing context does not match purpose " ++ req.purpose.debug ++ " (audit C-02)"))
  | none =>
    failIf (OVERLAY_CONTEXTS.contains req.context) (.policyViolation
      "Transaction purpose may not borrow an overlay signing context (audit C-02)")

/-- The checks of `try_sign` that read no log. -/
def SignerState.checkRequest (st : SignerState) (req : SignerRequest) :
    Except SignerError Unit := do
  failIf (!req.purposeMatchesDigest)
    (.policyViolation "purpose tag does not match message_digest variant")
  checkContext req
  failIf (st.deniedPurposes.contains req.purpose)
    (.policyViolation ("signing purpose " ++ req.purpose.debug ++ " is denied by policy"))
  failIf (255 < req.context.length)
    (.policyViolation
      ("signing context exceeds 255 bytes (got " ++ toString req.context.length ++ ")"))
  failIf (!st.keys.contains req.validatorId) .keyNotFound

/-- `SignerState::epoch_store`: the file is read on first use. -/
def SignerState.loadStore (st : SignerState) (dir : StateDir) (validatorId : Hash64)
    (loadError : Option String) : Except SignerError SignerState :=
  match st.epochStores.lookup validatorId, loadError with
  | some _, _ => .ok st
  | none, some e => .error (.internalError e)
  | none, none =>
    .ok { st with epochStores := st.epochStores.insert validatorId (dir.records validatorId) }

def SignerState.store (st : SignerState) (validatorId : Hash64) : SignedEpochs :=
  (st.epochStores.lookup validatorId).getD ∅

def SignerState.guardEpoch (st : SignerState) (dir : StateDir) (req : SignerRequest)
    (loadError : Option String) : Except SignerError (Option SignedEpochRecord) × SignerState :=
  if req.purpose = .attestation ∧ st.policy ≠ .permissive then
    match req.metadata with
    | .attestation epoch targetHash targetDaaScore =>
      match st.loadStore dir req.validatorId loadError with
      | .error e => (.error e, st)
      | .ok st =>
        let candidate := ⟨epoch, targetHash, targetDaaScore, 0⟩
        match checkSignedEpochRecord ((st.store req.validatorId).lookup epoch) candidate with
        | .block =>
          if st.policy = .strict then
            (.error (.policyViolation ("equivocation: epoch " ++ toString epoch ++
              " already signed a different target (validator " ++ hash64Hex req.validatorId ++
              ")")), st)
          else (.ok none, st)
        | .allow => (.ok (some candidate), st)
        | .allowRebroadcast => (.ok none, st)
    | _ =>
      (.error (.policyViolation
        "attestation request missing Attestation metadata (epoch/target)"), st)
  else (.ok none, st)

/-- The record stays in memory even if the flush fails. -/
def SignerState.recordAndFlush (st : SignerState) (dir : StateDir) (validatorId : Hash64)
    (record : SignedEpochRecord) (flushError : Option String) :
    Except SignerError Unit × SignerState × StateDir :=
  let records := (st.store validatorId).insert record.epoch record
  let st := { st with epochStores := st.epochStores.insert validatorId records }
  match flushError with
  | some e => (.error (.internalError e), st, dir)
  | none => (.ok (), st, { dir with epochs := dir.epochs.insert validatorId records })

/-- A signature leaves only after its record is flushed. -/
def SignerState.trySign (st : SignerState) (dir : StateDir) (req : SignerRequest) (io : SignerIo) :
    Except SignerError Bytes × SignerState × StateDir :=
  match st.checkRequest req with
  | .error e => (.error e, st, dir)
  | .ok () =>
    match st.guardEpoch dir req io.loadError with
    | (.error e, st) => (.error e, st, dir)
    | (.ok recordAfterSign, st) =>
      let sig := P.signWithContext req.validatorId io.randomness req.messageDigest.bytes req.context
      match recordAfterSign with
      | none => (.ok sig, st, dir)
      | some record =>
        match st.recordAndFlush dir req.validatorId
            { record with signatureFingerprint := signatureFingerprint P sig } io.flushError with
        | (.error e, st, dir) => (.error e, st, dir)
        | (.ok (), st, dir) => (.ok sig, st, dir)

def auditRecord (req : SignerRequest) (client : Bytes) (now : ℕ)
    (result : Except SignerError Bytes) : SignerAuditRecord where
  timestampUnixSecs := now
  clientIdentity := client
  requestId := req.requestId
  validatorId := req.validatorId
  purpose := req.purpose
  metadata := req.metadata
  messageDigest := req.messageDigest
  signatureFingerprint := match result with
    | .ok sig => signatureFingerprint P sig
    | .error _ => 0
  outcome := match result with
    | .ok _ => .signed
    | .error e => .refused e

def SignerState.auditCheckpoint (st : SignerState) (io : SignerIo) : List Released :=
  match st.keys.min? with
  | none => []
  | some validatorId =>
    if io.checkpointFails then []
    else [⟨.auditCheckpoint, validatorId, hash64Bytes st.auditChain,
      AUDIT_CHECKPOINT_MLDSA87_CONTEXT,
      P.signWithContext validatorId io.checkpointRandomness (hash64Bytes st.auditChain)
        AUDIT_CHECKPOINT_MLDSA87_CONTEXT⟩]

def SignerState.handleRequest (st : SignerState) (dir : StateDir) (req : SignerRequest)
    (client : Bytes) (now : ℕ) (io : SignerIo) :
    Except SignerError Bytes × SignerState × StateDir × List Released :=
  let (result, st, dir) := st.trySign P dir req io
  let record := auditRecord P req client now result
  match io.auditError with
  | some e => (.error (.internalError ("audit write failed: " ++ e)), st, dir, [])
  | none =>
    let dir := { dir with audit := dir.audit ++ [record] }
    let st := { st with
      auditChain := computeSignerAuditChainEntry P st.auditChain record
      appendsSinceCheckpoint := st.appendsSinceCheckpoint + 1 }
    let due : Bool := AUDIT_CHECKPOINT_INTERVAL ≤ st.appendsSinceCheckpoint
    let checkpoint := if due then st.auditCheckpoint P io else []
    let st := if due then { st with appendsSinceCheckpoint := 0 } else st
    let answer := match result with
      | .ok sig => [⟨.request req.purpose, req.validatorId, req.messageDigest.bytes, req.context,
          sig⟩]
      | .error _ => []
    (result, st, dir, checkpoint ++ answer)

def SignerState.new (keys : List Hash64) (policy : SignerPolicy) (dir : StateDir)
    (deniedPurposes : List SigningPurpose) : SignerState where
  keys := keys
  policy := policy
  epochStores := ∅
  auditChain := dir.audit.foldl (computeSignerAuditChainEntry P) 0
  appendsSinceCheckpoint := 0
  deniedPurposes := deniedPurposes

inductive SignerEvent where
  | request (req : SignerRequest) (client : Bytes) (now : ℕ) (io : SignerIo)
  | restart (keys : List Hash64) (deniedPurposes : List SigningPurpose)

structure SignerWorld where
  state : SignerState
  dir : StateDir
  released : List Released

def SignerWorld.initial (keys : List Hash64) (deniedPurposes : List SigningPurpose) : SignerWorld :=
  ⟨.new P keys .strict ⟨∅, []⟩ deniedPurposes, ⟨∅, []⟩, []⟩

def SignerWorld.step (w : SignerWorld) : SignerEvent → SignerWorld
  | .request req client now io =>
    let (_, st, dir, released) := w.state.handleRequest P w.dir req client now io
    ⟨st, dir, w.released ++ released⟩
  | .restart keys deniedPurposes => ⟨.new P keys .strict w.dir deniedPurposes, w.dir, w.released⟩

end Misaka.Signer
