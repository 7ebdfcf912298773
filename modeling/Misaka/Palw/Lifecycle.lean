import Misaka.Palw.ProviderBond

/-!
# The batch lifecycle view

`PalwBatchViewV1` of `consensus/core/src/palw.rs`: a batch is registered by its manifest, committed
when every chunk of leaves has arrived, certified by its auditors, active in its window, and dropped
from the view when no header can refer to it any more. The clock of the view is the epoch.
-/

namespace Misaka.Palw

open Misaka.Core Dns

def PALW_BATCH_ID_DOMAIN : Bytes := domain "misaka-palw-batch-id-v1"
def PALW_CHUNK_BITMAP_BITS : ℕ := 256
def SOMPI_PER_KASPA : ℕ := 100000000

inductive PalwBatchStatus where
  | missing
  | registering
  | committed
  | auditing
  | certified
  | active
  | slashed
  | expired
  | revoked
  deriving DecidableEq, Repr

inductive PalwBatchEvent where
  | manifestAccepted
  | chunksAndBondsComplete
  | auditBeaconReached
  | certificateQuorum
  | auditFailed
  | timeout
  | activationReached
  | expiryReached
  | fraudEvidence
  deriving DecidableEq, Repr

namespace PalwBatchStatus

def next : PalwBatchStatus → PalwBatchEvent → Option PalwBatchStatus
  | missing, .manifestAccepted => some registering
  | registering, .chunksAndBondsComplete => some committed
  | registering, .timeout => some expired
  | committed, .auditBeaconReached => some auditing
  | auditing, .certificateQuorum => some certified
  | auditing, .auditFailed => some slashed
  | auditing, .timeout => some expired
  | certified, .activationReached => some active
  | certified, .expiryReached => some expired
  | certified, .fraudEvidence => some revoked
  | active, .expiryReached => some expired
  | active, .fraudEvidence => some revoked
  | _, _ => none

def isTerminal : PalwBatchStatus → Bool
  | slashed | expired | revoked => true
  | _ => false

def certifiable : PalwBatchStatus → Bool
  | committed | auditing | certified | active => true
  | _ => false

end PalwBatchStatus

structure PalwBatchAdmissionParams where
  maxBatchLeaves : ℕ
  maxLeafChunkLeaves : ℕ
  registrationLeadEpochs : ℕ
  activeWindowEpochs : ℕ
  auditWindowEpochs : ℕ
  minLeafBondSompi : ℕ
  maxViewBatches : ℕ
  minProviderBondSompi : ℕ
  providerUnbondFloorEpochs : ℕ
  deriving DecidableEq, Repr

def PalwBatchAdmissionParams.INERT : PalwBatchAdmissionParams where
  maxBatchLeaves := 256
  maxLeafChunkLeaves := PALW_MAX_LEAVES_PER_CHUNK
  registrationLeadEpochs := 2
  activeWindowEpochs := 6
  auditWindowEpochs := 6
  minLeafBondSompi := 0
  maxViewBatches := 1024
  minProviderBondSompi := 10 * SOMPI_PER_KASPA
  providerUnbondFloorEpochs := 6

def PalwBatchAdmissionParams.deadline (params : PalwBatchAdmissionParams)
    (registrationEpoch : ℕ) : ℕ :=
  saturatingAdd (saturatingAdd registrationEpoch params.registrationLeadEpochs)
    params.auditWindowEpochs

variable (P : PalwPrimitives)

def PalwBatchManifestV1.contentId (m : PalwBatchManifestV1) : Hash64 :=
  P.blake2b512Keyed PALW_BATCH_ID_DOMAIN (P.encodeManifest { m with batchId := 0 })

/-- The terms under which a batch may register. -/
def PalwBatchManifestV1.admissionValid (m : PalwBatchManifestV1) (acceptEpoch : ℕ)
    (params : PalwBatchAdmissionParams) : Bool :=
  let minActivation := params.deadline m.registrationEpoch
  m.version == 1 && m.batchId == m.contentId P &&
  m.leafCount ≠ 0 && m.leafCount ≤ params.maxBatchLeaves && params.maxLeafChunkLeaves ≠ 0 &&
  m.chunkCount ≤ PALW_CHUNK_BITMAP_BITS &&
  saturatingMul m.leafCount params.minLeafBondSompi ≤ m.totalLeafBondSompi &&
  m.chunkCount == divCeil m.leafCount params.maxLeafChunkLeaves &&
  m.registrationEpoch == acceptEpoch &&
  minActivation ≤ m.activationNotBeforeEpoch &&
  m.activationNotBeforeEpoch ≤ saturatingAdd minActivation params.registrationLeadEpochs &&
  m.activationNotBeforeEpoch < m.expiryEpoch &&
  m.expiryEpoch ≤ saturatingAdd m.activationNotBeforeEpoch params.activeWindowEpochs

/-- The bitmap `chunks_present` is the set of its set bits. -/
structure PalwBatchLifecycleV1 where
  status : PalwBatchStatus
  registrationEpoch : ℕ
  activationNotBeforeEpoch : ℕ
  expiryEpoch : ℕ
  leafCount : ℕ
  chunkCount : ℕ
  chunksPresent : Finset ℕ
  leafRoot : Hash64
  certHash : Option Hash64
  certApprovingStake : ℕ
  firstCertDaa : Option ℕ
  revokedFromDaa : Option ℕ
  deriving DecidableEq

/-- Whether the view keeps the batch. -/
def palwBatchReferenceable (e : PalwBatchLifecycleV1) (epoch daa : ℕ)
    (params : PalwBatchAdmissionParams) : Bool :=
  if e.revokedFromDaa.any (· ≤ daa) || e.status.isTerminal then false
  else
    match e.status with
    | .active | .certified => epoch < e.expiryEpoch
    | .registering | .committed | .auditing => epoch ≤ params.deadline e.registrationEpoch
    | .missing | .slashed | .expired | .revoked => false

structure PalwBatchViewV1 where
  version : ℕ
  batches : Table Hash64 PalwBatchLifecycleV1

def PalwBatchManifestV1.registered (m : PalwBatchManifestV1) : PalwBatchLifecycleV1 where
  status := .registering
  registrationEpoch := m.registrationEpoch
  activationNotBeforeEpoch := m.activationNotBeforeEpoch
  expiryEpoch := m.expiryEpoch
  leafCount := m.leafCount
  chunkCount := m.chunkCount
  chunksPresent := ∅
  leafRoot := m.leafRoot
  certHash := none
  certApprovingStake := 0
  firstCertDaa := none
  revokedFromDaa := none

namespace PalwBatchLifecycleV1

def withChunk (e : PalwBatchLifecycleV1) (chunkIndex : ℕ) : PalwBatchLifecycleV1 :=
  let present := insert chunkIndex e.chunksPresent
  { e with
    chunksPresent := present
    status :=
      if present.card = e.chunkCount then (e.status.next .chunksAndBondsComplete).getD e.status
      else e.status }

def replacedBy (e : PalwBatchLifecycleV1) (certHash : Hash64) (approvingStake : ℕ) : Bool :=
  match e.certHash with
  | none => true
  | some existing =>
    approvingStake > e.certApprovingStake ||
      (approvingStake == e.certApprovingStake && certHash < existing)

def withCertificate (e : PalwBatchLifecycleV1) (certHash : Hash64)
    (approvingStake currentDaa : ℕ) : PalwBatchLifecycleV1 :=
  { e with
    status := if e.status = .committed ∨ e.status = .auditing then .certified else e.status
    certHash := some certHash
    certApprovingStake := approvingStake
    firstCertDaa := some (e.firstCertDaa.getD currentDaa) }

/-- One entry of `advance_epoch_gated`. -/
def advanced (e : PalwBatchLifecycleV1) (epoch : ℕ) (params : PalwBatchAdmissionParams)
    (activationOpen : Bool) : PalwBatchLifecycleV1 :=
  match e.status with
  | .registering =>
    if epoch > params.deadline e.registrationEpoch then { e with status := .expired } else e
  | .committed =>
    if epoch ≥ params.deadline e.registrationEpoch then { e with status := .auditing } else e
  | .certified =>
    if activationOpen && epoch ≥ e.activationNotBeforeEpoch then
      { e with status := if epoch < e.expiryEpoch then .active else .expired }
    else if epoch ≥ e.expiryEpoch then { e with status := .expired } else e
  | .active => if epoch ≥ e.expiryEpoch then { e with status := .expired } else e
  | _ => e

end PalwBatchLifecycleV1

namespace PalwBatchViewV1

def new : PalwBatchViewV1 := ⟨1, ∅⟩

def entry (view : PalwBatchViewV1) (batchId : Hash64) : Option PalwBatchLifecycleV1 :=
  view.batches.lookup batchId

def setEntry (view : PalwBatchViewV1) (batchId : Hash64) (e : PalwBatchLifecycleV1) :
    PalwBatchViewV1 :=
  { view with batches := view.batches.insert batchId e }

/-- `none` where the source returns `false` and changes nothing. -/
def applyManifest (view : PalwBatchViewV1) (m : PalwBatchManifestV1) (acceptEpoch : ℕ)
    (params : PalwBatchAdmissionParams) : Option PalwBatchViewV1 :=
  if params.maxViewBatches ≠ 0 ∧ view.batches.size ≥ params.maxViewBatches then none
  else if !m.admissionValid P acceptEpoch params then none
  else if (view.entry m.batchId).isSome then none
  else some (view.setEntry m.batchId m.registered)

/-- A chunk in range that is not there yet. -/
def applyLeafChunk (view : PalwBatchViewV1) (batchId : Hash64) (chunkIndex : ℕ) :
    Option PalwBatchViewV1 :=
  (view.entry batchId).bind fun e =>
    if e.status ≠ .registering ∨ chunkIndex ≥ e.chunkCount then none
    else if chunkIndex ∈ e.chunksPresent then none
    else some (view.setEntry batchId (e.withChunk chunkIndex))

def applyVerifiedCertificate (view : PalwBatchViewV1) (batchId certHash : Hash64)
    (approvingStake currentDaa : ℕ) : Option PalwBatchViewV1 :=
  (view.entry batchId).bind fun e =>
    if !e.status.certifiable then none
    else if !e.replacedBy certHash approvingStake then none
    else some (view.setEntry batchId (e.withCertificate certHash approvingStake currentDaa))

def advanceEpochGated (view : PalwBatchViewV1) (epoch : ℕ) (params : PalwBatchAdmissionParams)
    (activationOpen : Bool) : PalwBatchViewV1 :=
  { view with batches := view.batches.mapVal fun e => e.advanced epoch params activationOpen }

def retain (view : PalwBatchViewV1) (epoch daa : ℕ) (params : PalwBatchAdmissionParams) :
    PalwBatchViewV1 :=
  { view with batches := view.batches.filterRows fun _ e =>
      palwBatchReferenceable e epoch daa params }

end PalwBatchViewV1

theorem entry_setEntry (view : PalwBatchViewV1) (batchId batchId' : Hash64)
    (e : PalwBatchLifecycleV1) :
    (view.setEntry batchId e).entry batchId' =
      if batchId' = batchId then some e else view.entry batchId' :=
  Table.lookup_insert_eq _ _ _ _

theorem view_ext {view view' : PalwBatchViewV1} (hversion : view.version = view'.version)
    (hentry : ∀ batchId, view.entry batchId = view'.entry batchId) : view = view' := by
  cases view
  cases view'
  obtain rfl := hversion
  exact congrArg (PalwBatchViewV1.mk _) (Finmap.ext_lookup hentry)

end Misaka.Palw
