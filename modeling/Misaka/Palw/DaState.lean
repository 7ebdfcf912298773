import Mathlib.Data.List.Sort
import Mathlib.Data.Nat.Log
import Mathlib.Data.Prod.Lex
import Misaka.Palw.ProviderBond

/-!
# The data availability state

`PalwDaStateV1` of `consensus/core/src/palw/da.rs`: providers owe the chunks of their receipt
objects that a buried beacon samples. A bonded challenger may ask for a chunk; the provider answers
before a deadline, or anyone proves the timeout and the provider is slashed.
-/

namespace Misaka.Palw

open Misaka.Core Dns

def PALW_DA_STATE_VERSION_V1 : ℕ := 1
def PALW_DA_MAX_OBLIGATIONS : ℕ := 131072
def PALW_DA_MAX_CHALLENGES : ℕ := 65536
def PALW_DA_MAX_CHALLENGE_COUNTERS : ℕ := 65536
def PALW_DA_MAX_TIMEOUT_EVIDENCE : ℕ := 65536
def PALW_DA_MAX_PRUNING_SNAPSHOT_BYTES : ℕ := 64 * 1024 * 1024
def PALW_DA_MAX_SAMPLES_PER_PROVIDER : ℕ := 4
def PALW_LEAF_DOMAIN : Bytes := domain "misaka-palw-v1/leaf"
def PALW_DA_CHUNK_LEAF_DOMAIN : Bytes := domain "misaka-palw-da-chunk-leaf-v1"
def PALW_DA_CHUNK_NODE_DOMAIN : Bytes := domain "misaka-palw-da-chunk-node-v1"
def PALW_DA_OBJECT_ROOT_DOMAIN : Bytes := domain "misaka-palw-da-object-root-v1"
def PALW_DA_SAMPLE_DOMAIN : Bytes := domain "misaka-palw-da-provider-sample-v1"
def PALW_DA_OBLIGATION_ID_DOMAIN : Bytes := domain "misaka-palw-da-obligation-id-v1"
def PALW_DA_CHALLENGE_SIGNING_DOMAIN : Bytes := domain "misaka-palw-da-challenge-sign-v1"
def PALW_DA_CHALLENGE_ID_DOMAIN : Bytes := domain "misaka-palw-da-challenge-id-v1"
def PALW_DA_RESPONSE_SIGNING_DOMAIN : Bytes := domain "misaka-palw-da-response-sign-v1"
def PALW_DA_RESPONSE_ID_DOMAIN : Bytes := domain "misaka-palw-da-response-id-v1"
def PALW_DA_TIMEOUT_ID_DOMAIN : Bytes := domain "misaka-palw-da-timeout-id-v1"
def PALW_DA_CHALLENGE_V1_MLDSA87_CONTEXT : Bytes := domain "PALWDAChallengeV1"
def PALW_DA_RESPONSE_V1_MLDSA87_CONTEXT : Bytes := domain "PALWDAResponseV1"

/-- The failures of the state machine among those of `PalwDaError`. -/
inductive PalwDaError where
  | unsupportedVersion (version : ℕ)
  | objectSize (got max : ℕ)
  | chunkMetadata
  | chunkIndex
  | chunkLength
  | proofDepth
  | wrongProof
  | beaconNotBuried
  | policy
  | obligationState
  | challenge
  | challengerBond
  | challengeRateLimit
  | challengeSignature
  | response
  | responseSignature
  | timeoutEvidence
  | capacity
  deriving DecidableEq, Repr

/-! ## Policy and sampling -/

structure PalwDaPolicyV1 where
  minBeaconBurialDaa : ℕ
  retentionDaa : ℕ
  responseWindowDaa : ℕ
  samplesPerProvider : ℕ
  maxChallengesPerBondPerEpoch : ℕ
  deriving DecidableEq, Repr

def PalwDaPolicyV1.STRICT_TESTNET : PalwDaPolicyV1 where
  minBeaconBurialDaa := 100
  retentionDaa := 2000
  responseWindowDaa := 200
  samplesPerProvider := 1
  maxChallengesPerBondPerEpoch := 4

def PalwDaPolicyV1.isValid (policy : PalwDaPolicyV1) : Bool :=
  policy.minBeaconBurialDaa ≠ 0 && policy.responseWindowDaa < policy.retentionDaa &&
    policy.responseWindowDaa ≠ 0 && 1 ≤ policy.samplesPerProvider &&
    policy.samplesPerProvider ≤ PALW_DA_MAX_SAMPLES_PER_PROVIDER &&
    policy.maxChallengesPerBondPerEpoch ≠ 0

structure PalwBuriedBeaconV1 where
  epoch : ℕ
  seed : Hash64
  anchorHash : Hash64
  anchorDaaScore : ℕ
  observedDaaScore : ℕ
  deriving DecidableEq, Repr

structure PalwReceiptDaCommitmentV1 where
  objectVersion : ℕ
  objectLen : ℕ
  chunkCount : ℕ
  root : Hash64
  deriving DecidableEq, Repr

def expectedChunkCount (objectLen : ℕ) : Except PalwDaError ℕ := do
  failIf (objectLen == 0 || objectLen > PALW_DA_MAX_OBJECT_BYTES)
    (.objectSize objectLen PALW_DA_MAX_OBJECT_BYTES)
  let count := divCeil objectLen PALW_DA_CHUNK_BYTES
  failIf (count == 0 || count > PALW_DA_MAX_CHUNKS) .chunkMetadata
  return count

def supportedObjectVersion (version : ℕ) : Bool :=
  version == PALW_RECEIPT_DA_OBJECT_VERSION_V1 || version == PALW_RECEIPT_DA_OBJECT_VERSION_V2

variable (P : PalwPrimitives)

def PalwPublicLeafV1.leafHash (leaf : PalwPublicLeafV1) : Hash64 :=
  P.blake2b512Keyed PALW_LEAF_DOMAIN (P.encodeLeaf leaf)

/-- The digest `palw_da_provider_sample_indices` ranks a chunk by. -/
def sampleScore (beacon : PalwBuriedBeaconV1) (providerBond : TransactionOutpoint)
    (leafHash objectRoot : Hash64) (chunkCount index : ℕ) : Hash64 :=
  P.blake2b512Keyed PALW_DA_SAMPLE_DOMAIN
    (hash64Bytes beacon.seed ++ hash64Bytes beacon.anchorHash ++ leBytes 8 beacon.epoch ++
      outpointBytes providerBond ++ hash64Bytes leafHash ++ hash64Bytes objectRoot ++
      leBytes 2 chunkCount ++ leBytes 2 index)

def palwDaProviderSampleIndices (beacon : PalwBuriedBeaconV1) (providerBond : TransactionOutpoint)
    (leafHash objectRoot : Hash64) (chunkCount sampleCount minBurialDaa : ℕ) :
    Except PalwDaError (List ℕ) := do
  failIf (beacon.observedDaaScore < saturatingAdd beacon.anchorDaaScore minBurialDaa)
    .beaconNotBuried
  failIf (chunkCount == 0 || chunkCount > PALW_DA_MAX_CHUNKS || sampleCount == 0 ||
    sampleCount > PALW_DA_MAX_SAMPLES_PER_PROVIDER || sampleCount > chunkCount) .policy
  let scored := (List.range chunkCount).map fun index =>
    toLex (sampleScore P beacon providerBond leafHash objectRoot chunkCount index, index)
  let selected := ((scored.insertionSort (· ≤ ·)).take sampleCount).map fun s => (ofLex s).2
  return selected.insertionSort (· ≤ ·)

/-! ## Identities and encodings -/

def PalwDaChallengeV1.signingHash (c : PalwDaChallengeV1) : Hash64 :=
  P.blake2b512Keyed PALW_DA_CHALLENGE_SIGNING_DOMAIN
    (leBytes 2 c.version ++ leBytes 4 c.networkId ++ hash64Bytes c.obligationId ++
      leBytes 8 c.challengeEpoch ++ leBytes 8 c.openedDaaScore ++
      leBytes 8 c.responseDeadlineDaaScore ++ outpointBytes c.challengerBond ++
      varBytes c.challengerOwnerPublicKey ++ hash64Bytes c.challengeNonce)

def PalwDaChallengeV1.challengeId (c : PalwDaChallengeV1) : Hash64 :=
  P.blake2b512Keyed PALW_DA_CHALLENGE_ID_DOMAIN
    (hash64Bytes (c.signingHash P) ++ varBytes c.signature)

def PalwDaResponseV1.signingHash (r : PalwDaResponseV1) : Hash64 :=
  P.blake2b512Keyed PALW_DA_RESPONSE_SIGNING_DOMAIN
    (leBytes 2 r.version ++ leBytes 4 r.networkId ++ hash64Bytes r.challengeId ++
      outpointBytes r.providerBond ++ varBytes r.providerOwnerPublicKey ++
      varBytes (P.encodeChunkProof r.chunkProof))

def PalwDaResponseV1.responseId (r : PalwDaResponseV1) : Hash64 :=
  P.blake2b512Keyed PALW_DA_RESPONSE_ID_DOMAIN
    (hash64Bytes (r.signingHash P) ++ varBytes r.signature)

def PalwDaTimeoutEvidenceV1.evidenceId (e : PalwDaTimeoutEvidenceV1) : Hash64 :=
  P.blake2b512Keyed PALW_DA_TIMEOUT_ID_DOMAIN
    (leBytes 2 e.version ++ leBytes 4 e.networkId ++ hash64Bytes e.challengeId ++
      outpointBytes e.providerBond)

inductive PalwDaObligationStatusV1 where
  | pending
  | challenged (challengeId : Hash64)
  | satisfied (responseId : Hash64)
  | timedOut (evidenceId : Hash64)
  deriving DecidableEq, Repr

/-- The statuses `exit_allowed` lets pass. -/
def PalwDaObligationStatusV1.exitable : PalwDaObligationStatusV1 → Bool
  | .pending | .satisfied _ => true
  | .challenged _ | .timedOut _ => false

structure PalwDaObligationV1 where
  version : ℕ
  obligationId : Hash64
  batchId : Hash64
  leafIndex : ℕ
  leafHash : Hash64
  objectRoot : Hash64
  objectLen : ℕ
  chunkCount : ℕ
  chunkIndex : ℕ
  providerBond : TransactionOutpoint
  beaconEpoch : ℕ
  beaconAnchor : Hash64
  createdDaaScore : ℕ
  retentionUntilDaaScore : ℕ
  status : PalwDaObligationStatusV1
  deriving DecidableEq, Repr

/-- `PalwDaObligationV1::derive_id`. -/
def obligationId (leaf : PalwPublicLeafV1) (leafHash objectRoot : Hash64)
    (providerBond : TransactionOutpoint) (chunkIndex : ℕ) (beacon : PalwBuriedBeaconV1) : Hash64 :=
  P.blake2b512Keyed PALW_DA_OBLIGATION_ID_DOMAIN
    (hash64Bytes leaf.batchId ++ leBytes 4 leaf.leafIndex ++ hash64Bytes leafHash ++
      hash64Bytes objectRoot ++ outpointBytes providerBond ++ leBytes 2 chunkIndex ++
      leBytes 8 beacon.epoch ++ hash64Bytes beacon.anchorHash)

inductive PalwDaChallengeStatusV1 where
  | «open»
  | responded (responseId : Hash64)
  | timedOut (evidenceId : Hash64)
  deriving DecidableEq, Repr

structure PalwDaChallengeStateV1 where
  challenge : PalwDaChallengeV1
  providerBond : TransactionOutpoint
  objectRoot : Hash64
  chunkIndex : ℕ
  status : PalwDaChallengeStatusV1
  deriving DecidableEq, Repr

structure PalwDaChallengeCounterKeyV1 where
  challengerTxid : Hash64
  challengerIndex : ℕ
  epoch : ℕ
  deriving DecidableEq, Repr

structure PalwDaStateV1 where
  version : ℕ
  obligations : Table Hash64 PalwDaObligationV1
  challenges : Table Hash64 PalwDaChallengeStateV1
  challengeCounts : Table PalwDaChallengeCounterKeyV1 ℕ
  timeoutEvidence : Finset Hash64
  blockSlashedProviders : List TransactionOutpoint

def HASH64_SIZE : ℕ := 64

def OUTPOINT_LEN : ℕ := HASH64_SIZE + 4

def vecLen (bytes : Bytes) : ℕ := 4 + bytes.length

def PalwDaObligationStatusV1.encodedLen : PalwDaObligationStatusV1 → ℕ
  | .pending => 1
  | .challenged _ | .satisfied _ | .timedOut _ => 1 + HASH64_SIZE

def PalwDaObligationV1.encodedLen (o : PalwDaObligationV1) : ℕ :=
  2 + HASH64_SIZE + HASH64_SIZE + 4 + HASH64_SIZE + HASH64_SIZE + 4 + 2 + 2 + OUTPOINT_LEN + 8 +
    HASH64_SIZE + 8 + 8 + o.status.encodedLen

def PalwDaChallengeV1.encodedLen (c : PalwDaChallengeV1) : ℕ :=
  2 + 4 + HASH64_SIZE + 8 + 8 + 8 + OUTPOINT_LEN + vecLen c.challengerOwnerPublicKey +
    HASH64_SIZE + vecLen c.signature

def PalwDaChallengeStatusV1.encodedLen : PalwDaChallengeStatusV1 → ℕ
  | .open => 1
  | .responded _ | .timedOut _ => 1 + HASH64_SIZE

def PalwDaChallengeStateV1.encodedLen (c : PalwDaChallengeStateV1) : ℕ :=
  c.challenge.encodedLen + OUTPOINT_LEN + HASH64_SIZE + 2 + c.status.encodedLen

namespace PalwDaStateV1

/-- `PalwDaStateV1::default`. -/
def initial : PalwDaStateV1 := ⟨PALW_DA_STATE_VERSION_V1, ∅, ∅, ∅, ∅, []⟩

/-- `borsh` length of the state. -/
def encodedLen (s : PalwDaStateV1) : ℕ :=
  2 + (4 + (s.obligations.values.map fun o => HASH64_SIZE + o.encodedLen).sum) +
    (4 + (s.challenges.values.map fun c => HASH64_SIZE + c.encodedLen).sum) +
    (4 + s.challengeCounts.size * (HASH64_SIZE + 4 + 8 + 2)) +
    (4 + s.timeoutEvidence.card * HASH64_SIZE) + (4 + s.blockSlashedProviders.length * OUTPOINT_LEN)

def canonicalSnapshotEncodedLen (s : PalwDaStateV1) : ℕ := 2 + HASH64_SIZE + s.encodedLen

def snapshotFitsWithReserve (s : PalwDaStateV1) (reserveBytes maxBytes : ℕ) : Bool :=
  s.canonicalSnapshotEncodedLen + reserveBytes ≤ maxBytes

def finishSnapshotBoundedMutation (mutated : PalwDaStateV1) (reserveBytes : ℕ) :
    Except PalwDaError PalwDaStateV1 := do
  failIf (!mutated.snapshotFitsWithReserve reserveBytes PALW_DA_MAX_PRUNING_SNAPSHOT_BYTES)
    .capacity
  return mutated

def beginChildBlock (s : PalwDaStateV1) : PalwDaStateV1 := { s with blockSlashedProviders := [] }

def recordBlockSlash (s : PalwDaStateV1) (providerBond : TransactionOutpoint) :
    Except PalwDaError PalwDaStateV1 :=
  if s.blockSlashedProviders.contains providerBond then .ok s
  else do
    failIf (s.blockSlashedProviders.length ≥ PALW_DA_MAX_TIMEOUT_EVIDENCE) .capacity
    finishSnapshotBoundedMutation
      { s with blockSlashedProviders := s.blockSlashedProviders ++ [providerBond] } 0

/-! ## Registration -/

def newObligation (leaf : PalwPublicLeafV1) (leafHash : Hash64)
    (commitment : PalwReceiptDaCommitmentV1) (beacon : PalwBuriedBeaconV1)
    (policy : PalwDaPolicyV1) (createdDaaScore : ℕ) (providerBond : TransactionOutpoint)
    (chunkIndex : ℕ) : PalwDaObligationV1 where
  version := 1
  obligationId := obligationId P leaf leafHash commitment.root providerBond chunkIndex beacon
  batchId := leaf.batchId
  leafIndex := leaf.leafIndex
  leafHash := leafHash
  objectRoot := commitment.root
  objectLen := commitment.objectLen
  chunkCount := commitment.chunkCount
  chunkIndex := chunkIndex
  providerBond := providerBond
  beaconEpoch := beacon.epoch
  beaconAnchor := beacon.anchorHash
  createdDaaScore := createdDaaScore
  retentionUntilDaaScore := saturatingAdd createdDaaScore policy.retentionDaa
  status := .pending

def addPending (s : PalwDaStateV1) (pending : List PalwDaObligationV1) (o : PalwDaObligationV1) :
    Except PalwDaError (List PalwDaObligationV1) := do
  failIf ((s.obligations.lookup o.obligationId).isSome ||
    pending.any (·.obligationId == o.obligationId)) .obligationState
  return pending ++ [o]

def addProvider (s : PalwDaStateV1) (leaf : PalwPublicLeafV1) (leafHash : Hash64)
    (commitment : PalwReceiptDaCommitmentV1) (beacon : PalwBuriedBeaconV1)
    (policy : PalwDaPolicyV1) (createdDaaScore : ℕ) (pending : List PalwDaObligationV1)
    (providerBond : TransactionOutpoint) : Except PalwDaError (List PalwDaObligationV1) := do
  let samples ← palwDaProviderSampleIndices P beacon providerBond leafHash commitment.root
    commitment.chunkCount policy.samplesPerProvider policy.minBeaconBurialDaa
  samples.foldlM (fun pending chunkIndex => addPending s pending
    (newObligation P leaf leafHash commitment beacon policy createdDaaScore providerBond
      chunkIndex)) pending

/-- The checks of `register_leaf_obligations` before its loops. -/
def checkRegistration (s : PalwDaStateV1) (leaf : PalwPublicLeafV1)
    (commitment : PalwReceiptDaCommitmentV1) (policy : PalwDaPolicyV1) :
    Except PalwDaError Unit := do
  failIf (s.version ≠ PALW_DA_STATE_VERSION_V1 || !policy.isValid ||
    !supportedObjectVersion commitment.objectVersion ||
    commitment.objectVersion ≠ leaf.receiptDaObjectVersion ||
    commitment.root ≠ leaf.receiptDaRoot || commitment.objectLen ≠ leaf.receiptDaObjectLen ||
    commitment.chunkCount ≠ leaf.receiptDaChunkCount) .policy
  let expected ← expectedChunkCount commitment.objectLen
  failIf (expected ≠ commitment.chunkCount) .policy

def leafObligations (s : PalwDaStateV1) (leaf : PalwPublicLeafV1)
    (commitment : PalwReceiptDaCommitmentV1) (beacon : PalwBuriedBeaconV1)
    (policy : PalwDaPolicyV1) (createdDaaScore : ℕ) :
    Except PalwDaError (List PalwDaObligationV1) :=
  [leaf.providerABond, leaf.providerBBond].foldlM
    (addProvider P s leaf (leaf.leafHash P) commitment beacon policy createdDaaScore) []

/-- The rows of some obligations added (`BTreeMap::extend`). -/
def insertObligations (s : PalwDaStateV1) (pending : List PalwDaObligationV1) : PalwDaStateV1 :=
  { s with obligations := s.obligations.insertAll (·.obligationId) pending }

def registerLeafObligations (s : PalwDaStateV1) (leaf : PalwPublicLeafV1)
    (commitment : PalwReceiptDaCommitmentV1) (beacon : PalwBuriedBeaconV1)
    (policy : PalwDaPolicyV1) (createdDaaScore : ℕ) : Except PalwDaError PalwDaStateV1 := do
  s.checkRegistration leaf commitment policy
  let pending ← s.leafObligations P leaf commitment beacon policy createdDaaScore
  failIf (s.obligations.size + pending.length > PALW_DA_MAX_OBLIGATIONS) .capacity
  finishSnapshotBoundedMutation (s.insertObligations pending) 0

/-! ## Challenges -/

/-- The part of `apply_challenge` that reads the challenge alone. -/
def checkChallengeShape (challenge : PalwDaChallengeV1)
    (networkId currentDaaScore currentEpoch : ℕ) (policy : PalwDaPolicyV1) :
    Except PalwDaError Unit :=
  failIf (!policy.isValid || challenge.version ≠ PALW_DA_CHALLENGE_VERSION_V1 ||
    challenge.networkId ≠ networkId || challenge.challengeEpoch ≠ currentEpoch ||
    challenge.openedDaaScore ≠ currentDaaScore || challenge.challengeNonce == 0 ||
    challenge.challengerOwnerPublicKey.length ≠ STAKE_VALIDATOR_PUBKEY_LEN ||
    challenge.signature.length ≠ STAKE_ATTESTATION_SIG_LEN) .challenge

def checkChallengedObligation (challenge : PalwDaChallengeV1) (obligation : PalwDaObligationV1)
    (currentDaaScore : ℕ) (policy : PalwDaPolicyV1) : Except PalwDaError Unit :=
  failIf (obligation.status ≠ .pending ||
    currentDaaScore > obligation.retentionUntilDaaScore ||
    challenge.responseDeadlineDaaScore ≠
      min (saturatingAdd currentDaaScore policy.responseWindowDaa)
        obligation.retentionUntilDaaScore ||
    challenge.challengerBond == obligation.providerBond) .challenge

def checkChallenger (challenge : PalwDaChallengeV1) (challengerRecord : PalwProviderBondRecord)
    (currentDaaScore : ℕ) : Except PalwDaError Unit :=
  failIf (challengerRecord.bondOutpoint ≠ challenge.challengerBond ||
    challengerRecord.ownerPublicKey ≠ challenge.challengerOwnerPublicKey ||
    validatorIdFromPubkey P.toPrimitives challenge.challengerOwnerPublicKey ≠
      challengerRecord.ownerPubkeyHash ||
    effectiveProviderBondStatus challengerRecord currentDaaScore ≠ .active) .challengerBond

def counterKey (challengerBond : TransactionOutpoint) (epoch : ℕ) : PalwDaChallengeCounterKeyV1 :=
  ⟨challengerBond.transactionId, challengerBond.index, epoch⟩

def checkChallengeRate (s : PalwDaStateV1) (key : PalwDaChallengeCounterKeyV1)
    (policy : PalwDaPolicyV1) : Except PalwDaError Unit := do
  failIf ((s.challengeCounts.lookup key).isNone &&
    s.challengeCounts.size ≥ PALW_DA_MAX_CHALLENGE_COUNTERS) .capacity
  failIf ((s.challengeCounts.lookup key).getD 0 ≥ policy.maxChallengesPerBondPerEpoch)
    .challengeRateLimit

def openChallenge (s : PalwDaStateV1) (challenge : PalwDaChallengeV1)
    (obligation : PalwDaObligationV1) (key : PalwDaChallengeCounterKeyV1) : PalwDaStateV1 :=
  let challengeId := challenge.challengeId P
  { s with
    obligations := s.obligations.insert challenge.obligationId
      { obligation with status := .challenged challengeId }
    challengeCounts := s.challengeCounts.insert key ((s.challengeCounts.lookup key).getD 0 + 1)
    challenges := s.challenges.insert challengeId
      { challenge := challenge
        providerBond := obligation.providerBond
        objectRoot := obligation.objectRoot
        chunkIndex := obligation.chunkIndex
        status := .open } }

def obligation (s : PalwDaStateV1) (id : Hash64) (e : PalwDaError) :
    Except PalwDaError PalwDaObligationV1 :=
  (s.obligations.lookup id).elim (.error e) .ok

def challenge (s : PalwDaStateV1) (id : Hash64) (e : PalwDaError) :
    Except PalwDaError PalwDaChallengeStateV1 :=
  (s.challenges.lookup id).elim (.error e) .ok

/-- Opens a challenge of a pending obligation. -/
def applyChallenge (s : PalwDaStateV1) (challenge : PalwDaChallengeV1)
    (challengerRecord : PalwProviderBondRecord) (networkId currentDaaScore currentEpoch : ℕ)
    (policy : PalwDaPolicyV1) : Except PalwDaError PalwDaStateV1 := do
  checkChallengeShape challenge networkId currentDaaScore currentEpoch policy
  failIf (s.challenges.lookup (challenge.challengeId P)).isSome .challenge
  failIf (s.challenges.size ≥ PALW_DA_MAX_CHALLENGES) .capacity
  let obligation ← s.obligation challenge.obligationId .obligationState
  checkChallengedObligation challenge obligation currentDaaScore policy
  checkChallenger P challenge challengerRecord currentDaaScore
  let key := counterKey challenge.challengerBond currentEpoch
  s.checkChallengeRate key policy
  failIf (!signedWith P challenge.challengerOwnerPublicKey
    (hash64Bytes (challenge.signingHash P)) challenge.signature
    PALW_DA_CHALLENGE_V1_MLDSA87_CONTEXT) .challengeSignature
  finishSnapshotBoundedMutation (s.openChallenge P challenge obligation key) 0

/-! ## Responses -/

def chunkLeafHash (proof : PalwReceiptDaChunkProofV1) : Hash64 :=
  P.blake2b512Keyed PALW_DA_CHUNK_LEAF_DOMAIN
    (leBytes 2 proof.objectVersion ++ leBytes 4 proof.objectLen ++ leBytes 2 proof.chunkCount ++
      leBytes 2 proof.chunkIndex ++ leBytes 4 proof.chunk.length ++ proof.chunk)

def nodeHash (left right : Hash64) : Hash64 :=
  P.blake2b512Keyed PALW_DA_CHUNK_NODE_DOMAIN (hash64Bytes left ++ hash64Bytes right)

def finalizeRoot (objectVersion objectLen chunkCount : ℕ) (apex : Hash64) : Hash64 :=
  P.blake2b512Keyed PALW_DA_OBJECT_ROOT_DOMAIN
    (leBytes 2 objectVersion ++ leBytes 4 objectLen ++ leBytes 2 chunkCount ++ hash64Bytes apex)

def climb : List Hash64 → ℕ → Hash64 → Hash64
  | [], _, node => node
  | sibling :: siblings, index, node =>
    climb siblings (index / 2)
      (if index % 2 = 0 then nodeHash P node sibling else nodeHash P sibling node)

def verifyPalwReceiptDaChunk (expectedRoot : Hash64) (proof : PalwReceiptDaChunkProofV1) :
    Except PalwDaError Unit := do
  failIf (proof.version ≠ PALW_RECEIPT_DA_PROOF_VERSION_V1) (.unsupportedVersion proof.version)
  failIf (!supportedObjectVersion proof.objectVersion) (.unsupportedVersion proof.objectVersion)
  let expectedCount ← expectedChunkCount proof.objectLen
  failIf (proof.chunkCount ≠ expectedCount || proof.chunkCount > PALW_DA_MAX_CHUNKS) .chunkMetadata
  failIf (proof.chunkIndex ≥ proof.chunkCount) .chunkIndex
  failIf (proof.chunk.length ≠ expectedChunkLen proof ||
    proof.chunk.length > PALW_DA_CHUNK_BYTES) .chunkLength
  failIf (proof.siblings.length ≠ Nat.clog 2 proof.chunkCount ||
    proof.siblings.length > PALW_DA_MAX_PROOF_DEPTH) .proofDepth
  let apex := climb P proof.siblings proof.chunkIndex (chunkLeafHash P proof)
  failIf (finalizeRoot P proof.objectVersion proof.objectLen proof.chunkCount apex ≠ expectedRoot)
    .wrongProof

/-- The part of `apply_response` that reads the response alone. -/
def checkResponseShape (response : PalwDaResponseV1) (networkId : ℕ) : Except PalwDaError Unit :=
  failIf (response.version ≠ PALW_DA_RESPONSE_VERSION_V1 || response.networkId ≠ networkId ||
    response.providerOwnerPublicKey.length ≠ STAKE_VALIDATOR_PUBKEY_LEN ||
    response.signature.length ≠ STAKE_ATTESTATION_SIG_LEN) .response

def checkResponder (response : PalwDaResponseV1) (challengeState : PalwDaChallengeStateV1)
    (providerRecord : PalwProviderBondRecord) (currentDaaScore : ℕ) : Except PalwDaError Unit :=
  failIf (challengeState.status ≠ .open || response.providerBond ≠ challengeState.providerBond ||
    providerRecord.bondOutpoint ≠ response.providerBond ||
    providerRecord.ownerPublicKey ≠ response.providerOwnerPublicKey ||
    validatorIdFromPubkey P.toPrimitives response.providerOwnerPublicKey ≠
      providerRecord.ownerPubkeyHash ||
    providerRecord.slashedAtDaaScore.any (· ≤ currentDaaScore) ||
    currentDaaScore > challengeState.challenge.responseDeadlineDaaScore ||
    response.chunkProof.chunkIndex ≠ challengeState.chunkIndex) .response

def resolve (s : PalwDaStateV1) (challengeId : Hash64) (challengeState : PalwDaChallengeStateV1)
    (challengeStatus : PalwDaChallengeStatusV1) (obligation : PalwDaObligationV1)
    (obligationStatus : PalwDaObligationStatusV1) : PalwDaStateV1 :=
  { s with
    challenges := s.challenges.insert challengeId { challengeState with status := challengeStatus }
    obligations := s.obligations.insert challengeState.challenge.obligationId
      { obligation with status := obligationStatus } }

/-- A chunk of the object answers an open challenge. -/
def applyResponse (s : PalwDaStateV1) (response : PalwDaResponseV1)
    (providerRecord : PalwProviderBondRecord) (networkId currentDaaScore : ℕ) :
    Except PalwDaError PalwDaStateV1 := do
  checkResponseShape response networkId
  let challengeState ← s.challenge response.challengeId .response
  checkResponder P response challengeState providerRecord currentDaaScore
  let obligation ← s.obligation challengeState.challenge.obligationId .obligationState
  failIf (response.chunkProof.objectLen ≠ obligation.objectLen) .response
  verifyPalwReceiptDaChunk P challengeState.objectRoot response.chunkProof
  failIf (!signedWith P response.providerOwnerPublicKey (hash64Bytes (response.signingHash P))
    response.signature PALW_DA_RESPONSE_V1_MLDSA87_CONTEXT) .responseSignature
  finishSnapshotBoundedMutation (s.resolve response.challengeId challengeState
    (.responded (response.responseId P)) obligation (.satisfied (response.responseId P))) 0

/-! ## Timeouts -/

/-- The checks of `apply_timeout_evidence`. -/
def checkTimeoutEvidence (s : PalwDaStateV1) (evidence : PalwDaTimeoutEvidenceV1)
    (networkId currentDaaScore : ℕ) : Except PalwDaError PalwDaChallengeStateV1 := do
  failIf (evidence.version ≠ PALW_DA_TIMEOUT_EVIDENCE_VERSION_V1)
    (.unsupportedVersion evidence.version)
  failIf (evidence.networkId ≠ networkId) .timeoutEvidence
  failIf (evidence.evidenceId P ∈ s.timeoutEvidence) .timeoutEvidence
  failIf (s.timeoutEvidence.card ≥ PALW_DA_MAX_TIMEOUT_EVIDENCE) .capacity
  let challengeState ← s.challenge evidence.challengeId .timeoutEvidence
  failIf (challengeState.status ≠ .open || challengeState.providerBond ≠ evidence.providerBond ||
    currentDaaScore ≤ challengeState.challenge.responseDeadlineDaaScore) .timeoutEvidence
  return challengeState

def blockSlashReserve (s : PalwDaStateV1) (providerBond : TransactionOutpoint) : ℕ :=
  if s.blockSlashedProviders.contains providerBond then 0 else OUTPOINT_LEN

def recordTimeout (s : PalwDaStateV1) (evidenceId challengeId : Hash64)
    (challengeState : PalwDaChallengeStateV1) : PalwDaStateV1 :=
  { s with
    timeoutEvidence := insert evidenceId s.timeoutEvidence
    challenges := s.challenges.insert challengeId
      { challengeState with status := .timedOut evidenceId } }

/-- The state it leaves and its result. A challenge without an obligation is the one failure that
leaves the evidence and the challenge changed. -/
def applyTimeoutEvidence (s : PalwDaStateV1) (evidence : PalwDaTimeoutEvidenceV1)
    (networkId currentDaaScore : ℕ) :
    PalwDaStateV1 × Except PalwDaError PalwProviderBondMutation :=
  match s.checkTimeoutEvidence P evidence networkId currentDaaScore with
  | .error e => (s, .error e)
  | .ok challengeState =>
    let evidenceId := evidence.evidenceId P
    let recorded := s.recordTimeout evidenceId evidence.challengeId challengeState
    match s.obligations.lookup challengeState.challenge.obligationId with
    | none => (recorded, .error .obligationState)
    | some obligation =>
      let timedOut := { recorded with
        obligations := s.obligations.insert challengeState.challenge.obligationId
          { obligation with status := .timedOut evidenceId } }
      match finishSnapshotBoundedMutation timedOut (s.blockSlashReserve evidence.providerBond) with
      | .error e => (s, .error e)
      | .ok s' => (s', .ok (.slash evidence.providerBond currentDaaScore))

/-! ## Gates and compaction -/

/-- All obligations of the batch are satisfied. -/
def certificateAllowed (s : PalwDaStateV1) (batchId : Hash64) : Bool :=
  let owed := s.obligations.values.filter (·.batchId = batchId)
  owed ≠ 0 && decide (∀ o ∈ owed, o.status matches .satisfied _)

/-- All obligations of the provider are past and settled. -/
def exitAllowed (s : PalwDaStateV1) (providerBond : TransactionOutpoint) (currentDaaScore : ℕ) :
    Bool :=
  decide (∀ o ∈ s.obligations.values, o.providerBond = providerBond →
    o.retentionUntilDaaScore < currentDaaScore ∧ o.status.exitable)

def liveTimeoutEvidence (challenges : Table Hash64 PalwDaChallengeStateV1) : Finset Hash64 :=
  (challenges.values.filterMap fun c =>
    match c.status with
    | .timedOut evidenceId => some evidenceId
    | _ => none).toFinset

def retainReferenceableBatches (s : PalwDaStateV1) (referenceable : Finset Hash64)
    (currentEpoch : ℕ) : PalwDaStateV1 :=
  let obligations := s.obligations.filterRows fun _ o => o.batchId ∈ referenceable
  let challenges := s.challenges.filterRows fun _ c =>
    (obligations.lookup c.challenge.obligationId).isSome
  { s with
    obligations := obligations
    challenges := challenges
    timeoutEvidence := s.timeoutEvidence ∩ liveTimeoutEvidence challenges
    challengeCounts := s.challengeCounts.filterRows fun key _ => currentEpoch ≤ key.epoch }

def removeCertifiedBatch (s : PalwDaStateV1) (batchId : Hash64) : PalwDaStateV1 :=
  s.retainReferenceableBatches
    ((s.obligations.values.filter (·.batchId ≠ batchId)).map (·.batchId)).toFinset 0

/-! ## The structural check -/

/-- The part of `validate_structure` about one obligation. -/
def obligationWellFormed (id : Hash64) (o : PalwDaObligationV1) : Bool :=
  id == o.obligationId && o.version == 1 && o.chunkCount ≠ 0 && o.chunkIndex < o.chunkCount &&
    o.chunkCount ≤ PALW_DA_MAX_CHUNKS &&
    (expectedChunkCount o.objectLen).toOption == some o.chunkCount

def statusesAgree (s : PalwDaStateV1) (id : Hash64) :
    PalwDaChallengeStatusV1 → PalwDaObligationStatusV1 → Bool
  | .open, .challenged challengeId => challengeId == id
  | .responded responseId, .satisfied got => responseId == got
  | .timedOut evidenceId, .timedOut got => evidenceId == got && evidenceId ∈ s.timeoutEvidence
  | _, _ => false

def challengeMatches (s : PalwDaStateV1) (id : Hash64) (c : PalwDaChallengeStateV1)
    (o : PalwDaObligationV1) : Bool :=
  c.challenge.version == PALW_DA_CHALLENGE_VERSION_V1 &&
    c.challenge.challengerOwnerPublicKey.length == STAKE_VALIDATOR_PUBKEY_LEN &&
    c.challenge.signature.length == STAKE_ATTESTATION_SIG_LEN &&
    c.challenge.challengeNonce ≠ 0 && o.createdDaaScore ≤ c.challenge.openedDaaScore &&
    c.challenge.openedDaaScore ≤ c.challenge.responseDeadlineDaaScore &&
    c.challenge.responseDeadlineDaaScore ≤ o.retentionUntilDaaScore &&
    c.challenge.challengerBond ≠ o.providerBond && c.providerBond == o.providerBond &&
    c.objectRoot == o.objectRoot && c.chunkIndex == o.chunkIndex &&
    s.statusesAgree id c.status o.status

def challengeWellFormed (s : PalwDaStateV1) (id : Hash64) (c : PalwDaChallengeStateV1) : Bool :=
  id == c.challenge.challengeId P &&
    (s.obligations.lookup c.challenge.obligationId).any (s.challengeMatches id c)

/-- Within the bounds, every row well formed. -/
def validateStructure (s : PalwDaStateV1) : Bool :=
  s.version == PALW_DA_STATE_VERSION_V1 && s.obligations.size ≤ PALW_DA_MAX_OBLIGATIONS &&
    s.challenges.size ≤ PALW_DA_MAX_CHALLENGES &&
    s.challengeCounts.size ≤ PALW_DA_MAX_CHALLENGE_COUNTERS &&
    s.timeoutEvidence.card ≤ PALW_DA_MAX_TIMEOUT_EVIDENCE &&
    s.blockSlashedProviders.length ≤ PALW_DA_MAX_TIMEOUT_EVIDENCE &&
    decide s.blockSlashedProviders.Nodup &&
    s.challengeCounts.rowsAll (fun _ count => count ≠ 0) &&
    s.obligations.rowsAll obligationWellFormed &&
    s.challenges.rowsAll (s.challengeWellFormed P) &&
    decide (s.timeoutEvidence ⊆ liveTimeoutEvidence s.challenges) &&
    s.snapshotFitsWithReserve 0 PALW_DA_MAX_PRUNING_SNAPSHOT_BYTES

end PalwDaStateV1

end Misaka.Palw
