import Misaka.Dns.Payload

/-!
# Payloads of the replica lane

The overlay transactions of `consensus/core/src/palw.rs` and `palw/da.rs`: the kinds carried by the
subnetwork bytes `0x30` to `0x3c`, the objects their payloads decode to, and what the lane takes
from outside the repository.
-/

namespace Misaka.Palw

open Misaka.Core Dns

def PALW_PAYLOAD_VERSION_V1 : ℕ := 1
def PALW_BATCH_CERTIFICATE_VERSION_V2 : ℕ := 2
def PALW_LEAF_CHUNK_VERSION_V2 : ℕ := 2
def PALW_MAX_LEAF_MEMBERSHIP_PROOF_LEN : ℕ := 8
def PALW_MAX_OVERLAY_PAYLOAD_BYTES : ℕ := 512 * 1024
def PALW_MAX_BATCH_LEAVES_V1 : ℕ := 256
def PALW_MAX_PROVIDER_RUNTIME_CLASSES_V1 : ℕ := 64
def PALW_MAX_PROVIDER_CAPACITY_ENTRIES_V1 : ℕ := 256
def PALW_MAX_AUDITOR_VOTES_V2 : ℕ := 64
def PALW_MAX_LEAVES_PER_CHUNK : ℕ := 64
def PALW_RECEIPT_DA_OBJECT_VERSION_V1 : ℕ := 1
def PALW_RECEIPT_DA_OBJECT_VERSION_V2 : ℕ := 2
def PALW_RECEIPT_DA_PROOF_VERSION_V1 : ℕ := 1
def PALW_DA_CHALLENGE_VERSION_V1 : ℕ := 1
def PALW_DA_RESPONSE_VERSION_V1 : ℕ := 1
def PALW_DA_TIMEOUT_EVIDENCE_VERSION_V1 : ℕ := 1
def PALW_DA_CHUNK_BYTES : ℕ := 16 * 1024
def PALW_DA_MAX_OBJECT_BYTES : ℕ := 256 * 1024
def PALW_DA_MAX_CHUNKS : ℕ := PALW_DA_MAX_OBJECT_BYTES / PALW_DA_CHUNK_BYTES
def PALW_DA_MAX_PROOF_DEPTH : ℕ := Nat.log2 PALW_DA_MAX_CHUNKS
def PALW_DA_MAX_ONCHAIN_CHALLENGE_BYTES : ℕ := 16 * 1024
def PALW_DA_MAX_ONCHAIN_RESPONSE_BYTES : ℕ := 32 * 1024
def PALW_DA_MAX_ONCHAIN_TIMEOUT_BYTES : ℕ := 1024

inductive PalwTxKind where
  | providerBond
  | batchManifest
  | leafChunk
  | batchCertificate
  | revocation
  | beaconCommit
  | beaconReveal
  | providerUnbond
  | blockAuthorization
  | daChallenge
  | daResponse
  | daTimeoutEvidence
  deriving DecidableEq, Repr

def PalwTxKind.table : List (UInt8 × PalwTxKind) :=
  [(0x30, .providerBond), (0x31, .batchManifest), (0x32, .leafChunk), (0x33, .batchCertificate),
    (0x34, .revocation), (0x35, .beaconCommit), (0x36, .beaconReveal), (0x37, .providerUnbond),
    (0x38, .blockAuthorization), (0x3a, .daChallenge), (0x3b, .daResponse),
    (0x3c, .daTimeoutEvidence)]

def PalwTxKind.fromSubnetworkByte (value : UInt8) : Option PalwTxKind :=
  (PalwTxKind.table.find? (·.1 == value)).map (·.2)

structure PalwProviderBondPayloadV1 where
  version : ℕ
  ownerPublicKey : Bytes
  operatorGroupId : Hash64
  runtimeClasses : List Hash64
  capacityByShape : List (ℕ × ℕ)
  rewardKeyRoot : Hash64
  amountSompi : ℕ
  unbondDelayEpochs : ℕ
  deriving DecidableEq, Repr

structure PalwProviderUnbondRequestV1 where
  version : ℕ
  bondOutpoint : TransactionOutpoint
  ownerPublicKey : Bytes
  signature : Bytes
  deriving DecidableEq, Repr

structure PalwPublicLeafV1 where
  version : ℕ
  batchId : Hash64
  leafIndex : ℕ
  jobNullifier : Hash64
  ticketNullifierCommitment : Hash64
  modelProfileId : Hash64
  runtimeClassId : Hash64
  shapeId : ℕ
  quantumCount : ℕ
  proofType : ℕ
  providerABond : TransactionOutpoint
  providerBBond : TransactionOutpoint
  providerARewardScript : ScriptPublicKey
  providerBRewardScript : ScriptPublicKey
  ticketAuthorityPkHash : Hash64
  privateMatchCommitment : Hash64
  receiptDaObjectVersion : ℕ
  receiptDaRoot : Hash64
  receiptDaObjectLen : ℕ
  receiptDaChunkCount : ℕ
  receiptV3ComputeSetId : Hash64
  receiptV3JobChallenge : Hash64
  receiptV3IssuedEpoch : ℕ
  receiptV3ExpiresEpoch : ℕ
  registeredEpoch : ℕ
  activationEpoch : ℕ
  expiryEpoch : ℕ
  leafBondSompi : ℕ
  deriving DecidableEq, Repr, Inhabited

structure PalwBatchManifestV1 where
  version : ℕ
  batchId : Hash64
  registrationEpoch : ℕ
  modelProfileId : Hash64
  runtimeClassId : Hash64
  leafCount : ℕ
  chunkCount : ℕ
  leafRoot : Hash64
  descriptorRoot : Hash64
  totalLeafBondSompi : ℕ
  auditPolicyId : Hash64
  activationNotBeforeEpoch : ℕ
  expiryEpoch : ℕ
  deriving DecidableEq, Repr

structure PalwLeafMembershipProofV1 where
  siblings : List Hash64
  deriving DecidableEq, Repr

structure PalwLeafChunkV1 where
  version : ℕ
  batchId : Hash64
  chunkIndex : ℕ
  leaves : List PalwPublicLeafV1
  proofs : List PalwLeafMembershipProofV1
  deriving DecidableEq, Repr

structure PalwAuditorVoteV2 where
  bondOutpoint : TransactionOutpoint
  vote : ℕ
  checkedLeafBitmapRoot : Hash64
  passedLeafCount : ℕ
  rejectedLeafBitmapRoot : Hash64
  signature : Bytes
  deriving DecidableEq, Repr

structure PalwBatchCertificateV2 where
  version : ℕ
  batchId : Hash64
  manifestHash : Hash64
  leafRoot : Hash64
  auditBeaconEpoch : ℕ
  auditSampleRoot : Hash64
  passedLeafCount : ℕ
  rejectedLeafBitmapRoot : Hash64
  certificateEpoch : ℕ
  activationEpoch : ℕ
  expiryEpoch : ℕ
  auditorSetCommitment : Hash64
  approvingStake : ℕ
  votes : List PalwAuditorVoteV2
  deriving DecidableEq, Repr

structure PalwRevocationV1 where
  version : ℕ
  batchId : Hash64
  effectiveDaaScore : ℕ
  reasonCode : ℕ
  evidenceHash : Hash64
  deriving DecidableEq, Repr

structure PalwBeaconCommitV1 where
  version : ℕ
  epoch : ℕ
  bondOutpoint : TransactionOutpoint
  commitment : Hash64
  signature : Bytes
  deriving DecidableEq, Repr

structure PalwBeaconRevealV1 where
  version : ℕ
  epoch : ℕ
  bondOutpoint : TransactionOutpoint
  random64 : Bytes
  signature : Bytes
  deriving DecidableEq, Repr

structure PalwBlockAuthorizationV1 where
  version : ℕ
  batchId : Hash64
  leafIndex : ℕ
  ticketNullifier : Hash64
  headerPreimageCommitment : Hash64
  authorityPublicKey : Bytes
  signature : Bytes
  deriving DecidableEq, Repr

structure PalwDaChallengeV1 where
  version : ℕ
  networkId : ℕ
  obligationId : Hash64
  challengeEpoch : ℕ
  openedDaaScore : ℕ
  responseDeadlineDaaScore : ℕ
  challengerBond : TransactionOutpoint
  challengerOwnerPublicKey : Bytes
  challengeNonce : Hash64
  signature : Bytes
  deriving DecidableEq, Repr

structure PalwReceiptDaChunkProofV1 where
  version : ℕ
  objectVersion : ℕ
  objectLen : ℕ
  chunkCount : ℕ
  chunkIndex : ℕ
  chunk : Bytes
  siblings : List Hash64
  deriving DecidableEq, Repr

structure PalwDaResponseV1 where
  version : ℕ
  networkId : ℕ
  challengeId : Hash64
  providerBond : TransactionOutpoint
  providerOwnerPublicKey : Bytes
  chunkProof : PalwReceiptDaChunkProofV1
  signature : Bytes
  deriving DecidableEq, Repr

structure PalwDaTimeoutEvidenceV1 where
  version : ℕ
  networkId : ℕ
  challengeId : Hash64
  providerBond : TransactionOutpoint
  deriving DecidableEq, Repr

/-- What the lane takes from outside the repository, beside the primitives of the finality overlay:
`borsh` for its own objects. A decoder gives `none` on any error, trailing bytes included. -/
structure PalwPrimitives extends Primitives where
  decodeProviderBond : Bytes → Option PalwProviderBondPayloadV1
  decodeProviderUnbond : Bytes → Option PalwProviderUnbondRequestV1
  decodeManifest : Bytes → Option PalwBatchManifestV1
  decodeLeafChunk : Bytes → Option PalwLeafChunkV1
  decodeCertificate : Bytes → Option PalwBatchCertificateV2
  decodeRevocation : Bytes → Option PalwRevocationV1
  decodeBeaconCommit : Bytes → Option PalwBeaconCommitV1
  decodeBeaconReveal : Bytes → Option PalwBeaconRevealV1
  decodeBlockAuthorization : Bytes → Option PalwBlockAuthorizationV1
  decodeDaChallenge : Bytes → Option PalwDaChallengeV1
  decodeDaResponse : Bytes → Option PalwDaResponseV1
  decodeDaTimeoutEvidence : Bytes → Option PalwDaTimeoutEvidenceV1
  /-- `borsh::to_vec` of a block authorization. -/
  encodeBlockAuthorization : PalwBlockAuthorizationV1 → Bytes
  /-- `borsh::to_vec` of a leaf. -/
  encodeLeaf : PalwPublicLeafV1 → Bytes
  /-- `borsh::to_vec` of a manifest. -/
  encodeManifest : PalwBatchManifestV1 → Bytes
  /-- `borsh::to_vec` of a certificate. -/
  encodeCertificate : PalwBatchCertificateV2 → Bytes
  /-- `borsh::to_vec` of a chunk proof. -/
  encodeChunkProof : PalwReceiptDaChunkProofV1 → Bytes
  /-- `blake2b_512_address_payload`, the keyed digest the script engine recomputes. -/
  blake2b512AddressPayload : Bytes → Hash64

def divCeil (n d : ℕ) : ℕ := (n + d - 1) / d

def expectedChunkLen (proof : PalwReceiptDaChunkProofV1) : ℕ :=
  if proof.chunkIndex + 1 = proof.chunkCount then
    proof.objectLen - proof.chunkIndex * PALW_DA_CHUNK_BYTES
  else PALW_DA_CHUNK_BYTES

/-- `push_outpoint`. -/
def outpointBytes (o : TransactionOutpoint) : Bytes :=
  hash64Bytes o.transactionId ++ leBytes 4 o.index

/-- `push_var`: a byte string behind its length. -/
def varBytes (bytes : Bytes) : Bytes := leBytes 8 bytes.length ++ bytes

def sampleWord (hi lo : UInt8) : ℕ := 256 * hi.toNat + lo.toNat

def sampleWordBytes (n : ℕ) : Bytes := [UInt8.ofNat (n / 256), UInt8.ofNat n]

def sampleManifest (batchId : Hash64) (registration descriptor : ℕ) : PalwBatchManifestV1 where
  version := 1
  batchId := batchId
  registrationEpoch := registration
  modelProfileId := 1
  runtimeClassId := 1
  leafCount := 1
  chunkCount := 1
  leafRoot := 1
  descriptorRoot := descriptor
  totalLeafBondSompi := 0
  auditPolicyId := 1
  activationNotBeforeEpoch := registration + 8
  expiryEpoch := registration + 14

def sampleLeaf (batchId : Hash64) (registration providerA providerB : ℕ) : PalwPublicLeafV1 where
  version := 1
  batchId := batchId
  leafIndex := 0
  jobNullifier := 1
  ticketNullifierCommitment := 1
  modelProfileId := 1
  runtimeClassId := 1
  shapeId := 1
  quantumCount := 1
  proofType := 1
  providerABond := ⟨providerA, 0⟩
  providerBBond := ⟨providerB, 0⟩
  providerARewardScript := p2pkhMldsa87Spk providerA
  providerBRewardScript := p2pkhMldsa87Spk providerB
  ticketAuthorityPkHash := 1
  privateMatchCommitment := 1
  receiptDaObjectVersion := PALW_RECEIPT_DA_OBJECT_VERSION_V2
  receiptDaRoot := 1
  receiptDaObjectLen := 1
  receiptDaChunkCount := 1
  receiptV3ComputeSetId := 1
  receiptV3JobChallenge := 1
  receiptV3IssuedEpoch := registration
  receiptV3ExpiresEpoch := registration + 14
  registeredEpoch := registration
  activationEpoch := registration + 8
  expiryEpoch := registration + 14
  leafBondSompi := 0

def sampleChallenge (obligation epoch opened deadline : ℕ) (challenger : UInt8) :
    PalwDaChallengeV1 where
  version := 1
  networkId := 1
  obligationId := obligation
  challengeEpoch := epoch
  openedDaaScore := opened
  responseDeadlineDaaScore := deadline
  challengerBond := ⟨challenger.toNat, 0⟩
  challengerOwnerPublicKey := List.replicate STAKE_VALIDATOR_PUBKEY_LEN challenger
  challengeNonce := 1
  signature := List.replicate STAKE_ATTESTATION_SIG_LEN challenger

/-- External functions small enough to evaluate: a payload spells its fields byte by byte, a keyed
digest is a checksum of the first bytes, a key is known by its first byte and signs what begins with
it. -/
def samplePalwPrimitives : PalwPrimitives :=
  { samplePrimitives with
    blake2b512Keyed := fun _ message =>
      (message.take 400).foldl (fun h b => (31 * h + b.toNat) % 65521) 7
    decodeProviderBond := fun
      | [key] => some
        { version := 1
          ownerPublicKey := List.replicate STAKE_VALIDATOR_PUBKEY_LEN key
          operatorGroupId := 1
          runtimeClasses := [1]
          capacityByShape := [(1, 1)]
          rewardKeyRoot := 1
          amountSompi := 1000000000
          unbondDelayEpochs := 1 }
      | _ => none
    decodeProviderUnbond := fun
      | [owner, bond] => some
        { version := 1
          bondOutpoint := ⟨bond.toNat, 0⟩
          ownerPublicKey := List.replicate STAKE_VALIDATOR_PUBKEY_LEN owner
          signature := List.replicate STAKE_ATTESTATION_SIG_LEN owner }
      | _ => none
    decodeManifest := fun
      | [hi, lo, registration, descriptor] =>
        some (sampleManifest (sampleWord hi lo) registration.toNat descriptor.toNat)
      | _ => none
    decodeLeafChunk := fun
      | [hi, lo, registration, providerA, providerB] => some
        { version := PALW_LEAF_CHUNK_VERSION_V2
          batchId := sampleWord hi lo
          chunkIndex := 0
          leaves :=
            [sampleLeaf (sampleWord hi lo) registration.toNat providerA.toNat providerB.toNat]
          proofs := [⟨[]⟩] }
      | _ => none
    decodeCertificate := fun _ => none
    decodeRevocation := fun
      | [batch] => some ⟨1, batch.toNat, 0, 0, 1⟩
      | _ => none
    decodeBeaconCommit := fun
      | [epoch, bond, commitment, signer] =>
        some ⟨1, epoch.toNat, ⟨bond.toNat, 0⟩, commitment.toNat,
          List.replicate STAKE_ATTESTATION_SIG_LEN signer⟩
      | _ => none
    decodeBeaconReveal := fun _ => none
    decodeBlockAuthorization := fun _ => none
    decodeDaChallenge := fun
      | [hi, lo, epoch, openedHi, openedLo, deadlineHi, deadlineLo, challenger] =>
        some (sampleChallenge (sampleWord hi lo) epoch.toNat (sampleWord openedHi openedLo)
          (sampleWord deadlineHi deadlineLo) challenger)
      | _ => none
    decodeDaResponse := fun _ => none
    decodeDaTimeoutEvidence := fun
      | [hi, lo, provider] => some ⟨1, 1, sampleWord hi lo, ⟨provider.toNat, 0⟩⟩
      | _ => none
    encodeBlockAuthorization := fun _ => []
    encodeLeaf := fun leaf => sampleWordBytes leaf.batchId ++ sampleWordBytes leaf.leafIndex
    encodeManifest := fun m =>
      sampleWordBytes m.registrationEpoch ++ sampleWordBytes m.descriptorRoot
    encodeCertificate := fun _ => []
    encodeChunkProof := fun _ => []
    blake2b512AddressPayload := fun key => (key.headD 0).toNat }

end Misaka.Palw
