import Mathlib.Data.Nat.Log
import Misaka.Palw.Payload

/-!
# Admission of overlay payloads in isolation

`validate_palw_overlay_payload`: one validator for each kind of overlay transaction, dispatched on
the subnetwork byte. The validators look at the payload alone.
-/

namespace Misaka.Palw

open Misaka.Core Dns

inductive PalwTxError where
  | decode
  | unsupportedKind (kind : UInt8)
  | payloadTooLarge (len max : ℕ)
  | unsupportedVersion (version : ℕ)
  | invalidPublicKeyLen (len : ℕ)
  | invalidSignatureLen (len : ℕ)
  | invalidCount (field : String) (count min max : ℕ)
  | invalidField (field : String)
  | nonCanonical (field : String)
  | missingProviderBondOutput
  | providerBondOutputValueMismatch (expected got : ℕ)
  | providerBondOutputScriptMismatch
  deriving DecidableEq, Repr

def decodePalwPayload {α : Type} (decoded : Option α) : Except PalwTxError α :=
  decoded.elim (.error .decode) .ok

theorem decodePalwPayload_eq_ok {α : Type} {decoded : Option α} {a : α} :
    decodePalwPayload decoded = .ok a ↔ decoded = some a := by
  cases decoded <;> simp [decodePalwPayload]

def checkPalwVersion (version : ℕ) : Except PalwTxError Unit :=
  failIf (version ≠ PALW_PAYLOAD_VERSION_V1) (.unsupportedVersion version)

def checkCount (field : String) (count min max : ℕ) : Except PalwTxError Unit :=
  failIf (!(min ≤ count ∧ count ≤ max)) (.invalidCount field count min max)

def checkPublicKeyLen (key : Bytes) : Except PalwTxError Unit :=
  failIf (key.length ≠ STAKE_VALIDATOR_PUBKEY_LEN) (.invalidPublicKeyLen key.length)

def checkSignatureLen (signature : Bytes) : Except PalwTxError Unit :=
  failIf (signature.length ≠ STAKE_ATTESTATION_SIG_LEN) (.invalidSignatureLen signature.length)

/-- Consecutive elements are related (`windows(2).all(..)`). -/
def windowsAll {α : Type} (r : α → α → Bool) : List α → Bool
  | a :: b :: l => r a b && windowsAll r (b :: l)
  | _ => true

def outpointLt (a b : TransactionOutpoint) : Bool :=
  a.transactionId < b.transactionId ||
    (a.transactionId == b.transactionId && a.index < b.index)

variable (P : PalwPrimitives)

def decodeAndCheckProviderBond (payload : Bytes) :
    Except PalwTxError PalwProviderBondPayloadV1 := do
  let bond ← decodePalwPayload (P.decodeProviderBond payload)
  checkPalwVersion bond.version
  checkPublicKeyLen bond.ownerPublicKey
  checkCount "provider.runtime_classes" bond.runtimeClasses.length 1
    PALW_MAX_PROVIDER_RUNTIME_CLASSES_V1
  failIf (!windowsAll (· < ·) bond.runtimeClasses) (.nonCanonical "provider.runtime_classes")
  checkCount "provider.capacity_by_shape" bond.capacityByShape.length 1
    PALW_MAX_PROVIDER_CAPACITY_ENTRIES_V1
  failIf (!windowsAll (fun a b => a.1 < b.1) bond.capacityByShape)
    (.nonCanonical "provider.capacity_by_shape")
  failIf (bond.capacityByShape.any (·.2 == 0))
    (.invalidField "provider.capacity_by_shape.capacity")
  failIf (bond.amountSompi == 0) (.invalidField "provider.amount_sompi")
  failIf (bond.unbondDelayEpochs == 0) (.invalidField "provider.unbond_delay_epochs")
  return bond

def validateProviderBond (payload : Bytes) : Except PalwTxError Unit := do
  let _ ← decodeAndCheckProviderBond P payload

def providerBondLockSpk (ownerPublicKey : Bytes) : ScriptPublicKey :=
  p2pkhMldsa87Spk (P.blake2b512AddressPayload ownerPublicKey)

def validateProviderBondTx (payload : Bytes) (outputs : List TransactionOutput) :
    Except PalwTxError Unit := do
  let bond ← decodeAndCheckProviderBond P payload
  let output0 ← outputs.head?.elim (.error .missingProviderBondOutput) .ok
  failIf (output0.value ≠ bond.amountSompi)
    (.providerBondOutputValueMismatch bond.amountSompi output0.value)
  failIf (output0.scriptPublicKey ≠ providerBondLockSpk P bond.ownerPublicKey)
    .providerBondOutputScriptMismatch

def validateProviderUnbond (payload : Bytes) : Except PalwTxError Unit := do
  let req ← decodePalwPayload (P.decodeProviderUnbond payload)
  checkPalwVersion req.version
  checkPublicKeyLen req.ownerPublicKey
  checkSignatureLen req.signature

def validateManifest (payload : Bytes) : Except PalwTxError Unit := do
  let manifest ← decodePalwPayload (P.decodeManifest payload)
  checkPalwVersion manifest.version
  checkCount "manifest.leaf_count" manifest.leafCount 1 PALW_MAX_BATCH_LEAVES_V1
  failIf (manifest.chunkCount ≠ divCeil manifest.leafCount PALW_MAX_LEAVES_PER_CHUNK)
    (.invalidField "manifest.chunk_count")
  failIf (!(manifest.registrationEpoch < manifest.activationNotBeforeEpoch &&
      manifest.activationNotBeforeEpoch < manifest.expiryEpoch))
    (.invalidField "manifest.epoch_range")

def palwRewardScriptIsCoinbaseRepresentable (spk : ScriptPublicKey) : Bool :=
  spk.version == 0 && spk.script.length == 69 && spk.script.take 3 == [0x76, 0xc4, 0x40] &&
    spk.script.drop 67 == [0x88, 0xa6]

/-- The proof types `PalwProofType::from_u8` knows. -/
def isPalwProofType (v : ℕ) : Bool := v == 1 || v == 3

/-- The part of `validate_public_leaf` on the schema of the receipt object. -/
def validateLeafObjectVersion (leaf : PalwPublicLeafV1) : Except PalwTxError Unit :=
  if leaf.receiptDaObjectVersion = PALW_RECEIPT_DA_OBJECT_VERSION_V1 then
    failIf (leaf.receiptV3ComputeSetId ≠ 0 || leaf.receiptV3JobChallenge ≠ 0 ||
        leaf.receiptV3IssuedEpoch ≠ 0 || leaf.receiptV3ExpiresEpoch ≠ 0)
      (.invalidField "leaf.receipt_v3_legacy_sentinel")
  else if leaf.receiptDaObjectVersion = PALW_RECEIPT_DA_OBJECT_VERSION_V2 then
    failIf (leaf.receiptV3ComputeSetId == 0 || leaf.receiptV3JobChallenge == 0 ||
        leaf.jobNullifier ≠ leaf.receiptV3JobChallenge ||
        leaf.receiptV3IssuedEpoch > leaf.registeredEpoch ||
        leaf.receiptV3ExpiresEpoch ≠ leaf.expiryEpoch)
      (.invalidField "leaf.receipt_v3_expectations")
  else .error (.invalidField "leaf.receipt_da_object_version")

def validatePublicLeaf (batchId : Hash64) (leaf : PalwPublicLeafV1) : Except PalwTxError Unit := do
  checkPalwVersion leaf.version
  failIf (leaf.batchId ≠ batchId) (.invalidField "leaf.batch_id")
  failIf (!isPalwProofType leaf.proofType) (.invalidField "leaf.proof_type")
  failIf (leaf.quantumCount == 0) (.invalidField "leaf.quantum_count")
  failIf (leaf.receiptDaRoot == 0 || leaf.receiptDaObjectLen == 0 ||
      leaf.receiptDaObjectLen > PALW_DA_MAX_OBJECT_BYTES || leaf.receiptDaChunkCount == 0 ||
      leaf.receiptDaChunkCount > PALW_DA_MAX_CHUNKS ||
      leaf.receiptDaChunkCount ≠ divCeil leaf.receiptDaObjectLen PALW_DA_CHUNK_BYTES)
    (.invalidField "leaf.receipt_da_metadata")
  validateLeafObjectVersion leaf
  failIf (leaf.providerABond == leaf.providerBBond) (.invalidField "leaf.provider_bonds")
  failIf (!palwRewardScriptIsCoinbaseRepresentable leaf.providerARewardScript ||
      !palwRewardScriptIsCoinbaseRepresentable leaf.providerBRewardScript)
    (.invalidField "leaf.reward_script")
  failIf (!(leaf.registeredEpoch < leaf.activationEpoch &&
      leaf.activationEpoch < leaf.expiryEpoch))
    (.invalidField "leaf.epoch_range")

/-- The body of the leaf loop of `validate_leaf_chunk`, over the commitments already seen. -/
def checkChunkLeaf (batchId : Hash64) (seen : List Hash64) (leaf : PalwPublicLeafV1) :
    Except PalwTxError (List Hash64) := do
  validatePublicLeaf batchId leaf
  failIf (seen.contains leaf.ticketNullifierCommitment)
    (.nonCanonical "leaf_chunk.ticket_nullifiers")
  return leaf.ticketNullifierCommitment :: seen

/-- Leaves in order, with a proof for each. -/
def validateLeafChunk (payload : Bytes) : Except PalwTxError Unit := do
  let chunk ← decodePalwPayload (P.decodeLeafChunk payload)
  failIf (chunk.version ≠ PALW_LEAF_CHUNK_VERSION_V2) (.unsupportedVersion chunk.version)
  checkCount "leaf_chunk.leaves" chunk.leaves.length 1 PALW_MAX_LEAVES_PER_CHUNK
  failIf (chunk.proofs.length ≠ chunk.leaves.length)
    (.invalidCount "leaf_chunk.proofs" chunk.proofs.length chunk.leaves.length
      chunk.leaves.length)
  chunk.proofs.forM fun proof =>
    failIf (proof.siblings.length > PALW_MAX_LEAF_MEMBERSHIP_PROOF_LEN)
      (.invalidCount "leaf_chunk.proof_len" proof.siblings.length 0
        PALW_MAX_LEAF_MEMBERSHIP_PROOF_LEN)
  let _ ← chunk.leaves.foldlM (checkChunkLeaf chunk.batchId) []
  failIf (!windowsAll (fun a b => a.leafIndex < b.leafIndex) chunk.leaves)
    (.nonCanonical "leaf_chunk.leaf_indices")

/-- The body of the vote loop of `validate_certificate`. -/
def checkVote (cert : PalwBatchCertificateV2) (vote : PalwAuditorVoteV2) :
    Except PalwTxError Unit := do
  failIf (vote.vote > 1) (.invalidField "certificate.vote")
  checkSignatureLen vote.signature
  failIf (vote.passedLeafCount ≠ cert.passedLeafCount)
    (.invalidField "certificate.vote.passed_leaf_count")
  failIf (vote.rejectedLeafBitmapRoot ≠ cert.rejectedLeafBitmapRoot)
    (.invalidField "certificate.vote.rejected_leaf_bitmap_root")

/-- Epochs in range, votes in the order of their bonds. -/
def validateCertificate (payload : Bytes) : Except PalwTxError Unit := do
  let cert ← decodePalwPayload (P.decodeCertificate payload)
  failIf (cert.version ≠ PALW_BATCH_CERTIFICATE_VERSION_V2) (.unsupportedVersion cert.version)
  checkCount "certificate.votes" cert.votes.length 1 PALW_MAX_AUDITOR_VOTES_V2
  failIf (cert.passedLeafCount == 0) (.invalidField "certificate.passed_leaf_count")
  failIf (!(cert.auditBeaconEpoch ≤ cert.certificateEpoch &&
      cert.certificateEpoch < cert.activationEpoch && cert.activationEpoch < cert.expiryEpoch))
    (.invalidField "certificate.epoch_range")
  cert.votes.forM (checkVote cert)
  failIf (!windowsAll (fun a b => outpointLt a.bondOutpoint b.bondOutpoint) cert.votes)
    (.nonCanonical "certificate.votes")

def validateRevocation (payload : Bytes) : Except PalwTxError Unit := do
  let revocation ← decodePalwPayload (P.decodeRevocation payload)
  checkPalwVersion revocation.version
  failIf (revocation.evidenceHash == 0) (.invalidField "revocation.evidence_hash")

def validateBeaconCommit (payload : Bytes) : Except PalwTxError Unit := do
  let commit ← decodePalwPayload (P.decodeBeaconCommit payload)
  checkPalwVersion commit.version
  checkSignatureLen commit.signature

def validateBeaconReveal (payload : Bytes) : Except PalwTxError Unit := do
  let reveal ← decodePalwPayload (P.decodeBeaconReveal payload)
  checkPalwVersion reveal.version
  checkSignatureLen reveal.signature

def validateBlockAuthorization (payload : Bytes) : Except PalwTxError Unit := do
  let auth ← decodePalwPayload (P.decodeBlockAuthorization payload)
  checkPalwVersion auth.version
  failIf (auth.authorityPublicKey.length ≠ STAKE_VALIDATOR_PUBKEY_LEN)
    (.invalidField "authorization.authority_public_key")
  checkSignatureLen auth.signature
  failIf (P.encodeBlockAuthorization auth ≠ payload) (.nonCanonical "authorization.payload")

def checkPayloadLen (payload : Bytes) (max : ℕ) : Except PalwTxError Unit :=
  failIf (payload.length > max) (.payloadTooLarge payload.length max)

def validateDaChallenge (payload : Bytes) : Except PalwTxError Unit := do
  checkPayloadLen payload PALW_DA_MAX_ONCHAIN_CHALLENGE_BYTES
  let challenge ← decodePalwPayload (P.decodeDaChallenge payload)
  failIf (challenge.version ≠ PALW_DA_CHALLENGE_VERSION_V1) (.unsupportedVersion challenge.version)
  failIf (challenge.obligationId == 0 || challenge.challengeNonce == 0 ||
      challenge.responseDeadlineDaaScore ≤ challenge.openedDaaScore)
    (.invalidField "da_challenge.binding_or_deadline")
  checkPublicKeyLen challenge.challengerOwnerPublicKey
  checkSignatureLen challenge.signature

def validateDaResponse (payload : Bytes) : Except PalwTxError Unit := do
  checkPayloadLen payload PALW_DA_MAX_ONCHAIN_RESPONSE_BYTES
  let response ← decodePalwPayload (P.decodeDaResponse payload)
  failIf (response.version ≠ PALW_DA_RESPONSE_VERSION_V1) (.unsupportedVersion response.version)
  failIf (response.challengeId == 0) (.invalidField "da_response.challenge_id")
  checkPublicKeyLen response.providerOwnerPublicKey
  checkSignatureLen response.signature
  let proof := response.chunkProof
  failIf (proof.version ≠ PALW_RECEIPT_DA_PROOF_VERSION_V1) (.unsupportedVersion proof.version)
  failIf (!(proof.objectVersion == PALW_RECEIPT_DA_OBJECT_VERSION_V1 ||
      proof.objectVersion == PALW_RECEIPT_DA_OBJECT_VERSION_V2))
    (.unsupportedVersion proof.objectVersion)
  failIf (proof.objectLen == 0 || proof.objectLen > PALW_DA_MAX_OBJECT_BYTES)
    (.invalidField "da_response.object_len")
  let expectedCount := divCeil proof.objectLen PALW_DA_CHUNK_BYTES
  failIf (proof.chunkCount ≠ expectedCount || expectedCount == 0 ||
      expectedCount > PALW_DA_MAX_CHUNKS)
    (.invalidField "da_response.chunk_count")
  failIf (proof.chunkIndex ≥ proof.chunkCount) (.invalidField "da_response.chunk_index")
  failIf (proof.chunk.length ≠ expectedChunkLen proof) (.invalidField "da_response.chunk_len")
  failIf (proof.siblings.length ≠ Nat.clog 2 expectedCount ||
      proof.siblings.length > PALW_DA_MAX_PROOF_DEPTH)
    (.invalidField "da_response.proof_depth")

def validateDaTimeoutEvidence (payload : Bytes) : Except PalwTxError Unit := do
  checkPayloadLen payload PALW_DA_MAX_ONCHAIN_TIMEOUT_BYTES
  let evidence ← decodePalwPayload (P.decodeDaTimeoutEvidence payload)
  failIf (evidence.version ≠ PALW_DA_TIMEOUT_EVIDENCE_VERSION_V1)
    (.unsupportedVersion evidence.version)
  failIf (evidence.challengeId == 0) (.invalidField "da_timeout.challenge_id")

def validateKind (payload : Bytes) : PalwTxKind → Except PalwTxError Unit
  | .providerBond => validateProviderBond P payload
  | .batchManifest => validateManifest P payload
  | .leafChunk => validateLeafChunk P payload
  | .batchCertificate => validateCertificate P payload
  | .revocation => validateRevocation P payload
  | .beaconCommit => validateBeaconCommit P payload
  | .beaconReveal => validateBeaconReveal P payload
  | .providerUnbond => validateProviderUnbond P payload
  | .blockAuthorization => validateBlockAuthorization P payload
  | .daChallenge => validateDaChallenge P payload
  | .daResponse => validateDaResponse P payload
  | .daTimeoutEvidence => validateDaTimeoutEvidence P payload

def validatePalwOverlayPayload (subnetworkByte : UInt8) (payload : Bytes) :
    Except PalwTxError Unit := do
  let kind ← (PalwTxKind.fromSubnetworkByte subnetworkByte).elim
    (.error (.unsupportedKind subnetworkByte)) .ok
  checkPayloadLen payload PALW_MAX_OVERLAY_PAYLOAD_BYTES
  validateKind P payload kind

def validatePalwOverlayTx (subnetworkByte : UInt8) (payload : Bytes)
    (outputs : List TransactionOutput) : Except PalwTxError Unit := do
  validatePalwOverlayPayload P subnetworkByte payload
  if PalwTxKind.fromSubnetworkByte subnetworkByte = some .providerBond then
    validateProviderBondTx P payload outputs

end Misaka.Palw
