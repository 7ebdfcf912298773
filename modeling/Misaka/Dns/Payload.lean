import Misaka.Chain.Transaction
import Misaka.Core.Fallible

/-!
# DNS overlay payloads

The four payloads the DNS overlay carries on its own subnetworks, the digests their signatures
cover, and the stateless validators of `consensus/core/src/dns_finality.rs`. Hashing, ML-DSA
verification and the borsh decoder live outside the repository and are fields of `Primitives`.
-/

namespace Misaka.Dns

def STAKE_VALIDATOR_PUBKEY_LEN : ℕ := 2592

def STAKE_ATTESTATION_SIG_LEN : ℕ := 4627

def MAX_ATTESTATIONS_PER_SHARD : ℕ := 16

def DNS_PAYLOAD_VERSION_V1 : ℕ := 1

def domain (s : String) : Bytes := s.toUTF8.data.toList

def ATTESTATION_MLDSA87_CONTEXT : Bytes := domain "kaspa-pq-v1/att/mldsa87"
def ATTESTATION_MESSAGE_DOMAIN : Bytes := domain "kaspa-pq-v1/stake-attestation"
def UNBOND_REQUEST_CONTEXT : Bytes := domain "kaspa-pq-v1/unbond/mldsa87"
def UNBOND_REQUEST_MESSAGE_DOMAIN : Bytes := domain "kaspa-pq-v1/unbond-request"

structure StakeBondPayload where
  version : ℕ
  ownerPubkeyHash : Hash64
  validatorPubkeyHash : Hash64
  validatorPubkey : Bytes
  amount : ℕ
  activationDaaScore : ℕ
  unbondingPeriodBlocks : ℕ
  ownerRewardSpkPayload : Hash64
  deriving DecidableEq, Repr, Inhabited

structure StakeAttestation where
  version : ℕ
  validatorId : Hash64
  bondOutpoint : TransactionOutpoint
  epoch : ℕ
  targetHash : Hash64
  targetDaaScore : ℕ
  validatorSetCommitment : Hash64
  signature : Bytes
  deriving DecidableEq, Repr, Inhabited

structure StakeAttestationShardPayload where
  version : ℕ
  epoch : ℕ
  targetHash : Hash64
  targetDaaScore : ℕ
  validatorSetCommitment : Hash64
  attestations : List StakeAttestation
  deriving DecidableEq, Repr, Inhabited

structure SlashingEvidencePayload where
  version : ℕ
  bondOutpoint : TransactionOutpoint
  attestationA : StakeAttestation
  attestationB : StakeAttestation
  reporterRewardSpkPayload : Hash64
  deriving DecidableEq, Repr, Inhabited

structure StakeUnbondRequestPayload where
  version : ℕ
  bondOutpoint : TransactionOutpoint
  ownerPubkey : Bytes
  signature : Bytes
  deriving DecidableEq, Repr, Inhabited

structure Primitives where
  /-- `Transaction::id`, a digest of the transaction. -/
  transactionId : Transaction → TransactionId
  /-- `borsh::from_slice::<StakeBondPayload>`; `none` is any decode error. -/
  decodeStakeBond : Bytes → Option StakeBondPayload
  /-- `borsh::from_slice::<StakeAttestationShardPayload>`. -/
  decodeAttestationShardPayload : Bytes → Option StakeAttestationShardPayload
  /-- `borsh::from_slice::<SlashingEvidencePayload>`. -/
  decodeSlashingEvidence : Bytes → Option SlashingEvidencePayload
  /-- `borsh::from_slice::<StakeUnbondRequestPayload>`. -/
  decodeUnbondRequest : Bytes → Option StakeUnbondRequestPayload
  /-- BLAKE2b-256 under a key. -/
  blake2b256 : Bytes → Bytes → Bytes
  /-- Unkeyed BLAKE2b-512. -/
  blake2b512 : Bytes → Hash64
  /-- BLAKE2b-512 under a key. -/
  blake2b512Keyed : Bytes → Bytes → Hash64
  /-- `ml_dsa_87::portable::verify`: key, message, context, signature. -/
  mldsa87Verify : Bytes → Bytes → Bytes → Bytes → Bool

variable (P : Primitives)

def validatorIdFromPubkey (pubkey : Bytes) : Hash64 := P.blake2b512 pubkey

def stakeAttestationMessage (networkId : Bytes) (epoch : ℕ) (targetHash : Hash64)
    (targetDaaScore : ℕ) (validatorSetCommitment : Hash64) (bondOutpoint : TransactionOutpoint) :
    Bytes :=
  P.blake2b256 ATTESTATION_MESSAGE_DOMAIN
    (networkId ++ leBytes 8 epoch ++ hash64Bytes targetHash ++ leBytes 8 targetDaaScore ++
      hash64Bytes validatorSetCommitment ++ hash64Bytes bondOutpoint.transactionId ++
      leBytes 4 bondOutpoint.index)

def unbondRequestMessage (networkId : Bytes) (bondOutpoint : TransactionOutpoint) : Bytes :=
  P.blake2b256 UNBOND_REQUEST_MESSAGE_DOMAIN
    (networkId ++ hash64Bytes bondOutpoint.transactionId ++ leBytes 4 bondOutpoint.index)

/-- The two ways `verify_mldsa87_with_context` refuses its arguments. -/
inductive TxScriptError where
  | pubKeyFormat
  | sigLength (n : ℕ)
  deriving DecidableEq, Repr

def verifyMldsa87WithContext (publicKey message signature context : Bytes) :
    Except TxScriptError Bool :=
  if publicKey.length ≠ STAKE_VALIDATOR_PUBKEY_LEN then .error .pubKeyFormat
  else if signature.length ≠ STAKE_ATTESTATION_SIG_LEN then .error (.sigLength signature.length)
  else .ok (P.mldsa87Verify publicKey message context signature)

def p2pkhMldsa87Spk (ownerRewardSpkPayload : Hash64) : ScriptPublicKey :=
  ⟨0, [0x76, 0xc4, 0x40] ++ hash64Bytes ownerRewardSpkPayload ++ [0x88, 0xa6]⟩

inductive DnsTxKind where
  | stakeBond
  | stakeAttestationShard
  | slashingEvidence
  | stakeUnbond
  deriving DecidableEq, Repr

def dnsTxKind (subnetworkId : SubnetworkId) : Option DnsTxKind :=
  if subnetworkId = SUBNETWORK_ID_STAKE_BOND then some .stakeBond
  else if subnetworkId = SUBNETWORK_ID_STAKE_ATTESTATION_SHARD then some .stakeAttestationShard
  else if subnetworkId = SUBNETWORK_ID_SLASHING_EVIDENCE then some .slashingEvidence
  else if subnetworkId = SUBNETWORK_ID_STAKE_UNBOND then some .stakeUnbond
  else none

def stakeBondOf (tx : Transaction) : Option StakeBondPayload :=
  if dnsTxKind tx.subnetworkId = some .stakeBond then P.decodeStakeBond tx.payload else none

def slashingEvidenceOf (tx : Transaction) : Option SlashingEvidencePayload :=
  if dnsTxKind tx.subnetworkId = some .slashingEvidence then P.decodeSlashingEvidence tx.payload
  else none

def unbondRequestOf (tx : Transaction) : Option StakeUnbondRequestPayload :=
  if dnsTxKind tx.subnetworkId = some .stakeUnbond then P.decodeUnbondRequest tx.payload else none

def decodeAttestationShard (tx : Transaction) : Option StakeAttestationShardPayload :=
  if dnsTxKind tx.subnetworkId = some .stakeAttestationShard then
    P.decodeAttestationShardPayload tx.payload
  else none

def slashingEvidenceFromAcceptedTxs (txs : List Transaction) : List SlashingEvidencePayload :=
  txs.filterMap (slashingEvidenceOf P)

def unbondRequestsFromAcceptedTxs (txs : List Transaction) :
    List (TransactionId × StakeUnbondRequestPayload) :=
  txs.filterMap fun tx => (unbondRequestOf P tx).map fun req => (P.transactionId tx, req)

def attestationsFromAcceptedTxs (txs : List Transaction) : List StakeAttestation :=
  txs.flatMap fun tx => ((decodeAttestationShard P tx).map (·.attestations)).getD []

inductive DnsTxError where
  | decode
  | unsupportedVersion (version : ℕ)
  | zeroBondAmount
  | invalidPubKeyLen (n : ℕ)
  | validatorPubkeyHashMismatch
  | invalidSignatureLen (n : ℕ)
  | emptyShard
  | shardTooLarge (n : ℕ)
  | shardTupleMismatch
  | nonZeroValidatorSetCommitment
  | evidenceTripleMismatch
  | evidenceNotIncompatible
  | missingBondOutput
  | bondOutputValueMismatch (expected got : ℕ)
  | bondOutputScriptMismatch
  | slashingEvidenceHasOutputs (n : ℕ)
  deriving DecidableEq, Repr

def decodeDnsPayload {α : Type} (decoded : Option α) : Except DnsTxError α :=
  match decoded with
  | none => .error .decode
  | some a => .ok a

def checkAttestationWellformed (att : StakeAttestation) : Except DnsTxError Unit :=
  if att.version ≠ DNS_PAYLOAD_VERSION_V1 then .error (.unsupportedVersion att.version)
  else if att.signature.length ≠ STAKE_ATTESTATION_SIG_LEN then
    .error (.invalidSignatureLen att.signature.length)
  else if att.validatorSetCommitment ≠ 0 then .error .nonZeroValidatorSetCommitment
  else .ok ()

def decodeAndCheckStakeBondPayload (payload : Bytes) : Except DnsTxError StakeBondPayload := do
  let bond ← decodeDnsPayload (P.decodeStakeBond payload)
  if bond.version ≠ DNS_PAYLOAD_VERSION_V1 then .error (.unsupportedVersion bond.version)
  else if bond.amount = 0 then .error .zeroBondAmount
  else if bond.validatorPubkey.length ≠ STAKE_VALIDATOR_PUBKEY_LEN then
    .error (.invalidPubKeyLen bond.validatorPubkey.length)
  else if bond.validatorPubkeyHash ≠ validatorIdFromPubkey P bond.validatorPubkey then
    .error .validatorPubkeyHashMismatch
  else .ok bond

def validateStakeBondTx (payload : Bytes) (outputs : List TransactionOutput) :
    Except DnsTxError Unit := do
  let bond ← decodeAndCheckStakeBondPayload P payload
  match outputs with
  | [] => .error .missingBondOutput
  | output0 :: _ =>
    if output0.value ≠ bond.amount then .error (.bondOutputValueMismatch bond.amount output0.value)
    else if output0.scriptPublicKey ≠ p2pkhMldsa87Spk bond.ownerRewardSpkPayload then
      .error .bondOutputScriptMismatch
    else .ok ()

def validateStakeAttestationShardPayload (payload : Bytes) : Except DnsTxError Unit := do
  let shard ← decodeDnsPayload (P.decodeAttestationShardPayload payload)
  if shard.version ≠ DNS_PAYLOAD_VERSION_V1 then .error (.unsupportedVersion shard.version)
  else if shard.attestations = [] then .error .emptyShard
  else if shard.attestations.length > MAX_ATTESTATIONS_PER_SHARD then
    .error (.shardTooLarge shard.attestations.length)
  else shard.attestations.forM fun att => do
    checkAttestationWellformed att
    if att.epoch ≠ shard.epoch ∨ att.targetHash ≠ shard.targetHash ∨
        att.targetDaaScore ≠ shard.targetDaaScore ∨
        att.validatorSetCommitment ≠ shard.validatorSetCommitment then
      .error .shardTupleMismatch
    else .ok ()

/-- Two attestations of one bond and epoch, of different targets. -/
def validateSlashingEvidencePayload (payload : Bytes) : Except DnsTxError Unit := do
  let ev ← decodeDnsPayload (P.decodeSlashingEvidence payload)
  if ev.version ≠ DNS_PAYLOAD_VERSION_V1 then .error (.unsupportedVersion ev.version)
  else
    checkAttestationWellformed ev.attestationA
    checkAttestationWellformed ev.attestationB
    if ev.attestationA.bondOutpoint ≠ ev.bondOutpoint ∨
        ev.attestationB.bondOutpoint ≠ ev.bondOutpoint ∨
        ev.attestationA.validatorId ≠ ev.attestationB.validatorId ∨
        ev.attestationA.epoch ≠ ev.attestationB.epoch then
      .error .evidenceTripleMismatch
    else if ev.attestationA.targetHash = ev.attestationB.targetHash then
      .error .evidenceNotIncompatible
    else .ok ()

def validateSlashingEvidenceTx (payload : Bytes) (outputs : List TransactionOutput) :
    Except DnsTxError Unit := do
  validateSlashingEvidencePayload P payload
  if outputs ≠ [] then .error (.slashingEvidenceHasOutputs outputs.length) else .ok ()

def validateStakeUnbondPayload (payload : Bytes) : Except DnsTxError Unit := do
  let req ← decodeDnsPayload (P.decodeUnbondRequest payload)
  if req.version ≠ DNS_PAYLOAD_VERSION_V1 then .error (.unsupportedVersion req.version)
  else if req.ownerPubkey.length ≠ STAKE_VALIDATOR_PUBKEY_LEN then
    .error (.invalidPubKeyLen req.ownerPubkey.length)
  else if req.signature.length ≠ STAKE_ATTESTATION_SIG_LEN then
    .error (.invalidSignatureLen req.signature.length)
  else .ok ()

/-- The overlay branch of `check_transaction_subnetwork`. -/
def validateDnsOverlayTx (tx : Transaction) : Except DnsTxError Unit :=
  match dnsTxKind tx.subnetworkId with
  | some .stakeBond => validateStakeBondTx P tx.payload tx.outputs
  | some .stakeAttestationShard => validateStakeAttestationShardPayload P tx.payload
  | some .slashingEvidence => validateSlashingEvidenceTx P tx.payload tx.outputs
  | some .stakeUnbond => validateStakeUnbondPayload P tx.payload
  | none => .ok ()

/-- An attestation of `validator` for the given bond, target block and target score, signed by
`signer`. -/
def sampleAttestation (validator signer bond target targetDaa : UInt8) : StakeAttestation where
  version := DNS_PAYLOAD_VERSION_V1
  validatorId := validator.toNat
  bondOutpoint := ⟨bond.toNat, 0⟩
  epoch := 0
  targetHash := target.toNat
  targetDaaScore := targetDaa.toNat
  validatorSetCommitment := 0
  signature := List.replicate STAKE_ATTESTATION_SIG_LEN signer

def sampleEvidence (validator signer bond targetDaa : UInt8) : SlashingEvidencePayload where
  version := DNS_PAYLOAD_VERSION_V1
  bondOutpoint := ⟨bond.toNat, 0⟩
  attestationA := sampleAttestation validator signer bond 1 targetDaa
  attestationB := sampleAttestation validator signer bond 2 targetDaa
  reporterRewardSpkPayload := 0

/-- External functions small enough to evaluate: a transaction is named by its lock time, a payload
spells its fields byte by byte, a key is hashed to its first byte, and a signature verifies under
the key with the same first byte. -/
def samplePrimitives : Primitives where
  transactionId tx := tx.lockTime
  decodeStakeBond
    | [key, amount] => some
      { version := DNS_PAYLOAD_VERSION_V1
        ownerPubkeyHash := key.toNat
        validatorPubkeyHash := key.toNat
        validatorPubkey := List.replicate STAKE_VALIDATOR_PUBKEY_LEN key
        amount := amount.toNat
        activationDaaScore := 0
        unbondingPeriodBlocks := 0
        ownerRewardSpkPayload := key.toNat }
    | _ => none
  decodeAttestationShardPayload
    | [validator, signer, bond, target, targetDaa] => some
      { version := DNS_PAYLOAD_VERSION_V1
        epoch := 0
        targetHash := target.toNat
        targetDaaScore := targetDaa.toNat
        validatorSetCommitment := 0
        attestations := [sampleAttestation validator signer bond target targetDaa] }
    | _ => none
  decodeSlashingEvidence
    | [validator, signer, bond, targetDaa] => some (sampleEvidence validator signer bond targetDaa)
    | _ => none
  decodeUnbondRequest
    | [owner, signer, bond] => some
      { version := DNS_PAYLOAD_VERSION_V1
        bondOutpoint := ⟨bond.toNat, 0⟩
        ownerPubkey := List.replicate STAKE_VALIDATOR_PUBKEY_LEN owner
        signature := List.replicate STAKE_ATTESTATION_SIG_LEN signer }
    | _ => none
  blake2b256 _ message := message
  blake2b512 message := (message.headD 0).toNat
  blake2b512Keyed _ message := message.length
  mldsa87Verify key _ _ signature := key.headD 0 == signature.headD 0

def sampleOverlayTx (id : ℕ) (subnetworkId : SubnetworkId) (payload : Bytes) : Transaction where
  version := 0
  inputs := []
  outputs := []
  lockTime := id
  subnetworkId := subnetworkId
  gas := 0
  payload := payload
  mass := 0

def sampleBondTx (id : ℕ) (key amount : UInt8) : Transaction :=
  { sampleOverlayTx id SUBNETWORK_ID_STAKE_BOND [key, amount] with
    outputs := [⟨amount.toNat, p2pkhMldsa87Spk key.toNat⟩] }

def sampleEvidenceTx (id : ℕ) (validator signer bond targetDaa : UInt8) : Transaction :=
  sampleOverlayTx id SUBNETWORK_ID_SLASHING_EVIDENCE [validator, signer, bond, targetDaa]

end Misaka.Dns
