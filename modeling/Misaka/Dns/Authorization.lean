import Misaka.Dns.BondView
import Misaka.Dns.Mutations
import Misaka.Dns.Params

/-!
# Own-body overlay rules

The rules `verify_expected_utxo_state` applies to the transactions in a block's own body, against
the bond view of its selected parent: attestations must be eligible, slashing evidence genuine,
bond outputs unspent until release, and unbond requests signed by the owner.
-/

namespace Misaka.Dns

open Misaka.Core List

inductive RuleError where
  | badUTXOCommitment (block : BlockHash) (header expected : Hash64)
  | badAcceptedIDMerkleRoot (block : BlockHash) (header expected : Hash64)
  | badOverlayCommitment (block : BlockHash) (header expected : Hash64)
  | badPalwBeaconSeed (block : BlockHash) (header expected : Hash64)
  | palwLaneHalted (block : BlockHash) (epoch degradedFor : ℕ)
  | ineligibleAttestationInBlock (bond : TransactionId) (epoch : ℕ)
  | missingMandatoryAttestationInBlock (epoch included expected floorBps : ℕ)
  | unverifiableSlashingEvidenceInBlock (bond : TransactionId)
  | nonReleasableBondSpendInBlock (tx : TransactionId) (bond : TransactionOutpoint)
  | unauthorizedUnbondRequestInBlock (tx : TransactionId) (bond : TransactionOutpoint)
  | badCoinbaseTransaction
  | wrongHeaderPruningPoint (expected header : BlockHash)
  | invalidTransactionsInUtxoContext (invalid total : ℕ)
  deriving DecidableEq, Repr

def BondStatus.isSlashable : BondStatus → Bool
  | .active | .unbonding => true
  | _ => false

def BondStatus.isUnbondable : BondStatus → Bool
  | .pending | .active => true
  | _ => false

variable (P : Primitives)

/-- Does a signature verify: `matches!(verify_mldsa87_with_context(..), Ok(true))`. -/
def signatureVerifies (publicKey message signature context : Bytes) : Bool :=
  match verifyMldsa87WithContext P publicKey message signature context with
  | .ok true => true
  | _ => false

def attestationVerifies (netId : BlockHash) (bond : StakeBondRecord) (att : StakeAttestation) :
    Bool :=
  signatureVerifies P bond.validatorPubkey
    (stakeAttestationMessage P (hash64Bytes netId) att.epoch att.targetHash att.targetDaaScore
      att.validatorSetCommitment att.bondOutpoint)
    att.signature ATTESTATION_MLDSA87_CONTEXT

inductive AttestationDropReason where
  | bondNotActiveAtTarget
  | validatorIdMismatch
  | badSignature
  | malformedPayload
  deriving DecidableEq, Repr

inductive AttestationShardDecision where
  | keepNonShard
  | keepEligible (attestationCount : ℕ)
  | drop (reason : AttestationDropReason) (bond : TransactionOutpoint) (epoch : ℕ)
  deriving DecidableEq, Repr

/-- Why an attestation earns nothing, if so. -/
def classifyOneAttestation (att : StakeAttestation) (bondView : ActiveBondView)
    (netId : BlockHash) : Except AttestationDropReason Unit :=
  match bondView.activeOrDormantBondAt att.bondOutpoint att.targetDaaScore with
  | none => .error .bondNotActiveAtTarget
  | some bond =>
    if att.validatorId ≠ bond.validatorPubkeyHash then .error .validatorIdMismatch
    else if attestationVerifies P netId bond att then .ok ()
    else .error .badSignature

def classifyAttestations (bondView : ActiveBondView) (netId : BlockHash) :
    List StakeAttestation → Option AttestationShardDecision
  | [] => none
  | att :: atts =>
    match classifyOneAttestation P att bondView netId with
    | .error reason => some (.drop reason att.bondOutpoint att.epoch)
    | .ok () => classifyAttestations bondView netId atts

def classifyAttestationShardForTemplate (tx : Transaction) (bondView : ActiveBondView)
    (netId : BlockHash) (activated : Bool) : AttestationShardDecision :=
  if !activated || tx.subnetworkId ≠ SUBNETWORK_ID_STAKE_ATTESTATION_SHARD then .keepNonShard
  else
    match decodeAttestationShard P tx with
    | none => .drop .malformedPayload ⟨P.transactionId tx, 0⟩ 0
    | some shard =>
      (classifyAttestations P bondView netId shard.attestations).getD
        (.keepEligible shard.attestations.length)

def attestationRewardEligibility (txs : List Transaction) (bondView : ActiveBondView)
    (netId : BlockHash) (activated : Bool) : Except (TransactionId × ℕ) Unit :=
  if !activated then .ok ()
  else (attestationsFromAcceptedTxs P txs).forM fun att =>
    match classifyOneAttestation P att bondView netId with
    | .error _ => .error (att.bondOutpoint.transactionId, att.epoch)
    | .ok () => .ok ()

def checkEquivocation (netId : BlockHash) (bond : StakeBondRecord) (att : StakeAttestation) :
    Bool :=
  att.validatorId == bond.validatorPubkeyHash &&
    (effectiveBondStatus bond att.targetDaaScore).isSlashable &&
    attestationVerifies P netId bond att

/-- Does one evidence pass the loop body of `slashing_evidence_genuine`; every failing branch
returns the bond's transaction id. -/
def evidenceGenuine (bondView : ActiveBondView) (netId : BlockHash)
    (includingDaa evidenceWindowBlocks : ℕ) (ev : SlashingEvidencePayload) : Bool :=
  match bondView.get ev.bondOutpoint with
  | none => false
  | some bond =>
    (effectiveBondStatus bond includingDaa).isSlashable &&
    decide (includingDaa - max ev.attestationA.targetDaaScore ev.attestationB.targetDaaScore ≤
      evidenceWindowBlocks) &&
    checkEquivocation P netId bond ev.attestationA && checkEquivocation P netId bond ev.attestationB

/-- All evidence of the block is genuine. -/
def slashingEvidenceGenuine (txs : List Transaction) (bondView : ActiveBondView)
    (netId : BlockHash) (includingDaa evidenceWindowBlocks : ℕ) (activated : Bool) :
    Except TransactionId Unit :=
  if !activated then .ok ()
  else (slashingEvidenceFromAcceptedTxs P txs).forM fun ev =>
    if evidenceGenuine P bondView netId includingDaa evidenceWindowBlocks ev then .ok ()
    else .error ev.bondOutpoint.transactionId

def isReleasable (bond : StakeBondRecord) (daaScore : ℕ) : Bool :=
  effectiveBondStatus bond daaScore == .unbonding &&
    (bondReleaseDaaScore bond).any (· ≤ daaScore)

/-- No transaction spends a bond that is not released. -/
def bondSpendGate (txs : List Transaction) (bondView : ActiveBondView) (daaScore : ℕ)
    (activated : Bool) : Except (TransactionId × TransactionOutpoint) Unit :=
  if !activated then .ok ()
  else txs.forM fun tx => tx.inputs.forM fun input =>
    match bondView.get input.previousOutpoint with
    | none => .ok ()
    | some bond =>
      if isReleasable bond daaScore then .ok ()
      else .error (P.transactionId tx, input.previousOutpoint)

/-- Does one request pass the loop body of `unbond_request_authorized`. -/
def unbondAuthorized (bondView : ActiveBondView) (netId : Bytes) (daaScore : ℕ)
    (req : StakeUnbondRequestPayload) : Bool :=
  match bondView.get req.bondOutpoint with
  | none => false
  | some bond =>
    (effectiveBondStatus bond daaScore).isUnbondable &&
    validatorIdFromPubkey P req.ownerPubkey == bond.ownerPubkeyHash &&
    signatureVerifies P req.ownerPubkey (unbondRequestMessage P netId req.bondOutpoint)
      req.signature UNBOND_REQUEST_CONTEXT

/-- All requests of the block are authorized. -/
def unbondRequestAuthorized (txs : List Transaction) (bondView : ActiveBondView)
    (netId : Bytes) (daaScore : ℕ) (activated : Bool) :
    Except (TransactionId × TransactionOutpoint) Unit :=
  if !activated then .ok ()
  else (unbondRequestsFromAcceptedTxs P txs).forM fun req =>
    if unbondAuthorized P bondView netId daaScore req.2 then .ok ()
    else .error (req.1, req.2.bondOutpoint)

variable (dnsParams : Option DnsParams) (genesisHash : BlockHash)

def overlayActivated (daaScore : ℕ) : Bool :=
  dnsParams.any (·.dnsActivationDaaScore ≤ daaScore)

def checkAttestationRewardEligibility (txs : List Transaction) (bondView : ActiveBondView)
    (daaScore : ℕ) : Except RuleError Unit :=
  (attestationRewardEligibility P txs bondView genesisHash
    (overlayActivated dnsParams daaScore)).mapError fun e =>
      .ineligibleAttestationInBlock e.1 e.2

def checkSlashingEvidenceGenuine (txs : List Transaction) (bondView : ActiveBondView)
    (daaScore : ℕ) : Except RuleError Unit :=
  match dnsParams with
  | none => .ok ()
  | some params =>
    (slashingEvidenceGenuine P txs bondView genesisHash daaScore params.evidenceWindowBlocks
      (params.dnsActivationDaaScore ≤ daaScore)).mapError .unverifiableSlashingEvidenceInBlock

def checkBondSpendGate (txs : List Transaction) (bondView : ActiveBondView)
    (daaScore : ℕ) : Except RuleError Unit :=
  (bondSpendGate P txs bondView daaScore (overlayActivated dnsParams daaScore)).mapError fun e =>
    .nonReleasableBondSpendInBlock e.1 e.2

def checkUnbondRequestAuthorized (txs : List Transaction) (bondView : ActiveBondView)
    (daaScore : ℕ) : Except RuleError Unit :=
  (unbondRequestAuthorized P txs bondView (hash64Bytes genesisHash) daaScore
    (overlayActivated dnsParams daaScore)).mapError fun e =>
      .unauthorizedUnbondRequestInBlock e.1 e.2

section Meaning

variable (params : DnsParams)

/-- Would a stamping transaction pass its own-body rule at the given point of view. Transactions
that ask for no stamp of this kind pass. -/
def stampAuthorized (bondView : ActiveBondView) (daaScore : ℕ) : StampKind → Transaction → Bool
  | .slash, tx => (slashingEvidenceOf P tx).all
      (evidenceGenuine P bondView genesisHash daaScore params.evidenceWindowBlocks)
  | .unbond, tx => (unbondRequestOf P tx).all
      (unbondAuthorized P bondView (hash64Bytes genesisHash) daaScore)

variable {P genesisHash params} {bondView : ActiveBondView} {daaScore : ℕ}
  {txs : List Transaction}

theorem checkSlashingEvidenceGenuine_eq_ok (hact : params.dnsActivationDaaScore ≤ daaScore) :
    checkSlashingEvidenceGenuine P (some params) genesisHash txs bondView daaScore = .ok () ↔
      ∀ tx ∈ txs, stampAuthorized P genesisHash params bondView daaScore .slash tx := by
  have hon : decide (params.dnsActivationDaaScore ≤ daaScore) = true := decide_eq_true hact
  simp only [checkSlashingEvidenceGenuine, slashingEvidenceGenuine, hon, mapError_eq_ok,
    Bool.not_true, Bool.false_eq_true, if_false, forM_ite_eq_ok, slashingEvidenceFromAcceptedTxs,
    mem_filterMap, forall_exists_index, and_imp, stampAuthorized, Option.all_eq_true]
  exact ⟨fun h tx htx ev hev => h ev tx htx hev, fun h ev tx htx hev => h tx htx ev hev⟩

theorem checkUnbondRequestAuthorized_eq_ok (hact : params.dnsActivationDaaScore ≤ daaScore) :
    checkUnbondRequestAuthorized P (some params) genesisHash txs bondView daaScore = .ok () ↔
      ∀ tx ∈ txs, stampAuthorized P genesisHash params bondView daaScore .unbond tx := by
  have hon : overlayActivated (some params) daaScore = true := decide_eq_true hact
  simp only [checkUnbondRequestAuthorized, unbondRequestAuthorized, hon, mapError_eq_ok,
    Bool.not_true, Bool.false_eq_true, if_false, forM_ite_eq_ok, unbondRequestsFromAcceptedTxs,
    mem_filterMap, Option.map_eq_some_iff, stampAuthorized, Option.all_eq_true]
  constructor
  · intro h tx htx req hreq
    exact h (P.transactionId tx, req) ⟨tx, htx, req, hreq, rfl⟩
  · rintro h _ ⟨tx, htx, req, hreq, rfl⟩
    exact h tx htx req hreq

theorem exists_bond_of_stampAuthorized {kind : StampKind} {tx : Transaction}
    {o : TransactionOutpoint}
    (hauth : stampAuthorized P genesisHash params bondView daaScore kind tx)
    (ho : stampTarget P kind tx = some o) :
    ∃ bond, bondView.get o = some bond ∧ ∀ d, bond.stamp kind = some d → daaScore < d := by
  cases kind with
  | slash =>
    obtain ⟨ev, hev, rfl⟩ := Option.map_eq_some_iff.mp ho
    have hgen := (Option.all_eq_true _ _).mp hauth ev hev
    unfold evidenceGenuine at hgen
    split at hgen
    · cases hgen
    · next bond hbond =>
      refine ⟨bond, hbond, fun d hd => ?_⟩
      by_contra hle
      -- a stamp in force makes the status `slashed`, which is not slashable
      have hstatus : effectiveBondStatus bond daaScore = .slashed := by
        simp [effectiveBondStatus, show bond.slashedAtDaaScore = some d from hd,
          Nat.le_of_not_lt hle]
      simp [hstatus, BondStatus.isSlashable] at hgen
  | unbond =>
    obtain ⟨req, hreq, rfl⟩ := Option.map_eq_some_iff.mp ho
    have hgen := (Option.all_eq_true _ _).mp hauth req hreq
    unfold unbondAuthorized at hgen
    split at hgen
    · cases hgen
    · next bond hbond =>
      refine ⟨bond, hbond, fun d hd => ?_⟩
      by_contra hle
      have hstatus : (effectiveBondStatus bond daaScore).isUnbondable = false := by
        simp only [effectiveBondStatus, show bond.unbondRequestDaaScore = some d from hd,
          Option.any_some, Nat.le_of_not_lt hle, decide_true, if_true]
        split <;> rfl
      simp [hstatus] at hgen

end Meaning

end Misaka.Dns
