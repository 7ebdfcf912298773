import Misaka.Core.Table
import Misaka.Palw.Payload

/-!
# Provider bonds

The collateral of a provider: the record an accepted bond transaction leaves, its status at a DAA
score, the mutations a chain block contributes, and the view of all bonds that is walked along a
chain. A status is always derived from the stamps.
-/

namespace Misaka.Palw

open Misaka.Core Dns

def PALW_PROVIDER_UNBOND_DOMAIN : Bytes := domain "misaka-palw-provider-unbond-v1"
def PALW_PROVIDER_UNBOND_MLDSA87_CONTEXT : Bytes := domain "PALWProviderUnbondV1"

inductive PalwProviderBondStatus where
  | pending
  | active
  | unbonding
  | slashed
  deriving DecidableEq, Repr

structure PalwProviderBondRecord where
  version : ℕ
  bondOutpoint : TransactionOutpoint
  ownerPubkeyHash : Hash64
  ownerPublicKey : Bytes
  operatorGroupId : Hash64
  runtimeClasses : List Hash64
  capacityByShape : List (ℕ × ℕ)
  rewardKeyRoot : Hash64
  amountSompi : ℕ
  activationDaaScore : ℕ
  createdDaaScore : ℕ
  unbondDelayEpochs : ℕ
  unbondRequestDaaScore : Option ℕ
  slashedAtDaaScore : Option ℕ
  deriving DecidableEq, Repr

inductive PalwProviderBondMutation where
  | insert (outpoint : TransactionOutpoint) (record : PalwProviderBondRecord)
  | unbond (outpoint : TransactionOutpoint) (daaScore : ℕ)
  | slash (outpoint : TransactionOutpoint) (daaScore : ℕ)
  deriving DecidableEq, Repr

def effectiveProviderBondStatus (record : PalwProviderBondRecord) (povDaaScore : ℕ) :
    PalwProviderBondStatus :=
  if record.slashedAtDaaScore.any (· ≤ povDaaScore) then .slashed
  else if record.unbondRequestDaaScore.any (· ≤ povDaaScore) then .unbonding
  else if record.activationDaaScore ≤ povDaaScore then .active
  else .pending

def saturatingAdd (a b : ℕ) : ℕ := min (a + b) U64_MAX

def saturatingMul (a b : ℕ) : ℕ := min (a * b) U64_MAX

def providerBondReleaseDaaScore (record : PalwProviderBondRecord) (epochLengthDaa : ℕ) : Option ℕ :=
  record.unbondRequestDaaScore.map fun u =>
    saturatingAdd u (saturatingMul record.unbondDelayEpochs (max epochLengthDaa 1))

def isProviderBondReleasableAt (record : PalwProviderBondRecord)
    (povDaaScore epochLengthDaa : ℕ) : Bool :=
  effectiveProviderBondStatus record povDaaScore == .unbonding &&
    (providerBondReleaseDaaScore record epochLengthDaa).any (· ≤ povDaaScore)

variable (P : PalwPrimitives)

def decodeProviderUnbondRequest (tx : Transaction) : Option PalwProviderUnbondRequestV1 :=
  match tx.subnetworkId.palwTxKind.bind PalwTxKind.fromSubnetworkByte with
  | some .providerUnbond => P.decodeProviderUnbond tx.payload
  | _ => none

def providerBondRecord (tx : Transaction) (payload : PalwProviderBondPayloadV1)
    (acceptedDaaScore unbondFloorEpochs : ℕ) : PalwProviderBondRecord where
  version := payload.version
  bondOutpoint := ⟨P.transactionId tx, 0⟩
  ownerPubkeyHash := validatorIdFromPubkey P.toPrimitives payload.ownerPublicKey
  ownerPublicKey := payload.ownerPublicKey
  operatorGroupId := payload.operatorGroupId
  runtimeClasses := payload.runtimeClasses
  capacityByShape := payload.capacityByShape
  rewardKeyRoot := payload.rewardKeyRoot
  amountSompi := payload.amountSompi
  activationDaaScore := acceptedDaaScore
  createdDaaScore := acceptedDaaScore
  unbondDelayEpochs := max payload.unbondDelayEpochs unbondFloorEpochs
  unbondRequestDaaScore := none
  slashedAtDaaScore := none

/-- The bond a transaction declares, unless it is below the floor. -/
def declaredProviderBond (tx : Transaction) (minProviderBondSompi : ℕ) :
    Option PalwProviderBondPayloadV1 :=
  match tx.subnetworkId.palwTxKind.bind PalwTxKind.fromSubnetworkByte with
  | some .providerBond =>
    (P.decodeProviderBond tx.payload).filter fun payload =>
      minProviderBondSompi ≤ payload.amountSompi
  | _ => none

/-- The loop of `palw_provider_bond_mutations_from_accepted_txs`, over the bonds whose unbond
request has been seen. -/
def providerBondMutations (acceptedDaaScore minProviderBondSompi unbondFloorEpochs : ℕ) :
    List TransactionOutpoint → List Transaction → List PalwProviderBondMutation
  | _, [] => []
  | seenUnbonds, tx :: txs =>
    match declaredProviderBond P tx minProviderBondSompi with
    | some payload =>
      .insert ⟨P.transactionId tx, 0⟩
          (providerBondRecord P tx payload acceptedDaaScore unbondFloorEpochs) ::
        providerBondMutations acceptedDaaScore minProviderBondSompi unbondFloorEpochs seenUnbonds
          txs
    | none =>
      match decodeProviderUnbondRequest P tx with
      | none =>
        providerBondMutations acceptedDaaScore minProviderBondSompi unbondFloorEpochs seenUnbonds
          txs
      | some req =>
        if seenUnbonds.contains req.bondOutpoint then
          providerBondMutations acceptedDaaScore minProviderBondSompi unbondFloorEpochs seenUnbonds
            txs
        else
          .unbond req.bondOutpoint acceptedDaaScore ::
            providerBondMutations acceptedDaaScore minProviderBondSompi unbondFloorEpochs
              (req.bondOutpoint :: seenUnbonds) txs

def palwProviderBondMutationsFromAcceptedTxs (txs : List Transaction)
    (acceptedDaaScore minProviderBondSompi unbondFloorEpochs : ℕ) : List PalwProviderBondMutation :=
  providerBondMutations P acceptedDaaScore minProviderBondSompi unbondFloorEpochs [] txs

abbrev ProviderBondView := Table TransactionOutpoint PalwProviderBondRecord

namespace ProviderBondView

/-- One mutation of `ProviderBondView::apply`: a missing row is skipped, an insertion overwrites. -/
def applyOne (view : ProviderBondView) : PalwProviderBondMutation → ProviderBondView
  | .insert o record => view.insert o record
  | .unbond o daa => view.adjust o fun record => { record with unbondRequestDaaScore := some daa }
  | .slash o daa => view.adjust o fun record => { record with slashedAtDaaScore := some daa }

def apply (view : ProviderBondView) (mutations : List PalwProviderBondMutation) :
    ProviderBondView :=
  mutations.foldl applyOne view

end ProviderBondView

def PalwProviderUnbondRequestV1.signingHash (req : PalwProviderUnbondRequestV1) (networkId : ℕ) :
    Hash64 :=
  P.blake2b512Keyed PALW_PROVIDER_UNBOND_DOMAIN
    (leBytes 4 networkId ++ leBytes 2 req.version ++ outpointBytes req.bondOutpoint ++
      varBytes req.ownerPublicKey)

/-- `verify_mldsa87_with_context` gave `Ok(true)`. -/
def signedWith (publicKey message signature context : Bytes) : Bool :=
  verifyMldsa87WithContext P.toPrimitives publicKey message signature context matches .ok true

/-- Signed by the owner of a pending or active bond. -/
def palwProviderUnbondRequestAuthorized (req : PalwProviderUnbondRequestV1)
    (bondView : ProviderBondView) (networkId povDaaScore : ℕ) : Bool :=
  match bondView.lookup req.bondOutpoint with
  | none => false
  | some record =>
    (effectiveProviderBondStatus record povDaaScore == .pending ||
      effectiveProviderBondStatus record povDaaScore == .active) &&
    validatorIdFromPubkey P.toPrimitives req.ownerPublicKey == record.ownerPubkeyHash &&
    signedWith P req.ownerPublicKey (hash64Bytes (req.signingHash P networkId)) req.signature
      PALW_PROVIDER_UNBOND_MLDSA87_CONTEXT

end Misaka.Palw
