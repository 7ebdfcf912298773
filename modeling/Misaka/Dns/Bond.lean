import Misaka.Dns.Payload

/-!
# Stake bonds and their mutations

A bond's lifecycle is kept as DAA stamps on its registry row; the status at a point of view is a
projection of the stamps. Accepted overlay transactions turn into `BondMutation`s, one list per
chain block (`bond_mutations_from_accepted_txs`).
-/

namespace Misaka.Dns

inductive BondStatus where
  | pending
  | active
  | unbonding
  | slashed
  | dormant
  deriving DecidableEq, Repr, Inhabited

structure StakeBondRecord where
  version : ℕ
  bondOutpoint : TransactionOutpoint
  ownerPubkeyHash : Hash64
  validatorPubkeyHash : Hash64
  validatorPubkey : Bytes
  amount : ℕ
  activationDaaScore : ℕ
  createdDaaScore : ℕ
  unbondingPeriodBlocks : ℕ
  ownerRewardSpkPayload : Hash64
  unbondRequestDaaScore : Option ℕ
  slashedAtDaaScore : Option ℕ
  status : BondStatus
  lastAttestedEpoch : Option ℕ
  dormantAtDaaScore : Option ℕ
  dormantAtEpoch : Option ℕ
  deriving DecidableEq, Repr, Inhabited

/-- The status at a point of view, by the stamps. -/
def effectiveBondStatus (record : StakeBondRecord) (povDaaScore : ℕ) : BondStatus :=
  if record.slashedAtDaaScore.any (· ≤ povDaaScore) then .slashed
  else if record.unbondRequestDaaScore.any (· ≤ povDaaScore) then .unbonding
  else if record.dormantAtDaaScore.any (· ≤ povDaaScore) then .dormant
  else if record.activationDaaScore ≤ povDaaScore then .active
  else .pending

def isBondActiveAt (record : StakeBondRecord) (povDaaScore : ℕ) : Bool :=
  effectiveBondStatus record povDaaScore == .active

def bondReleaseDaaScore (record : StakeBondRecord) : Option ℕ :=
  record.unbondRequestDaaScore.map fun u => min (u + record.unbondingPeriodBlocks) U64_MAX

def stakeBondRecordFromPayload (payload : StakeBondPayload) (bondOutpoint : TransactionOutpoint) :
    StakeBondRecord where
  version := payload.version
  bondOutpoint := bondOutpoint
  ownerPubkeyHash := payload.ownerPubkeyHash
  validatorPubkeyHash := payload.validatorPubkeyHash
  validatorPubkey := payload.validatorPubkey
  amount := payload.amount
  activationDaaScore := payload.activationDaaScore
  createdDaaScore := 0
  unbondingPeriodBlocks := payload.unbondingPeriodBlocks
  ownerRewardSpkPayload := payload.ownerRewardSpkPayload
  unbondRequestDaaScore := none
  slashedAtDaaScore := none
  status := .pending
  lastAttestedEpoch := none
  dormantAtDaaScore := none
  dormantAtEpoch := none

/-- The row an accepted bond starts with: activation is not retroactive and the exit lock is no
shorter than the network floor. -/
def acceptedBondRecord (payload : StakeBondPayload) (bondOutpoint : TransactionOutpoint)
    (acceptedDaaScore unbondingFloorBlocks : ℕ) : StakeBondRecord :=
  { stakeBondRecordFromPayload payload bondOutpoint with
    activationDaaScore := max payload.activationDaaScore acceptedDaaScore
    createdDaaScore := acceptedDaaScore
    unbondingPeriodBlocks := max payload.unbondingPeriodBlocks unbondingFloorBlocks }

inductive BondMutation where
  | insert (outpoint : TransactionOutpoint) (record : StakeBondRecord)
  | slash (outpoint : TransactionOutpoint) (daaScore : ℕ)
  | unbond (outpoint : TransactionOutpoint) (daaScore : ℕ)
  deriving DecidableEq, Repr

def BondMutation.outpoint : BondMutation → TransactionOutpoint
  | .insert o _ => o
  | .slash o _ => o
  | .unbond o _ => o

def StakeBondRecord.withStatusAt (record : StakeBondRecord) (povDaaScore : ℕ) : StakeBondRecord :=
  { record with status := effectiveBondStatus record povDaaScore }

def StakeBondRecord.stamps (record : StakeBondRecord) : StakeBondRecord :=
  { record with status := .pending }

inductive StampKind where
  | slash
  | unbond
  deriving DecidableEq, Repr

def StakeBondRecord.stamp (record : StakeBondRecord) : StampKind → Option ℕ
  | .slash => record.slashedAtDaaScore
  | .unbond => record.unbondRequestDaaScore

/-- Write or clear a stamp and refresh the cached status at `daaScore`. -/
def StakeBondRecord.setStamp (kind : StampKind) (value : Option ℕ) (daaScore : ℕ)
    (record : StakeBondRecord) : StakeBondRecord :=
  match kind with
  | .slash => { record with slashedAtDaaScore := value }.withStatusAt daaScore
  | .unbond => { record with unbondRequestDaaScore := value }.withStatusAt daaScore

@[simp] theorem stamp_stamps (record : StakeBondRecord) (kind : StampKind) :
    record.stamps.stamp kind = record.stamp kind := by
  cases kind <;> rfl

@[simp] theorem stamp_setStamp (record : StakeBondRecord) (kind : StampKind) (v : Option ℕ)
    (d : ℕ) : (record.setStamp kind v d).stamp kind = v := by
  cases kind <;> rfl

theorem stamp_setStamp_of_ne (record : StakeBondRecord) {kind kind' : StampKind}
    (hne : kind' ≠ kind) (v : Option ℕ) (d : ℕ) :
    (record.setStamp kind v d).stamp kind' = record.stamp kind' := by
  cases kind <;> cases kind' <;> first | rfl | exact absurd rfl hne

@[simp] theorem stamps_setStamp_stamps (record : StakeBondRecord) (kind : StampKind)
    (v : Option ℕ) (d : ℕ) :
    (record.stamps.setStamp kind v d).stamps = (record.setStamp kind v d).stamps := by
  cases kind <;> rfl

theorem stamps_setStamp_none {record : StakeBondRecord} {kind : StampKind} (v : Option ℕ)
    (d d' : ℕ) (h : record.stamp kind = none) :
    ((record.setStamp kind v d).setStamp kind none d').stamps = record.stamps := by
  cases kind with
  | slash =>
    rw [← h]
    rfl
  | unbond =>
    rw [← h]
    rfl

@[simp] theorem bondOutpoint_setStamp (record : StakeBondRecord) (kind : StampKind)
    (v : Option ℕ) (d : ℕ) : (record.setStamp kind v d).bondOutpoint = record.bondOutpoint := by
  cases kind <;> rfl

variable (P : Primitives)

/-- The mutation one accepted transaction contributes, given the bonds already slashed or unbonded
by an earlier transaction of the same block. -/
def bondMutationOf (acceptedDaaScore minBondAmountSompi unbondingFloorBlocks : ℕ)
    (seenSlashes seenUnbonds : List TransactionOutpoint) (tx : Transaction) :
    Option BondMutation :=
  match dnsTxKind tx.subnetworkId with
  | some .stakeBond =>
    match P.decodeStakeBond tx.payload with
    | none => none
    | some payload =>
      if payload.amount < minBondAmountSompi then none
      else
        let outpoint : TransactionOutpoint := ⟨P.transactionId tx, 0⟩
        some (.insert outpoint
          (acceptedBondRecord payload outpoint acceptedDaaScore unbondingFloorBlocks))
  | some .slashingEvidence =>
    match P.decodeSlashingEvidence tx.payload with
    | none => none
    | some payload =>
      if payload.bondOutpoint ∈ seenSlashes then none
      else some (.slash payload.bondOutpoint acceptedDaaScore)
  | some .stakeUnbond =>
    match P.decodeUnbondRequest tx.payload with
    | none => none
    | some req =>
      if req.bondOutpoint ∈ seenUnbonds then none
      else some (.unbond req.bondOutpoint acceptedDaaScore)
  | some .stakeAttestationShard => none
  | none => none

/-- The loop of `bond_mutations_from_accepted_txs`; `seenSlashes` and `seenUnbonds` are its two
hash sets. -/
def bondMutationsLoop (acceptedDaaScore minBondAmountSompi unbondingFloorBlocks : ℕ) :
    List TransactionOutpoint → List TransactionOutpoint → List Transaction → List BondMutation
  | _, _, [] => []
  | seenSlashes, seenUnbonds, tx :: txs =>
    match bondMutationOf P acceptedDaaScore minBondAmountSompi unbondingFloorBlocks
        seenSlashes seenUnbonds tx with
    | none =>
      bondMutationsLoop acceptedDaaScore minBondAmountSompi unbondingFloorBlocks
        seenSlashes seenUnbonds txs
    | some (.insert o r) =>
      .insert o r :: bondMutationsLoop acceptedDaaScore minBondAmountSompi unbondingFloorBlocks
        seenSlashes seenUnbonds txs
    | some (.slash o d) =>
      .slash o d :: bondMutationsLoop acceptedDaaScore minBondAmountSompi unbondingFloorBlocks
        (o :: seenSlashes) seenUnbonds txs
    | some (.unbond o d) =>
      .unbond o d :: bondMutationsLoop acceptedDaaScore minBondAmountSompi unbondingFloorBlocks
        seenSlashes (o :: seenUnbonds) txs

def bondMutationsFromAcceptedTxs (txs : List Transaction)
    (acceptedDaaScore minBondAmountSompi unbondingFloorBlocks : ℕ) : List BondMutation :=
  bondMutationsLoop P acceptedDaaScore minBondAmountSompi unbondingFloorBlocks [] [] txs

end Misaka.Dns
