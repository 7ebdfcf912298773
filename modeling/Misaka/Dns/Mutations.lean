import Misaka.Core.FirstBy
import Misaka.Dns.Bond

/-!
# What a block's mutations say about its transactions

Every mutation of a block can be traced to a transaction it accepts, and no bond is stamped twice
by one block. These facts are read off the loop of `bond_mutations_from_accepted_txs` once, so that
later arguments never unfold it.
-/

namespace Misaka.Dns

open Misaka.Core List Option

variable (P : Primitives)

def stampTarget : StampKind → Transaction → Option TransactionOutpoint
  | .slash, tx => (slashingEvidenceOf P tx).map (·.bondOutpoint)
  | .unbond, tx => (unbondRequestOf P tx).map (·.bondOutpoint)

def BondMutation.stamped : StampKind → BondMutation → Option (TransactionOutpoint × ℕ)
  | .slash, .slash o d => some (o, d)
  | .unbond, .unbond o d => some (o, d)
  | _, _ => none

def BondMutation.inserted : BondMutation → Option TransactionOutpoint
  | .insert o _ => some o
  | _ => none

/-- The outpoint a `StakeBond` transaction creates a row at, given the minimum stake. -/
def insertTarget (minBond : ℕ) (tx : Transaction) : Option TransactionOutpoint :=
  match stakeBondOf P tx with
  | none => none
  | some payload => if payload.amount < minBond then none else some ⟨P.transactionId tx, 0⟩

variable {txs : List Transaction} {m : BondMutation}

section Loop

variable {P} {daa minBond floor : ℕ} {seenS seenU : List TransactionOutpoint} {tx : Transaction}

theorem bondMutationOf_cases (m : BondMutation)
    (h : bondMutationOf P daa minBond floor seenS seenU tx = some m) :
    (∃ payload, m = .insert ⟨P.transactionId tx, 0⟩
      (acceptedBondRecord payload ⟨P.transactionId tx, 0⟩ daa floor)) ∨
    (∃ o, m = .slash o daa) ∨ ∃ o, m = .unbond o daa := by
  unfold bondMutationOf at h
  split at h
  · split at h
    · cases h
    · next payload _ =>
      split at h <;> cases h
      exact .inl ⟨payload, rfl⟩
  · split at h
    · cases h
    · split at h <;> cases h
      exact .inr (.inl ⟨_, rfl⟩)
  · split at h
    · cases h
    · split at h <;> cases h
      exact .inr (.inr ⟨_, rfl⟩)
  all_goals cases h

def seenBonds (seenSlashes seenUnbonds : List TransactionOutpoint) :
    StampKind → List TransactionOutpoint
  | .slash => seenSlashes
  | .unbond => seenUnbonds

theorem inserted_bondMutationOf :
    (bondMutationOf P daa minBond floor seenS seenU tx).bind BondMutation.inserted =
      insertTarget P minBond tx := by
  unfold bondMutationOf insertTarget stakeBondOf
  split
  · next hk =>
    rw [if_pos hk]
    cases P.decodeStakeBond tx.payload with
    | none => rfl
    | some payload =>
      dsimp only
      split <;> rfl
  all_goals
    next hk =>
    rw [if_neg (by simp [hk])]
    dsimp only
    repeat' split
    all_goals rfl

/-- The stamp one transaction writes: its target, unless an earlier transaction stamped it. -/
theorem stamped_bondMutationOf (kind : StampKind) :
    (bondMutationOf P daa minBond floor seenS seenU tx).bind (BondMutation.stamped kind) =
      ((stampTarget P kind tx).filter (· ∉ seenBonds seenS seenU kind)).map (·, daa) := by
  unfold bondMutationOf
  split
  · next hk =>
    cases kind <;> simp only [stampTarget, slashingEvidenceOf, unbondRequestOf, hk] <;> split
      <;> first | rfl | (split <;> rfl)
  · next hk =>
    cases kind with
    | slash =>
      simp only [stampTarget, slashingEvidenceOf, hk]
      cases P.decodeSlashingEvidence tx.payload with
      | none => rfl
      | some ev =>
        by_cases hseen : ev.bondOutpoint ∈ seenS <;>
          simp [hseen, seenBonds, Option.filter, BondMutation.stamped]
    | unbond =>
      simp only [stampTarget, unbondRequestOf, hk]
      split
      · rfl
      · split <;> rfl
  · next hk =>
    cases kind with
    | slash =>
      simp only [stampTarget, slashingEvidenceOf, hk]
      split
      · rfl
      · split <;> rfl
    | unbond =>
      simp only [stampTarget, unbondRequestOf, hk]
      cases P.decodeUnbondRequest tx.payload with
      | none => rfl
      | some req =>
        by_cases hseen : req.bondOutpoint ∈ seenU <;>
          simp [hseen, seenBonds, Option.filter, BondMutation.stamped]
  all_goals next hk => cases kind <;> simp [stampTarget, slashingEvidenceOf, unbondRequestOf, hk]

theorem inserted_bondMutationsLoop (txs : List Transaction) :
    (bondMutationsLoop P daa minBond floor seenS seenU txs).filterMap BondMutation.inserted =
      txs.filterMap (insertTarget P minBond) := by
  induction txs generalizing seenS seenU with
  | nil => rfl
  | cons tx txs ih =>
    have htx := @inserted_bondMutationOf P daa minBond floor seenS seenU tx
    rw [filterMap_cons]
    unfold bondMutationsLoop
    cases hm : bondMutationOf P daa minBond floor seenS seenU tx with
    | none =>
      rw [hm] at htx
      simp only [← htx, bind_none, ih]
    | some m =>
      rw [hm, bind_some] at htx
      cases m <;> simp only [← htx, filterMap_cons, BondMutation.inserted, ih]

theorem stamped_bondMutationsLoop (kind : StampKind) (txs : List Transaction) :
    (bondMutationsLoop P daa minBond floor seenS seenU txs).filterMap
        (BondMutation.stamped kind) =
      (firstBy id (seenBonds seenS seenU kind) (txs.filterMap (stampTarget P kind))).map
        (·, daa) := by
  induction txs generalizing seenS seenU with
  | nil => rfl
  | cons tx txs ih =>
    have htx := @stamped_bondMutationOf P daa minBond floor seenS seenU tx kind
    rw [firstBy_filterMap_cons]
    generalize (stampTarget P kind tx).filter (· ∉ seenBonds seenS seenU kind) = target at htx ⊢
    unfold bondMutationsLoop
    cases hm : bondMutationOf P daa minBond floor seenS seenU tx with
    | none =>
      rw [hm] at htx
      obtain rfl := map_eq_none_iff.mp htx.symm
      exact ih
    | some m =>
      rw [hm, bind_some] at htx
      cases target with
      | none => cases m <;> cases kind <;> first | exact ih | cases htx
      | some o =>
        cases m <;> cases kind <;> cases htx
        all_goals exact congrArg ((o, daa) :: ·) ih

theorem exists_of_mem_bondMutationsLoop
    (h : m ∈ bondMutationsLoop P daa minBond floor seenS seenU txs) :
    ∃ tx sS sU, bondMutationOf P daa minBond floor sS sU tx = some m := by
  induction txs generalizing seenS seenU with
  | nil => cases h
  | cons tx txs ih =>
    unfold bondMutationsLoop at h
    split at h
    · exact ih h
    all_goals
      next heq =>
      rcases mem_cons.mp h with rfl | h
      · exact ⟨tx, _, _, heq⟩
      · exact ih h

end Loop

def BondMutation.WellKeyed : BondMutation → Prop
  | .insert o r => r.bondOutpoint = o
  | _ => True

theorem wellKeyed_bondMutations {daa minBond floor : ℕ}
    (h : m ∈ bondMutationsFromAcceptedTxs P txs daa minBond floor) : m.WellKeyed := by
  obtain ⟨tx, sS, sU, hm⟩ := exists_of_mem_bondMutationsLoop h
  obtain ⟨payload, rfl⟩ | ⟨o, rfl⟩ | ⟨o, rfl⟩ := bondMutationOf_cases m hm
  · rfl
  · trivial
  · trivial

structure AcceptedBlock where
  hash : BlockHash
  daaScore : ℕ
  accepted : List Transaction

def AcceptedBlock.mutations (minBond unbondingFloor : ℕ) (b : AcceptedBlock) :
    BlockHash × List BondMutation :=
  (b.hash, bondMutationsFromAcceptedTxs P b.accepted b.daaScore minBond unbondingFloor)

end Misaka.Dns
