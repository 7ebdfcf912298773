import Misaka.Chain.Script
import Misaka.Dns.Slashing

/-!
# The UTXO side of the EVM bridge

A chain block may claim deposit locks and pay withdrawals (`consensus/src/processes/evm/mod.rs`).
The producer and the verifier share the rule for one claim; both then fold the same effects into the
UTXO multiset.
-/

namespace Misaka.Pipeline

open Misaka.Core Dns List

def MAX_DEPOSIT_CLAIMS_PER_EVM_BLOCK : ℕ := 256

def MAX_EVM_PAYLOAD_BYTES_PER_DAG_BLOCK : ℕ := 128 * 1024

def MAX_WITHDRAW_SCRIPT_BYTES : ℕ := 128

structure DepositClaim where
  depositOutpoint : TransactionOutpoint
  evmAddress : Bytes
  amountSompi : ℕ
  claimTipSompi : ℕ
  deriving DecidableEq, Repr

inductive DepositClaimValidationError where
  | absentOrSpent
  | notDepositLock
  | addressMismatch
  | amountMismatch
  | tipMismatch
  | tipExceedsAmount
  | refundWindowOpen
  deriving DecidableEq, Repr

def DepositClaimValidationError.isRetryable : DepositClaimValidationError → Bool
  | .absentOrSpent => true
  | _ => false

def validateOneDepositClaim (claim : DepositClaim) (entry : Option UtxoEntry) (povDaaScore : ℕ) :
    Except DepositClaimValidationError UtxoEntry :=
  match entry with
  | none => .error .absentOrSpent
  | some entry =>
    match parseEvmDepositLock entry.scriptPublicKey with
    | none => .error .notDepositLock
    | some lock =>
      if lock.evmAddress ≠ claim.evmAddress then .error .addressMismatch
      else if entry.amount ≠ claim.amountSompi then .error .amountMismatch
      else if lock.claimTipSompi ≠ claim.claimTipSompi then .error .tipMismatch
      else if claim.amountSompi < claim.claimTipSompi then .error .tipExceedsAmount
      else if lock.timeoutDaaScore ≤ povDaaScore then .error .refundWindowOpen
      else .ok entry

abbrev ConsumedLock := TransactionOutpoint × UtxoEntry

inductive DepositClaimsError where
  | duplicateOutpoint (op : ℕ) (o : TransactionOutpoint)
  | invalidClaim (op : ℕ) (o : TransactionOutpoint) (e : DepositClaimValidationError)
  deriving DecidableEq, Repr

def validateClaimsFrom (view : UtxoView) (povDaaScore : ℕ) :
    ℕ → List TransactionOutpoint → List DepositClaim → Except DepositClaimsError (List ConsumedLock)
  | _, _, [] => .ok []
  | i, seen, claim :: claims =>
    let o := claim.depositOutpoint
    if o ∈ seen then .error (.duplicateOutpoint i o)
    else
      match validateOneDepositClaim claim (view o) povDaaScore with
      | .error e => .error (.invalidClaim i o e)
      | .ok entry => do
        let rest ← validateClaimsFrom view povDaaScore (i + 1) (o :: seen) claims
        return (o, entry) :: rest

def validateEvmDepositClaims (claims : List DepositClaim) (view : UtxoView) (povDaaScore : ℕ) :
    Except DepositClaimsError (List ConsumedLock) :=
  validateClaimsFrom view povDaaScore 0 [] claims

inductive EvmClaimStaleKind where
  | absent
  | invalid
  deriving DecidableEq, Repr

structure PreparedDepositClaims where
  accepted : List DepositClaim
  consumedLocks : List ConsumedLock
  stale : List (TransactionOutpoint × EvmClaimStaleKind)
  deriving DecidableEq

/-- The loop of `prepare_deposit_claims`; `room` is what the cap leaves. -/
def prepareClaimsFrom (view : UtxoView) (povDaaScore : ℕ) :
    ℕ → List TransactionOutpoint → List DepositClaim → PreparedDepositClaims
  | _, _, [] => ⟨[], [], []⟩
  | room, seen, claim :: claims =>
    let o := claim.depositOutpoint
    if room = 0 then ⟨[], [], []⟩
    else if o ∈ seen then prepareClaimsFrom view povDaaScore room seen claims
    else
      match validateOneDepositClaim claim (view o) povDaaScore with
      | .ok entry =>
        let rest := prepareClaimsFrom view povDaaScore (room - 1) (o :: seen) claims
        ⟨claim :: rest.accepted, (o, entry) :: rest.consumedLocks, rest.stale⟩
      | .error e =>
        let rest := prepareClaimsFrom view povDaaScore room (o :: seen) claims
        { rest with stale := (o, if e.isRetryable then .absent else .invalid) :: rest.stale }

def prepareDepositClaims (claims : List DepositClaim) (view : UtxoView) (povDaaScore : ℕ) :
    PreparedDepositClaims :=
  prepareClaimsFrom view povDaaScore MAX_DEPOSIT_CLAIMS_PER_EVM_BLOCK [] claims

structure WithdrawOp where
  evmTxHash : Hash64
  opIndex : ℕ
  sender : Bytes
  amountSompi : ℕ
  scriptPublicKey : ScriptPublicKey
  deriving DecidableEq, Repr

structure EvmExecutionPayload where
  transactions : List Bytes
  systemOps : List DepositClaim
  evmCoinbase : Bytes
  deriving DecidableEq, Repr

structure EvmBlockEnv where
  timestamp : ℕ
  blueWork : ℕ
  daaScore : ℕ
  deriving DecidableEq, Repr

structure EvmExecutionResult where
  commitmentRoot : Hash64
  withdrawals : List WithdrawOp
  deriving DecidableEq, Repr

structure EvmLane where
  activationDaaScore : ℕ
  executeAcceptance : BlockHash → List BlockHash → EvmBlockEnv → EvmExecutionPayload →
    Except String EvmExecutionResult
  syntheticWithdrawalTxid : WithdrawOp → TransactionId
  /-- `admit_evm_payload_txs` of one transaction. -/
  admits : Bytes → Bool
  /-- `payload_bytes().len()`. -/
  payloadLen : EvmExecutionPayload → ℕ

inductive BridgeError where
  | consumeLock (o : TransactionOutpoint) (e : UtxoAlgebraError)
  | zeroAmount (op : WithdrawOp)
  | oversizedScript (op : WithdrawOp)
  | materialize (o : TransactionOutpoint) (e : UtxoAlgebraError)
  deriving DecidableEq, Repr

namespace EvmLane

variable (E : EvmLane)

def withdrawalOutpoint (w : WithdrawOp) : TransactionOutpoint := ⟨E.syntheticWithdrawalTxid w, 0⟩

def consumeLock (s : UtxoState) (lock : ConsumedLock) : Except BridgeError UtxoState := do
  let diff ← (s.mergesetDiff.removeEntry lock.1 lock.2).mapError (.consumeLock lock.1)
  return ⟨diff, s.multisetHash.removeUtxo lock.1 lock.2⟩

def materialize (povDaaScore : ℕ) (s : UtxoState) (w : WithdrawOp) :
    Except BridgeError UtxoState :=
  if w.amountSompi = 0 then .error (.zeroAmount w)
  else if MAX_WITHDRAW_SCRIPT_BYTES < w.scriptPublicKey.script.length then
    .error (.oversizedScript w)
  else
    (mintUtxo povDaaScore s (E.withdrawalOutpoint w) ⟨w.amountSompi, w.scriptPublicKey⟩).mapError
      (.materialize (E.withdrawalOutpoint w))

/-- Locks are consumed, withdrawals become outputs. -/
def applyEvmBridgeEffects (povDaaScore : ℕ) (locks : List ConsumedLock)
    (withdrawals : List WithdrawOp) (s : UtxoState) : Except BridgeError UtxoState := do
  let s ← locks.foldlM consumeLock s
  withdrawals.foldlM (E.materialize povDaaScore) s

end EvmLane

variable {claims : List DepositClaim} {seen : List TransactionOutpoint} {s s' : UtxoState}

section Claims

variable {view : UtxoView} {pov : ℕ}

structure ClaimOf (claim : DepositClaim) (entry : UtxoEntry) (povDaaScore : ℕ) : Prop where
  lock : ∃ lock, parseEvmDepositLock entry.scriptPublicKey = some lock ∧
    lock.evmAddress = claim.evmAddress ∧ lock.claimTipSompi = claim.claimTipSompi ∧
    povDaaScore < lock.timeoutDaaScore
  amount : entry.amount = claim.amountSompi
  tip : claim.claimTipSompi ≤ claim.amountSompi

theorem validateOneDepositClaim_eq_ok {claim : DepositClaim} {found : Option UtxoEntry}
    {entry : UtxoEntry} (h : validateOneDepositClaim claim found pov = .ok entry) :
    found = some entry ∧ ClaimOf claim entry pov := by
  unfold validateOneDepositClaim at h
  split at h
  · cases h
  · split at h
    · cases h
    · next lock hlock =>
      simp only [error_ite_eq_ok, not_not, Except.ok.injEq] at h
      obtain ⟨haddress, hamount, htip, hle, htimeout, rfl⟩ := h
      exact ⟨rfl, ⟨lock, hlock, haddress, htip, Nat.lt_of_not_le htimeout⟩, hamount,
        Nat.le_of_not_lt hle⟩

structure ClaimedLocks (view : UtxoView) (povDaaScore : ℕ) (locks : List ConsumedLock) : Prop where
  nodup : (locks.map Prod.fst).Nodup
  visible : ∀ l ∈ locks, view l.1 = some l.2
  claimable : ∀ l ∈ locks, ∃ lock, parseEvmDepositLock l.2.scriptPublicKey = some lock ∧
    povDaaScore < lock.timeoutDaaScore

theorem claimedLocks_of_validateClaimsFrom {i : ℕ} {locks : List ConsumedLock}
    (h : validateClaimsFrom view pov i seen claims = .ok locks) :
    ClaimedLocks view pov locks ∧ (∀ l ∈ locks, l.1 ∉ seen) ∧
      locks.map (·.2.amount) = claims.map (·.amountSompi) := by
  induction claims generalizing i seen locks with
  | nil =>
    cases h
    exact ⟨⟨nodup_nil, by simp, by simp⟩, by simp, rfl⟩
  | cons claim claims ih =>
    simp only [validateClaimsFrom] at h
    split at h
    · cases h
    · next hseen =>
      split at h
      · cases h
      · next entry hentry =>
        obtain ⟨rest, hrest, hlocks⟩ := bind_eq_ok.mp h
        cases hlocks
        obtain ⟨hview, hone⟩ := validateOneDepositClaim_eq_ok hentry
        obtain ⟨lock, hlock, -, -, htimeout⟩ := hone.lock
        obtain ⟨⟨hnd, hvis, hclaim⟩, hnew, hamounts⟩ := ih hrest
        refine ⟨⟨?_, ?_, ?_⟩, ?_, ?_⟩
        · rw [map_cons, nodup_cons]
          refine ⟨fun hmem => ?_, hnd⟩
          obtain ⟨l, hl, heq⟩ := mem_map.mp hmem
          exact hnew l hl (heq ▸ mem_cons_self)
        · exact forall_mem_cons.mpr ⟨hview, hvis⟩
        · exact forall_mem_cons.mpr ⟨⟨lock, hlock, htimeout⟩, hclaim⟩
        · exact forall_mem_cons.mpr ⟨hseen, fun l hl hs => hnew l hl (mem_cons_of_mem _ hs)⟩
        · rw [map_cons, map_cons, hamounts, hone.amount]

theorem claimedLocks_of_validate {locks : List ConsumedLock}
    (h : validateEvmDepositClaims claims view pov = .ok locks) :
    ClaimedLocks view pov locks :=
  (claimedLocks_of_validateClaimsFrom h).1

theorem validateClaimsFrom_prepareClaimsFrom (claims : List DepositClaim) {room i : ℕ}
    {seen' : List TransactionOutpoint} (hsub : seen' ⊆ seen) :
    validateClaimsFrom view pov i seen' (prepareClaimsFrom view pov room seen claims).accepted =
      .ok (prepareClaimsFrom view pov room seen claims).consumedLocks := by
  induction claims generalizing room i seen seen' with
  | nil => rfl
  | cons claim claims ih =>
    unfold prepareClaimsFrom
    dsimp only
    split
    · rfl
    · split
      · exact ih hsub
      · next hseen =>
        cases hone : validateOneDepositClaim claim (view claim.depositOutpoint) pov with
        | error e => exact ih fun o ho => mem_cons_of_mem _ (hsub ho)
        | ok entry =>
          simp only [validateClaimsFrom, hone]
          rw [if_neg fun h => hseen (hsub h), ih (cons_subset_cons _ hsub)]
          rfl

theorem validate_prepareDepositClaims (claims : List DepositClaim) :
    validateEvmDepositClaims (prepareDepositClaims claims view pov).accepted view pov =
      .ok (prepareDepositClaims claims view pov).consumedLocks :=
  validateClaimsFrom_prepareClaimsFrom claims (List.Subset.refl _)

end Claims

namespace EvmLane

variable {E : EvmLane} {pov : ℕ} {locks : List ConsumedLock} {ws : List WithdrawOp}

def withdrawalEntry (povDaaScore : ℕ) (w : WithdrawOp) : UtxoEntry :=
  ⟨w.amountSompi, w.scriptPublicKey, povDaaScore, false⟩

def bridgeMultiset (E : EvmLane) (povDaaScore : ℕ) (locks : List ConsumedLock)
    (ws : List WithdrawOp) (m : MuHash) : MuHash :=
  ws.foldl (fun m w => m.addUtxo (E.withdrawalOutpoint w) (withdrawalEntry povDaaScore w))
    (locks.foldl (fun m l => m.removeUtxo l.1 l.2) m)

theorem consumeLock_eq_ok {l : ConsumedLock} :
    consumeLock s l = .ok s' ↔ ∃ diff, s.mergesetDiff.removeEntry l.1 l.2 = .ok diff ∧
      s' = ⟨diff, s.multisetHash.removeUtxo l.1 l.2⟩ := by
  simp only [consumeLock, bind_eq_ok, mapError_eq_ok]
  exact exists_congr fun _ => and_congr_right fun _ => ⟨fun h => (Except.ok.inj h).symm,
    fun h => congrArg _ h.symm⟩

theorem materialize_eq_ok {w : WithdrawOp} :
    E.materialize pov s w = .ok s' ↔ w.amountSompi ≠ 0 ∧
      w.scriptPublicKey.script.length ≤ MAX_WITHDRAW_SCRIPT_BYTES ∧
      ∃ diff, s.mergesetDiff.addEntry (E.withdrawalOutpoint w) (withdrawalEntry pov w) =
        .ok diff ∧ s' = ⟨diff, s.multisetHash.addUtxo (E.withdrawalOutpoint w)
          (withdrawalEntry pov w)⟩ := by
  unfold materialize
  split
  · next h => simp [h]
  · next hamount =>
    split
    · next h => simp [Nat.not_le.mpr h]
    · next hsize =>
      simp only [mapError_eq_ok, mintUtxo, bind_eq_ok]
      constructor
      · rintro ⟨diff, hdiff, hs⟩
        exact ⟨hamount, Nat.le_of_not_lt hsize, diff, hdiff, (Except.ok.inj hs).symm⟩
      · rintro ⟨-, -, diff, hdiff, rfl⟩
        exact ⟨diff, hdiff, rfl⟩

theorem multiset_of_applyEvmBridgeEffects (h : E.applyEvmBridgeEffects pov locks ws s = .ok s') :
    s'.multisetHash = E.bridgeMultiset pov locks ws s.multisetHash := by
  obtain ⟨t, hlocks, hws⟩ := bind_eq_ok.mp h
  have hmid : t.multisetHash = locks.foldl (fun m l => m.removeUtxo l.1 l.2) s.multisetHash := by
    refine foldlM_sim_foldl (R := fun s m => s.multisetHash = m) ?_ rfl hlocks
    rintro s _ l s' rfl hs'
    obtain ⟨_, -, rfl⟩ := consumeLock_eq_ok.mp hs'
    rfl
  refine foldlM_sim_foldl (R := fun s m => s.multisetHash = m) ?_ hmid hws
  rintro s _ w s' rfl hs'
  obtain ⟨-, -, _, -, rfl⟩ := materialize_eq_ok.mp hs'
  rfl

structure FreshWithdrawals (E : EvmLane) (view : UtxoView) (ws : List WithdrawOp) : Prop where
  nodup : (ws.map E.withdrawalOutpoint).Nodup
  absent : ∀ w ∈ ws, view (E.withdrawalOutpoint w) = none

theorem foldlM_consumeLock {base : UtxoView}
    (hlocks : ClaimedLocks (compose base s.mergesetDiff) pov locks) :
    ∃ s', locks.foldlM consumeLock s = .ok s' ∧ ∀ o, o ∉ locks.map Prod.fst →
      compose base s'.mergesetDiff o = compose base s.mergesetDiff o ∧
      s'.mergesetDiff.add.lookup o = s.mergesetDiff.add.lookup o := by
  induction locks generalizing s with
  | nil => exact ⟨s, rfl, fun _ _ => ⟨rfl, rfl⟩⟩
  | cons l locks ih =>
    obtain ⟨hnew, hnd⟩ := nodup_cons.mp hlocks.nodup
    obtain ⟨diff, hdiff, hedit⟩ := UtxoDiff.removeEntry_of_compose (hlocks.visible l mem_cons_self)
    have hne {o : TransactionOutpoint} (ho : o ∈ locks.map Prod.fst) : o ≠ l.1 :=
      fun heq => hnew (heq ▸ ho)
    have hrest : ClaimedLocks (compose base diff) pov locks := by
      refine ⟨hnd, fun l' hl' => ?_, (forall_mem_cons.mp hlocks.claimable).2⟩
      rw [hedit.compose_eq l'.1 (hne (mem_map_of_mem hl'))]
      exact hlocks.visible l' (mem_cons_of_mem l hl')
    obtain ⟨s', hs', hsame⟩ := @ih ⟨diff, s.multisetHash.removeUtxo l.1 l.2⟩ hrest
    refine ⟨s', foldlM_cons_eq_ok.mpr ⟨_, consumeLock_eq_ok.mpr ⟨diff, hdiff, rfl⟩, hs'⟩,
      fun o ho => ?_⟩
    rw [map_cons, mem_cons, not_or] at ho
    obtain ⟨hc, ha⟩ := hsame o ho.2
    exact ⟨hc.trans (hedit.compose_eq o ho.1), ha.trans (hedit.add_eq o ho.1)⟩

theorem foldlM_materialize {base : UtxoView} {s : UtxoState}
    (hnd : (ws.map E.withdrawalOutpoint).Nodup)
    (hfree : ∀ w ∈ ws, s.mergesetDiff.add.lookup (E.withdrawalOutpoint w) = none)
    (hok : ∀ w ∈ ws, w.amountSompi ≠ 0 ∧
      w.scriptPublicKey.script.length ≤ MAX_WITHDRAW_SCRIPT_BYTES) :
    ∃ s', ws.foldlM (E.materialize pov) s = .ok s' ∧ ∀ o, o ∉ ws.map E.withdrawalOutpoint →
        compose base s'.mergesetDiff o = compose base s.mergesetDiff o := by
  induction ws generalizing s with
  | nil => exact ⟨s, rfl, fun _ _ => rfl⟩
  | cons w ws ih =>
    obtain ⟨hnew, hnd⟩ := nodup_cons.mp hnd
    obtain ⟨diff, hdiff, hedit⟩ := @UtxoDiff.addEntry_of_free base _ _
      (withdrawalEntry pov w) (hfree w mem_cons_self)
    obtain ⟨hamount, hsize⟩ := hok w mem_cons_self
    obtain ⟨s', hs', hsame⟩ := @ih ⟨diff, s.multisetHash.addUtxo (E.withdrawalOutpoint w)
      (withdrawalEntry pov w)⟩ hnd
      (fun w' hw' => (hedit.add_eq _ fun heq => hnew (heq ▸ mem_map_of_mem hw')).trans
        (hfree w' (mem_cons_of_mem w hw')))
      (forall_mem_cons.mp hok).2
    refine ⟨s', foldlM_cons_eq_ok.mpr
      ⟨_, materialize_eq_ok.mpr ⟨hamount, hsize, diff, hdiff, rfl⟩, hs'⟩, fun o ho => ?_⟩
    rw [map_cons, mem_cons, not_or] at ho
    exact (hsame o ho.2).trans (hedit.compose_eq o ho.1)

/-- Effects that go through on some state go through on every state that shows the claimed locks
and not the withdrawals, and touch nothing else there. -/
theorem applyEvmBridgeEffects_transfer {base : UtxoView} {s t t' : UtxoState}
    (hlocks : ClaimedLocks (compose base s.mergesetDiff) pov locks)
    (hfresh : FreshWithdrawals E (compose base s.mergesetDiff) ws)
    (h : E.applyEvmBridgeEffects pov locks ws t = .ok t') :
    ∃ s', E.applyEvmBridgeEffects pov locks ws s = .ok s' ∧
      ∀ o, o ∉ locks.map Prod.fst → o ∉ ws.map E.withdrawalOutpoint →
        compose base s'.mergesetDiff o = compose base s.mergesetDiff o := by
  obtain ⟨s₁, hs₁, hsame₁⟩ := foldlM_consumeLock hlocks
  have hadd (w : WithdrawOp) (hw : w ∈ ws) :
      s₁.mergesetDiff.add.lookup (E.withdrawalOutpoint w) = none := by
    have habsent := hfresh.absent w hw
    have hnot : E.withdrawalOutpoint w ∉ locks.map Prod.fst := fun hmem => by
      obtain ⟨l, hl, heq⟩ := mem_map.mp hmem
      have hvis := hlocks.visible l hl
      rw [heq, habsent] at hvis
      cases hvis
    rw [(hsame₁ _ hnot).2]
    unfold compose at habsent
    split at habsent
    · cases habsent
    · assumption
  have hok (w : WithdrawOp) (hw : w ∈ ws) : w.amountSompi ≠ 0 ∧
      w.scriptPublicKey.script.length ≤ MAX_WITHDRAW_SCRIPT_BYTES := by
    obtain ⟨t₁, -, hws⟩ := bind_eq_ok.mp h
    obtain ⟨u, u', hu⟩ := exists_step_of_foldlM hws hw
    obtain ⟨hamount, hsize, -⟩ := materialize_eq_ok.mp hu
    exact ⟨hamount, hsize⟩
  obtain ⟨s', hs', hsame⟩ := @foldlM_materialize E pov ws base s₁ hfresh.nodup hadd hok
  exact ⟨s', bind_eq_ok.mpr ⟨s₁, hs₁, hs'⟩,
    fun o ho ho' => (hsame o ho').trans (hsame₁ o ho).1⟩

end EvmLane

end Misaka.Pipeline
