import Mathlib.Algebra.BigOperators.Ring.List
import Misaka.Evm.Executor

/-!
# The EVM bridge conserves value

Deposit claims, tips, escrow burns, the header's accumulator and the effects on the UTXO set are
computed apart. Here they are added up along a chain from the empty state. A skipped candidate has
no part in it.
-/

namespace Misaka.Evm

open Misaka.Core Pipeline Dns List

/-! ## Balances -/

variable {coinbase : EvmAddress} {cand : AcceptedTxCandidate} {s' : LaneEffects}
  {result : ExecutionResult}

section Balances

variable {db db' : CacheDb} {address : EvmAddress} {amount : ℕ} {e : InvariantViolation}

theorem loadAccount_balance (db : CacheDb) (address : EvmAddress) :
    (loadAccount db address).balance = (db.lookup address).elim 0 DbAccount.balance := by
  unfold loadAccount
  cases db.lookup address <;> rfl

theorem total_setBalance (db : CacheDb) (address : EvmAddress) (balance : ℕ) :
    totalBalance (db.insert address ((loadAccount db address).setBalance balance)) +
      (loadAccount db address).balance = totalBalance db + balance := by
  rw [loadAccount_balance]
  exact Table.sum_values_insert db address _ DbAccount.balance

theorem total_addBalance (h : addBalance db address amount e = .ok db') :
    totalBalance db' = totalBalance db + amount := by
  simp only [addBalance] at h
  split_ifs at h
  cases h
  have hset := total_setBalance db address ((loadAccount db address).balance + amount)
  omega

theorem total_subBalance (h : subBalance db address amount e = .ok db') :
    totalBalance db' + amount = totalBalance db := by
  simp only [subBalance] at h
  split_ifs at h with hle
  cases h
  have hset := total_setBalance db address ((loadAccount db address).balance - amount)
  omega

theorem total_rerouteBalance {sender receiver : EvmAddress}
    (h : rerouteBalance db sender receiver amount = .ok db') :
    totalBalance db' = totalBalance db := by
  obtain ⟨mid, hsub, hadd⟩ := bind_eq_ok.mp h
  have hout := total_subBalance hsub
  have hin := total_addBalance hadd
  omega

theorem total_rerouteTip {accepting payload : EvmAddress} {tip : ℕ}
    (h : rerouteTip db accepting payload tip = .ok db') : totalBalance db' = totalBalance db := by
  unfold rerouteTip at h
  split at h
  · exact total_rerouteBalance h
  · cases h
    rfl

theorem total_burnEscrow {withdrawnWei : ℕ} (h : burnEscrow db withdrawnWei = .ok db') :
    totalBalance db' + withdrawnWei = totalBalance db := by
  unfold burnEscrow at h
  split at h
  · exact total_subBalance h
  · cases h
    omega

theorem total_creditTip {tipWei : ℕ} (h : creditTip db coinbase tipWei = .ok db') :
    totalBalance db' = totalBalance db + tipWei := by
  unfold creditTip at h
  split at h
  · next hzero =>
    cases h
    rw [hzero, add_zero]
  · exact total_addBalance h

end Balances

/-! ## Claims -/

def claimedSompi (claims : List DepositClaim) : ℕ := (claims.map (·.amountSompi)).sum

theorem total_applyDepositClaim {s s' : ClaimEffects} {claim : DepositClaim}
    (h : applyDepositClaim coinbase s claim = .ok s') :
    totalBalance s'.db = totalBalance s.db + EVM_NATIVE_SCALE * claim.amountSompi ∧
      s'.applied = s.applied ++ [claim] := by
  simp only [applyDepositClaim, bind_eq_ok] at h
  obtain ⟨db, hcredit, db', htip, hs'⟩ := h
  cases hs'
  refine ⟨?_, rfl⟩
  have hin := total_addBalance hcredit
  have hin' := total_creditTip htip
  have hsplit : (claim.amountSompi - min claim.claimTipSompi claim.amountSompi) * EVM_NATIVE_SCALE +
      min claim.claimTipSompi claim.amountSompi * EVM_NATIVE_SCALE =
        EVM_NATIVE_SCALE * claim.amountSompi := by
    rw [← Nat.add_mul, Nat.sub_add_cancel (Nat.min_le_right _ _), Nat.mul_comm]
  simp only
  omega

variable {claims : List DepositClaim} {tx : TxEnv} {plan : Except ℕ TxEnv} {budget pov : ℕ}
  {cands : List AcceptedTxCandidate}

theorem total_applyDepositClaims {s s' : ClaimEffects}
    (h : claims.foldlM (applyDepositClaim coinbase) s = .ok s') :
    totalBalance s'.db = totalBalance s.db + EVM_NATIVE_SCALE * claimedSompi claims ∧
      s'.applied = s.applied ++ claims := by
  induction claims generalizing s with
  | nil =>
    cases h
    simp [claimedSompi]
  | cons claim claims ih =>
    obtain ⟨t, hclaim, hrest⟩ := foldlM_cons_eq_ok.mp h
    obtain ⟨htotal, happlied⟩ := total_applyDepositClaim hclaim
    obtain ⟨htotal', happlied'⟩ := ih hrest
    rw [htotal', htotal, happlied', happlied, append_assoc, claimedSompi, claimedSompi,
      map_cons, sum_cons, Nat.mul_add]
    exact ⟨by omega, rfl⟩

/-! ## One accepted candidate -/

variable {M : Revm}

/-- What `revm` is taken to do with one transaction: balances move, and only the base fee of the gas
used leaves. -/
def Revm.Conserves (M : Revm) : Prop :=
  ∀ env f003Active db tx result db', M.transact env f003Active db tx = .ok (result, db') →
    totalBalance db' + env.baseFeePerGas * result.gasUsed = totalBalance db

theorem scale_mul_amount {w : DecodedWithdraw} {log : Log} (h : decodeWithdrawLog M log = some w) :
    EVM_NATIVE_SCALE * (w.amountWei / EVM_NATIVE_SCALE) = w.amountWei := by
  unfold decodeWithdrawLog at h
  split at h
  · cases h
  · split at h
    · cases h
    · simp only at h
      split at h
      · cases h
      · split at h
        · cases h
        · next hinv =>
          cases h
          simp only [withdrawInvariantsHold, check_bind_eq_ok, failIf_eq_ok,
            decide_eq_false_iff_not, not_not] at hinv
          exact Nat.mul_div_cancel' (Nat.dvd_of_mod_eq_zero hinv.2.1)

theorem scale_mul_withdrawOps (receiptIndex : ℕ) (evmTxHash : EvmH256) (result : ExecutionResult) :
    EVM_NATIVE_SCALE *
        ((withdrawOps M receiptIndex evmTxHash result).map (·.amountSompi)).sum =
      ((decodedWithdraws M result).map (·.amountWei)).sum := by
  have hamounts : (withdrawOps M receiptIndex evmTxHash result).map (·.amountSompi) =
      (decodedWithdraws M result).map (·.amountWei / EVM_NATIVE_SCALE) := by
    refine ext_getElem (by simp [withdrawOps]) fun i _ _ => ?_
    simp [withdrawOps]
  rw [hamounts, ← sum_map_mul_left]
  refine congrArg List.sum (map_congr_left fun w hw => ?_)
  obtain ⟨log, -, hlog⟩ := mem_filterMap.mp hw
  exact scale_mul_amount hlog

structure LaneInv (basefee total : ℕ) (s : LaneEffects) : Prop where
  conserved : totalBalance s.db + s.burnThisBlock +
    EVM_NATIVE_SCALE * (s.withdrawals.map (·.amountSompi)).sum = total
  burned : s.burnThisBlock = basefee * (s.receipts.map (·.gasUsed)).sum

theorem LaneInv.commitTx {env : EvmDerivedEnv} {s : LaneEffects} {db : CacheDb} {total : ℕ}
    (h : LaneInv env.baseFeePerGas total s) (hfit : total < U128_MAX)
    (hdb : totalBalance db + env.baseFeePerGas * result.gasUsed = totalBalance s.db)
    (hs' : commitTx M env cand tx s result db = .ok s') : LaneInv env.baseFeePerGas total s' := by
  simp only [Evm.commitTx, bind_eq_ok] at hs'
  obtain ⟨burned, hburn, db₁, htip, db₂, hescrow, hs'⟩ := hs'
  cases hs'
  have hburned : burned = s.burnThisBlock + env.baseFeePerGas * result.gasUsed :=
    (Except.ok.inj (error_ite_eq_ok.mp hburn).2).symm
  have htip := total_rerouteTip htip
  have hescrow := total_burnEscrow hescrow
  have hops :=
    scale_mul_withdrawOps (M := M) (s.receipts.length % 2 ^ 32) (M.txHash cand.raw) result
  have hconserved := h.conserved
  rw [satSum_eq] at hescrow
  -- a saturated sum would exceed the balances of the lane
  rw [min_eq_left (by omega)] at hescrow
  constructor
  · simp only [map_append, sum_append, Nat.mul_add]
    omega
  · simp only [map_append, sum_append, map_cons, map_nil, sum_cons,
      sum_nil, add_zero, Nat.mul_add, hburned, h.burned]

def applyCandidate (M : Revm) (env : EvmDerivedEnv) (f003Active : Bool) (s : LaneEffects)
    (cand : AcceptedTxCandidate) : Except EvmExecError LaneEffects :=
  match M.decodeTxToEnv cand.raw with
  | .error e => .error (.invalidTx e)
  | .ok tx =>
    match M.transact env f003Active s.db tx with
    | .error (.transaction e) | .error (.other e) => .error (.invalidTx e)
    | .ok (result, db) => Evm.commitTx M env cand tx s result db

theorem applyCandidate_eq_ok {env : EvmDerivedEnv} {f003Active : Bool} {s : LaneEffects}
    (h : applyCandidate M env f003Active s cand = .ok s') :
    ∃ tx result db, M.transact env f003Active s.db tx = .ok (result, db) ∧
      commitTx M env cand tx s result db = .ok s' := by
  unfold applyCandidate at h
  split at h
  · cases h
  · split at h
    · cases h
    · cases h
    · next hrun => exact ⟨_, _, _, hrun, h⟩

theorem LaneInv.applyCandidate {env : EvmDerivedEnv} {f003Active : Bool} {s : LaneEffects}
    {total : ℕ} (hM : M.Conserves) (h : LaneInv env.baseFeePerGas total s) (hfit : total < U128_MAX)
    (hs' : applyCandidate M env f003Active s cand = .ok s') :
    LaneInv env.baseFeePerGas total s' := by
  obtain ⟨tx, result, db, hrun, hcommit⟩ := applyCandidate_eq_ok hs'
  exact h.commitTx hfit (hM _ _ _ _ _ _ hrun) hcommit

/-! ## The loops run the accepted candidates -/

def acceptedCandidates (cands : List AcceptedTxCandidate) (outcomes : List EvmCandidateOutcome) :
    List AcceptedTxCandidate :=
  ((cands.zip outcomes).filter (·.2.isAccepted)).map Prod.fst

section Loops

variable {env : EvmDerivedEnv} {f003Active capActive : Bool}

inductive LaneStep (M : Revm) (env : EvmDerivedEnv) (f003Active : Bool) (cand : AcceptedTxCandidate)
    (s : LaneState) : LaneState → Prop
  | skip (cls : ℕ) : LaneStep M env f003Active cand s (s.skip cls)
  | accept {effects : LaneEffects}
      (h : applyCandidate M env f003Active s.effects cand = .ok effects) :
      LaneStep M env f003Active cand s (s.accept effects)

/-- What a loop of such turns did: an outcome for each candidate, and the effects of the accepted
ones. -/
structure LaneRun (M : Revm) (env : EvmDerivedEnv) (f003Active : Bool)
    (cands : List AcceptedTxCandidate) (s s' : LaneState) : Prop where
  outcomes : ∃ os, s'.outcomes = s.outcomes ++ os ∧ os.length = cands.length ∧
    s'.skippedTxCount = s.skippedTxCount + os.countP (fun o => !o.isAccepted) ∧
    (acceptedCandidates cands os).foldlM (applyCandidate M env f003Active) s.effects =
      .ok s'.effects

theorem laneRun_nil (s : LaneState) : LaneRun M env f003Active [] s s :=
  ⟨[], by simp, rfl, rfl, rfl⟩

theorem LaneStep.cons {cand : AcceptedTxCandidate} {cands : List AcceptedTxCandidate}
    {s t u : LaneState} (hstep : LaneStep M env f003Active cand s t)
    (hrun : LaneRun M env f003Active cands t u) : LaneRun M env f003Active (cand :: cands) s u := by
  obtain ⟨os, houtcomes, hlength, hcount, heffects⟩ := hrun.outcomes
  cases hstep with
  | skip cls =>
    refine ⟨.skipped cls :: os, ?_, congrArg (· + 1) hlength, ?_, heffects⟩
    · rw [houtcomes]
      simp [LaneState.skip]
    · rw [hcount, countP_cons]
      simp only [LaneState.skip, EvmCandidateOutcome.isAccepted, Bool.not_false, if_true]
      omega
  | accept happly =>
    refine ⟨.accepted (s.effects.receipts.length % 2 ^ 32) :: os, ?_, congrArg (· + 1) hlength, ?_,
      foldlM_cons_eq_ok.mpr ⟨_, happly, heffects⟩⟩
    · rw [houtcomes]
      simp [LaneState.accept]
    · rw [hcount, countP_cons]
      simp [LaneState.accept, EvmCandidateOutcome.isAccepted]

theorem laneRun_of_foldlM {σ α : Type} {f : σ → α → Except EvmExecError σ} {p : σ → LaneState}
    {q : α → AcceptedTxCandidate} {l : List α}
    (hstep : ∀ s a s', a ∈ l → f s a = .ok s' → LaneStep M env f003Active (q a) (p s) (p s'))
    {s s' : σ} (h : l.foldlM f s = .ok s') :
    LaneRun M env f003Active (l.map q) (p s) (p s') := by
  induction l generalizing s with
  | nil =>
    cases h
    exact laneRun_nil _
  | cons a l ih =>
    obtain ⟨t, ha, hl⟩ := foldlM_cons_eq_ok.mp h
    exact (hstep s a t mem_cons_self ha).cons
      (ih (fun s b s' hb => hstep s b s' (mem_cons_of_mem a hb)) hl)

theorem attempt_eq_some {s : LaneEffects} {db : CacheDb}
    (h : attempt M env f003Active capActive s tx = .ok (some (result, db))) :
    M.transact env f003Active s.db tx = .ok (result, db) := by
  unfold attempt at h
  split at h
  · cases h
  · cases h
  · next hrun =>
    split at h
    · cases h
    · cases h
      exact hrun

theorem applyCandidate_of_attempt {s : LaneEffects} {db : CacheDb}
    (hdecode : M.decodeTxToEnv cand.raw = .ok tx)
    (hattempt : attempt M env f003Active capActive s tx = .ok (some (result, db)))
    (hcommit : Evm.commitTx M env cand tx s result db = .ok s') :
    applyCandidate M env f003Active s cand = .ok s' := by
  simp only [applyCandidate, hdecode, attempt_eq_some hattempt, hcommit]

theorem stepPool_cases {s s' : PoolState}
    (h : stepPool M env f003Active capActive s cand = .ok s') :
    (∃ cls, s' = s.skip cls) ∨ ∃ tx result db effects, M.decodeTxToEnv cand.raw = .ok tx ∧
      attempt M env f003Active capActive s.lane.effects tx = .ok (some (result, db)) ∧
      result.gasUsed ≤ s.remainingUserGas ∧
      Evm.commitTx M env cand tx s.lane.effects result db = .ok effects ∧
      s'.lane = s.lane.accept effects ∧
      s'.remainingUserGas = s.remainingUserGas - result.gasUsed := by
  simp only [stepPool] at h
  split at h
  · exact .inl ⟨3, (Except.ok.inj h).symm⟩
  · split at h
    · exact .inl ⟨1, (Except.ok.inj h).symm⟩
    · next tx hdecode =>
      split at h
      · exact .inl ⟨5, (Except.ok.inj h).symm⟩
      · obtain ⟨tried, hattempt, h⟩ := bind_eq_ok.mp h
        rcases tried with _ | ⟨result, db⟩
        · exact .inl ⟨2, (Except.ok.inj h).symm⟩
        · simp only [bind_eq_ok, debitPool] at h
          obtain ⟨remaining, hremaining, effects, hcommit, hs'⟩ := h
          cases hs'
          split at hremaining
          · cases hremaining
          · next hle =>
            cases hremaining
            exact .inr ⟨tx, result, db, effects, hdecode, hattempt, Nat.le_of_not_lt hle, hcommit,
              rfl, rfl⟩

theorem laneStep_of_stepPool {s s' : PoolState}
    (h : stepPool M env f003Active capActive s cand = .ok s') :
    LaneStep M env f003Active cand s.lane s'.lane := by
  rcases stepPool_cases h with ⟨cls, rfl⟩ | ⟨tx, result, db, effects, hdecode, hattempt, -, hcommit,
    hlane, -⟩
  · exact .skip cls
  · rw [hlane]
    exact .accept (applyCandidate_of_attempt hdecode hattempt hcommit)

theorem stepPlanned_cases {s s' : LaneState}
    (h : stepPlanned M env f003Active capActive s (cand, plan) = .ok s') :
    (∃ cls, s' = s.skip cls) ∨ ∃ tx result db effects, plan = .ok tx ∧
      attempt M env f003Active capActive s.effects tx = .ok (some (result, db)) ∧
      Evm.commitTx M env cand tx s.effects result db = .ok effects ∧ s' = s.accept effects := by
  unfold stepPlanned at h
  split at h
  · exact .inl ⟨_, (Except.ok.inj h).symm⟩
  · next tx hok =>
    obtain ⟨tried, hattempt, h⟩ := bind_eq_ok.mp h
    rcases tried with _ | ⟨result, db⟩
    · exact .inl ⟨2, (Except.ok.inj h).symm⟩
    · simp only [bind_eq_ok] at h
      obtain ⟨effects, hcommit, hs'⟩ := h
      cases hs'
      exact .inr ⟨tx, result, db, effects, hok, hattempt, hcommit, rfl⟩

theorem laneStep_of_stepPlanned {s s' : LaneState}
    (hplan : ∀ tx, plan = .ok tx → M.decodeTxToEnv cand.raw = .ok tx)
    (h : stepPlanned M env f003Active capActive s (cand, plan) = .ok s') :
    LaneStep M env f003Active cand s s' := by
  rcases stepPlanned_cases h with
    ⟨cls, rfl⟩ | ⟨tx, result, db, effects, hok, hattempt, hcommit, rfl⟩
  · exact .skip cls
  · exact .accept (applyCandidate_of_attempt (hplan tx hok) hattempt hcommit)

theorem length_planPrefix (budget cumulative : ℕ) (overCap : Bool)
    (cands : List AcceptedTxCandidate) :
    (planPrefix M budget cumulative overCap cands).length = cands.length := by
  induction cands generalizing cumulative overCap with
  | nil => cases overCap <;> rfl
  | cons c cs ih =>
    cases overCap with
    | true => simp [planPrefix, ih]
    | false =>
      simp only [planPrefix]
      split
      · simp [ih]
      · split <;> simp [ih]

theorem decode_of_mem_plan {cumulative : ℕ} {overCap : Bool}
    (h : (cand, .ok tx) ∈ cands.zip (planPrefix M budget cumulative overCap cands)) :
    M.decodeTxToEnv cand.raw = .ok tx := by
  induction cands generalizing cumulative overCap with
  | nil => cases h
  | cons c cs ih =>
    cases overCap with
    | true => exact ih ((mem_cons.mp h).resolve_left nofun)
    | false =>
      simp only [planPrefix] at h
      split at h
      · exact ih ((mem_cons.mp h).resolve_left nofun)
      · next hdecode =>
        split at h
        · exact ih ((mem_cons.mp h).resolve_left nofun)
        · rcases mem_cons.mp h with heq | h
          · cases heq
            exact hdecode
          · exact ih h

theorem laneRun_of_runCandidates {poolActive : Bool} {s : LaneEffects} {s' : LaneState}
    (h : runCandidates M env poolActive f003Active capActive budget cands s = .ok s') :
    LaneRun M env f003Active cands ⟨s, 0, []⟩ s' := by
  unfold runCandidates at h
  split at h
  · obtain ⟨pool, hpool, rfl⟩ := map_eq_ok.mp h
    have hrun := laneRun_of_foldlM (p := PoolState.lane) (q := id)
      (fun _ _ _ _ hstep => laneStep_of_stepPool hstep) hpool
    rwa [map_id] at hrun
  · have hrun := laneRun_of_foldlM (p := id) (q := Prod.fst)
      (fun _ a _ ha hstep => laneStep_of_stepPlanned
        (fun tx htx => decode_of_mem_plan (by rw [← htx]; exact ha)) hstep) h
    rwa [map_fst_zip (le_of_eq (length_planPrefix budget 0 false cands).symm)] at hrun

end Loops

/-! ## One block -/

theorem sumU128_eq_ok {l : List ℕ} {n : ℕ} (h : sumU128 l = .ok n) : n = l.sum := by
  unfold sumU128 at h
  split at h
  · exact (Except.ok.inj h).symm
  · cases h

theorem evmu256ToU128_of_le {v : ℕ} (h : v ≤ U128_MAX) : evmu256ToU128 v = v := if_pos h

def withdrawnSompi (result : EvmBlockResult) : ℕ := (result.withdrawals.map (·.amountSompi)).sum

def burnedWei (result : EvmBlockResult) : ℕ :=
  result.header.baseFeePerGas * (result.receipts.map (·.gasUsed)).sum

def accountedWei (parent : Option EvmExecutionHeader) : ℕ :=
  parent.elim 0 (·.evmTotalNativeBalance)

def burnAccumulator (parent : Option EvmExecutionHeader) : ℕ :=
  parent.elim 0 fun p => evmu256ToU128 p.evmBurnAccumulator

/-- The effects of a block are those of its claims and of its accepted candidates: the others leave
no trace but their outcome. -/
structure AcceptedEffects (M : Revm) (fences : EvmFences) (db : CacheDb) (input : EvmBlockInput)
    (result : EvmBlockResult) (db' : CacheDb) : Prop where
  outcomes : result.candidateOutcomes.length = input.acceptedTxs.length
  skipped : result.header.skippedTxCount =
    result.candidateOutcomes.countP (fun o => !o.isAccepted)
  effects : ∃ (claims : ClaimEffects) (s : LaneEffects),
    input.payload.systemOps.foldlM (applyDepositClaim input.payload.evmCoinbase) ⟨db, 0, []⟩ =
        .ok claims ∧
      (acceptedCandidates input.acceptedTxs result.candidateOutcomes).foldlM
          (applyCandidate M (deriveEnv M input) (decide (fences.f003MldsaVerify ≤ input.daaScore)))
          ⟨claims.db, claims.gasUsed, 0, 0, [], [], []⟩ = .ok s ∧
      s.db = db' ∧ s.receipts = result.receipts ∧ s.withdrawals = result.withdrawals ∧
      s.gasUsed = result.header.gasUsed

structure BlockConserves (db : CacheDb) (input : EvmBlockInput) (result : EvmBlockResult)
    (db' : CacheDb) : Prop where
  balances : totalBalance db' + EVM_NATIVE_SCALE * withdrawnSompi result + burnedWei result =
    totalBalance db + EVM_NATIVE_SCALE * claimedSompi input.payload.systemOps
  header : result.header.evmTotalNativeBalance = totalBalance db'
  burn : result.header.evmBurnAccumulator = burnAccumulator input.parent + burnedWei result

theorem executeBlockEvm_spec {fences : EvmFences} {db db' : CacheDb} {input : EvmBlockInput}
    {result : EvmBlockResult} (hM : M.Conserves)
    (hparent : accountedWei input.parent = totalBalance db)
    (hfit : totalBalance db + EVM_NATIVE_SCALE * claimedSompi input.payload.systemOps < U128_MAX)
    (h : executeBlockEvm M fences db input = .ok (result, db')) :
    BlockConserves db input result db' ∧ AcceptedEffects M fences db input result db' := by
  simp only [executeBlockEvm, bind_eq_ok] at h
  obtain ⟨claims, hclaims, budget, -, lane, hlane, deposited, hdeposited, withdrawn, hwithdrawn,
    burnAcc, hburnAcc, h⟩ := h
  cases h
  obtain ⟨htotal, happlied⟩ := total_applyDepositClaims hclaims
  obtain ⟨os, houtcomes, hlength, hcount, heffects⟩ := (laneRun_of_runCandidates hlane).outcomes
  rw [nil_append] at houtcomes happlied
  rw [zero_add] at hcount
  -- the accepted candidates keep the sum the claims made
  have hinv : LaneInv (deriveEnv M input).baseFeePerGas
      (totalBalance db + EVM_NATIVE_SCALE * claimedSompi input.payload.systemOps) lane.effects := by
    refine foldlM_induction (I := LaneInv (deriveEnv M input).baseFeePerGas _)
      (fun _ _ _ _ hs hs' => hs.applyCandidate hM hfit hs') ⟨?_, rfl⟩ heffects
    simp only [htotal, map_nil, sum_nil, mul_zero, add_zero]
  have hconserved := hinv.conserved
  have hsumDeposit : deposited = EVM_NATIVE_SCALE * claimedSompi input.payload.systemOps := by
    rw [sumU128_eq_ok hdeposited, happlied, sum_map_mul_right, Nat.mul_comm, claimedSompi]
  have hsumWithdraw : withdrawn =
      EVM_NATIVE_SCALE * (lane.effects.withdrawals.map (·.amountSompi)).sum := by
    rw [sumU128_eq_ok hwithdrawn, sum_map_mul_right, Nat.mul_comm]
  have hparentTotal : (input.parent.elim 0 fun p => evmu256ToU128 p.evmTotalNativeBalance) =
      totalBalance db := by
    rw [← hparent]
    cases hp : input.parent with
    | none => rfl
    | some p =>
      rw [hp] at hparent
      refine evmu256ToU128_of_le ?_
      have heq : p.evmTotalNativeBalance = totalBalance db := hparent
      omega
  have hburn : burnAcc = burnAccumulator input.parent + lane.effects.burnThisBlock :=
    (Except.ok.inj (error_ite_eq_ok.mp hburnAcc).2).symm
  refine ⟨⟨?_, ?_, ?_⟩, ⟨?_, ?_, claims, lane.effects, hclaims, ?_, rfl, rfl, rfl, rfl⟩⟩
  · simp only [withdrawnSompi, burnedWei, ← hinv.burned]
    omega
  · simp only [hparentTotal, hsumDeposit, hsumWithdraw]
    rw [min_eq_left (le_of_lt hfit)]
    omega
  · rwa [burnedWei, ← hinv.burned]
  · simp only [houtcomes, hlength]
  · simp only [houtcomes, hcount]
  · simp only [houtcomes]
    exact heffects

/-! ## Chains -/

/-- A chain block on the EVM side: the fields execution reads, the UTXO set of its selected parent,
and the diff and multiset of its mergeset. -/
structure EvmBlock where
  headerTimestampMs : ℕ
  selectedParentHash : Hash64
  blueWorkBe : Bytes
  daaScore : ℕ
  payload : EvmExecutionPayload
  acceptedTxs : List AcceptedTxCandidate
  selectedParentUtxoView : UtxoView
  utxo : UtxoState

def EvmBlock.input (b : EvmBlock) (parent : Option EvmExecutionHeader) : EvmBlockInput :=
  ⟨parent, b.headerTimestampMs, b.selectedParentHash, b.blueWorkBe, b.daaScore, b.payload,
    b.acceptedTxs⟩

structure EvmLaneState where
  db : CacheDb
  header : Option EvmExecutionHeader

def EvmLaneState.genesis : EvmLaneState := ⟨∅, none⟩

inductive EvmStepError where
  | claims (e : DepositClaimsError)
  | execution (e : EvmExecError)
  | bridge (e : BridgeError)
  deriving DecidableEq, Repr

structure EvmStaged where
  consumedLocks : List ConsumedLock
  result : EvmBlockResult
  db : CacheDb
  utxo : UtxoState

/-- Claims are validated, the block is executed, and the bridge effects are folded into its UTXO
changes. -/
def evmChainContextStep (M : Revm) (E : EvmLane) (fences : EvmFences) (s : EvmLaneState)
    (b : EvmBlock) : Except EvmStepError EvmStaged := do
  let locks ← (validateEvmDepositClaims b.payload.systemOps
    (compose b.selectedParentUtxoView b.utxo.mergesetDiff) b.daaScore).mapError .claims
  let executed ← (executeBlockEvm M fences s.db (b.input s.header)).mapError .execution
  let utxo ← (E.applyEvmBridgeEffects b.daaScore locks
    (executed.1.withdrawals.map (·.toWithdrawOp)) b.utxo).mapError .bridge
  return ⟨locks, executed.1, executed.2, utxo⟩

def lockedSompi (locks : List ConsumedLock) : ℕ := (locks.map (·.2.amount)).sum

/-- The states of the lane along a chain from the empty genesis, with the coins that crossed into it
less those that came back. Whatever is locked in is part of the supply. -/
inductive EvmChain (M : Revm) (E : EvmLane) (fences : EvmFences) : EvmLaneState → ℕ → Prop
  | genesis : EvmChain M E fences .genesis 0
  | block {s : EvmLaneState} {crossed : ℕ} {b : EvmBlock} {staged : EvmStaged}
      (hchain : EvmChain M E fences s crossed)
      (hstep : evmChainContextStep M E fences s b = .ok staged)
      (hsupply : crossed + lockedSompi staged.consumedLocks ≤ MAX_SOMPI) :
      EvmChain M E fences ⟨staged.db, some staged.result.header⟩
        (crossed + lockedSompi staged.consumedLocks - withdrawnSompi staged.result)

theorem foldl_removeUtxo (locks : List ConsumedLock) (m : MuHash) :
    locks.foldl (fun m l => m.removeUtxo l.1 l.2) m =
      ⟨m.added, m.removed + (locks : Multiset _)⟩ := by
  induction locks generalizing m with
  | nil => simp
  | cons l locks ih =>
    rw [foldl_cons, ih, MuHash.removeUtxo, add_assoc, ← Multiset.cons_coe,
      Multiset.singleton_add]

theorem foldl_addUtxo {α : Type} (f : α → TransactionOutpoint × UtxoEntry) (l : List α)
    (m : MuHash) :
    l.foldl (fun m a => m.addUtxo (f a).1 (f a).2) m =
      ⟨m.added + ((l.map f : List _) : Multiset _), m.removed⟩ := by
  induction l generalizing m with
  | nil => simp
  | cons a l ih =>
    rw [foldl_cons, ih, MuHash.addUtxo, add_assoc, map_cons, ← Multiset.cons_coe,
      Multiset.singleton_add]

theorem multiset_of_bridge {E : EvmLane} {locks : List ConsumedLock} {ws : List WithdrawOp}
    {s s' : UtxoState} (h : E.applyEvmBridgeEffects pov locks ws s = .ok s') :
    s'.multisetHash.removed = s.multisetHash.removed + (locks : Multiset _) ∧
      s'.multisetHash.added = s.multisetHash.added + ((ws.map fun w =>
        (E.withdrawalOutpoint w, EvmLane.withdrawalEntry pov w) : List _) : Multiset _) := by
  rw [EvmLane.multiset_of_applyEvmBridgeEffects h, EvmLane.bridgeMultiset, foldl_removeUtxo,
    foldl_addUtxo fun w => (E.withdrawalOutpoint w, EvmLane.withdrawalEntry pov w)]
  exact ⟨rfl, rfl⟩

section Steps

variable {E : EvmLane} {fences : EvmFences} {s : EvmLaneState} {b : EvmBlock} {staged : EvmStaged}

theorem evmChainContextStep_eq_ok (h : evmChainContextStep M E fences s b = .ok staged) :
    validateEvmDepositClaims b.payload.systemOps
        (compose b.selectedParentUtxoView b.utxo.mergesetDiff) b.daaScore =
          .ok staged.consumedLocks ∧
      executeBlockEvm M fences s.db (b.input s.header) = .ok (staged.result, staged.db) ∧
      E.applyEvmBridgeEffects b.daaScore staged.consumedLocks
        (staged.result.withdrawals.map (·.toWithdrawOp)) b.utxo = .ok staged.utxo := by
  simp only [evmChainContextStep, bind_eq_ok, mapError_eq_ok] at h
  obtain ⟨locks, hlocks, executed, hexecuted, utxo, hutxo, h⟩ := h
  cases h
  exact ⟨hlocks, hexecuted, hutxo⟩

theorem lockedSompi_of_step (h : evmChainContextStep M E fences s b = .ok staged) :
    lockedSompi staged.consumedLocks = claimedSompi b.payload.systemOps :=
  congrArg List.sum (claimedLocks_of_validateClaimsFrom (evmChainContextStep_eq_ok h).1).2.2

theorem scale_mul_lt {crossed : ℕ} (h : crossed ≤ MAX_SOMPI) :
    EVM_NATIVE_SCALE * crossed < U128_MAX :=
  Nat.lt_of_le_of_lt (Nat.mul_le_mul_left _ h) (by decide)

theorem evmChainContextStep_spec {crossed : ℕ} (hM : M.Conserves)
    (hparent : accountedWei s.header = totalBalance s.db)
    (hle : totalBalance s.db ≤ EVM_NATIVE_SCALE * crossed)
    (hsupply : crossed + lockedSompi staged.consumedLocks ≤ MAX_SOMPI)
    (hstep : evmChainContextStep M E fences s b = .ok staged) :
    BlockConserves s.db (b.input s.header) staged.result staged.db ∧
      AcceptedEffects M fences s.db (b.input s.header) staged.result staged.db := by
  refine executeBlockEvm_spec hM hparent ?_ (evmChainContextStep_eq_ok hstep).2.1
  have hfit := scale_mul_lt hsupply
  rw [lockedSompi_of_step hstep, Nat.mul_add] at hfit
  exact Nat.lt_of_le_of_lt (Nat.add_le_add_right hle _) hfit

end Steps

/-- The lane along a chain: the header of the last block accounts for the balances, and no more wei
is there than crossed. -/
theorem EvmChain.balances {E : EvmLane} {fences : EvmFences} {s : EvmLaneState} {crossed : ℕ}
    (hM : M.Conserves) (h : EvmChain M E fences s crossed) :
    accountedWei s.header = totalBalance s.db ∧
      totalBalance s.db ≤ EVM_NATIVE_SCALE * crossed := by
  induction h with
  | genesis => exact ⟨rfl, le_refl _⟩
  | @block s crossed b staged hchain hstep hsupply ih =>
    obtain ⟨hparent, hle⟩ := ih
    obtain ⟨hconserves, -⟩ := evmChainContextStep_spec hM hparent hle hsupply hstep
    have hbalances := hconserves.balances
    rw [show (b.input s.header).payload.systemOps = b.payload.systemOps from rfl,
      ← lockedSompi_of_step hstep] at hbalances
    refine ⟨hconserves.header, ?_⟩
    rw [Nat.mul_sub, Nat.mul_add]
    simp only
    omega

/-- Along every chain from the empty genesis, a block leaves the balances of the lane at those of
its parent, plus the locks it removed from the UTXO set, less the outputs it added there and the
base fee it burned; its header says the same, and skipped candidates have no part in it. -/
theorem evm_bridge_conserves (M : Revm) (hM : M.Conserves) (E : EvmLane) (fences : EvmFences)
    (s : EvmLaneState) (crossed : ℕ) (hchain : EvmChain M E fences s crossed) (b : EvmBlock)
    (staged : EvmStaged) (hstep : evmChainContextStep M E fences s b = .ok staged)
    (hsupply : crossed + lockedSompi staged.consumedLocks ≤ MAX_SOMPI) :
    (∃ removed added : Multiset (TransactionOutpoint × UtxoEntry),
      staged.utxo.multisetHash.removed = b.utxo.multisetHash.removed + removed ∧
      staged.utxo.multisetHash.added = b.utxo.multisetHash.added + added ∧
      totalBalance staged.db + EVM_NATIVE_SCALE * entriesValue added + burnedWei staged.result =
        totalBalance s.db + EVM_NATIVE_SCALE * entriesValue removed) ∧
    staged.result.header.evmTotalNativeBalance = totalBalance staged.db ∧
    staged.result.header.evmBurnAccumulator =
      burnAccumulator s.header + burnedWei staged.result ∧
    AcceptedEffects M fences s.db (b.input s.header) staged.result staged.db := by
  obtain ⟨hparent, hle⟩ := hchain.balances hM
  obtain ⟨hconserves, heffects⟩ := evmChainContextStep_spec hM hparent hle hsupply hstep
  obtain ⟨hremoved, hadded⟩ := multiset_of_bridge (evmChainContextStep_eq_ok hstep).2.2
  refine ⟨⟨_, _, hremoved, hadded, ?_⟩, hconserves.header, hconserves.burn, heffects⟩
  have hout : entriesValue (((staged.result.withdrawals.map (·.toWithdrawOp)).map fun w =>
      (E.withdrawalOutpoint w, EvmLane.withdrawalEntry b.daaScore w) : List _) : Multiset _) =
        withdrawnSompi staged.result := by
    simp [entriesValue, withdrawnSompi, EvmLane.withdrawalEntry, Function.comp_def]
  have hin : entriesValue (staged.consumedLocks : Multiset _) =
      claimedSompi b.payload.systemOps := by
    rw [← lockedSompi_of_step hstep]
    simp [entriesValue, lockedSompi]
  rw [hout, hin]
  exact hconserves.balances

/-! ## A small instance -/

def sampleSender : EvmAddress := List.replicate 20 1

def samplePay (env : EvmDerivedEnv) (db : CacheDb) (gas tip wei : ℕ) :
    Except EvmExecError CacheDb := do
  let db ← subBalance db sampleSender (env.baseFeePerGas * gas + tip + wei) .basefeeBurnOverflow
  let db ← creditBalance db env.coinbase tip
  creditBalance db MISAKA_WITHDRAW_PRECOMPILE wei

theorem total_samplePay {env : EvmDerivedEnv} {db db' : CacheDb} {gas tip wei : ℕ}
    (h : samplePay env db gas tip wei = .ok db') :
    totalBalance db' + env.baseFeePerGas * gas = totalBalance db := by
  simp only [samplePay, bind_eq_ok] at h
  obtain ⟨db₁, hsub, db₂, htip, hwei⟩ := h
  have hout := total_subBalance hsub
  have hin := total_addBalance htip
  have hin' := total_addBalance hwei
  omega

def sampleResult : ExecutionResult :=
  ⟨true, 21000, [⟨MISAKA_WITHDRAW_PRECOMPILE, [7], sampleSender ++
    (leBytes 32 (3 * EVM_NATIVE_SCALE)).reverse ++ [0, 0] ++ (p2pkhMldsa87Spk 0).script⟩]⟩

def sampleRevm : Revm where
  decodeTxToEnv raw := if raw = [] then .error "empty" else .ok ⟨21000, 2000000000, none, raw⟩
  txHash raw := leNat raw
  transact env _ db tx :=
    ((samplePay env db sampleResult.gasUsed (tipPerGas env.baseFeePerGas tx * sampleResult.gasUsed)
      (3 * EVM_NATIVE_SCALE)).map (sampleResult, ·)).mapError fun _ => .transaction "funds"
  prevRandao _ := 0
  withdrawTopic := 7

theorem sampleRevm_conserves : sampleRevm.Conserves := by
  intro env f003Active db tx result db' h
  obtain ⟨paid, hpay, heq⟩ := map_eq_ok.mp (mapError_eq_ok.mp h)
  cases heq
  exact total_samplePay hpay

def sampleEvmLane : EvmLane where
  activationDaaScore := 0
  executeAcceptance _ _ _ _ := .error "unused"
  syntheticWithdrawalTxid w := 1000 + w.opIndex
  admits _ := true
  payloadLen _ := 0

def sampleLock : UtxoEntry where
  amount := 1000000
  scriptPublicKey := ⟨0, [0x61, 0x24] ++ sampleSender ++ leBytes 8 100 ++ leBytes 8 7 ++ [0x75] ++
    (p2pkhMldsa87Spk 0).script⟩
  blockDaaScore := 1
  isCoinbase := false

/-- A block that claims the lock, runs a withdrawal, and passes over an empty candidate and a
repeated one. -/
def sampleEvmBlock : EvmBlock where
  headerTimestampMs := 5000
  selectedParentHash := 0
  blueWorkBe := []
  daaScore := 5
  payload := ⟨[], [⟨⟨1, 0⟩, sampleSender, 1000000, 7⟩], List.replicate 20 2⟩
  acceptedTxs := [⟨[1], List.replicate 20 3⟩, ⟨[], []⟩, ⟨[1], []⟩]
  selectedParentUtxoView o := if o = ⟨1, 0⟩ then some sampleLock else none
  utxo := ⟨.empty, .empty⟩

theorem evm_bridge_conserves_sampleEvmBlock :
    ∃ staged, evmChainContextStep sampleRevm sampleEvmLane ⟨0, 0, 0⟩ .genesis sampleEvmBlock =
        .ok staged ∧
      0 + lockedSompi staged.consumedLocks ≤ MAX_SOMPI ∧
      (∃ removed added : Multiset (TransactionOutpoint × UtxoEntry),
        staged.utxo.multisetHash.removed = sampleEvmBlock.utxo.multisetHash.removed + removed ∧
        staged.utxo.multisetHash.added = sampleEvmBlock.utxo.multisetHash.added + added ∧
        totalBalance staged.db + EVM_NATIVE_SCALE * entriesValue added + burnedWei staged.result =
          totalBalance ∅ + EVM_NATIVE_SCALE * entriesValue removed) ∧
      staged.result.header.evmTotalNativeBalance = totalBalance staged.db ∧
      staged.result.header.evmBurnAccumulator = burnAccumulator none + burnedWei staged.result ∧
      AcceptedEffects sampleRevm ⟨0, 0, 0⟩ ∅ (sampleEvmBlock.input none) staged.result
        staged.db := by
  obtain ⟨staged, hstep⟩ : ∃ staged, evmChainContextStep sampleRevm sampleEvmLane ⟨0, 0, 0⟩
      .genesis sampleEvmBlock = .ok staged := by
    decide +kernel
  have hsupply : 0 + lockedSompi staged.consumedLocks ≤ MAX_SOMPI := by
    rw [lockedSompi_of_step hstep]
    decide
  exact ⟨staged, hstep, hsupply, evm_bridge_conserves sampleRevm sampleRevm_conserves sampleEvmLane
    ⟨0, 0, 0⟩ .genesis 0 .genesis sampleEvmBlock staged hstep hsupply⟩

example : (executeBlockEvm sampleRevm ⟨0, 0, 0⟩ ∅ (sampleEvmBlock.input none)).map
    (fun p => (p.1.candidateOutcomes, p.1.withdrawals.map (·.amountSompi))) =
      .ok ([.accepted 0, .skipped 1, .skipped 3], [3]) := by
  decide +kernel

end Misaka.Evm
