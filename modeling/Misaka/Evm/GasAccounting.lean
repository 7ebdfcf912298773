import Misaka.Evm.Conservation

/-!
# Gas and base fee along a chain

Both gas rules keep a block within `EVM_GAS_LIMIT`: the pool subtracts the gas used, and the prefix
counts the gas declared. The base fee of the next block moves by at most an eighth, and flooring
that eighth stops the descent at seven.
-/

namespace Misaka.Evm

open Misaka.Core Pipeline List

variable {M : Revm} {env : EvmDerivedEnv} {f003Active capActive : Bool} {input : EvmBlockInput}

def Revm.WithinDeclaredGas (M : Revm) : Prop :=
  ∀ env f003Active db tx result db', M.transact env f003Active db tx = .ok (result, db') →
    result.gasUsed ≤ tx.gasLimit

def receiptGas (s : LaneEffects) : ℕ := (s.receipts.map (·.gasUsed)).sum

structure GasInv (systemGas : ℕ) (s : LaneEffects) : Prop where
  gasUsed : s.gasUsed = min (systemGas + receiptGas s) U64_MAX
  cumulative : s.txCumulativeGas = min (receiptGas s) U64_MAX
  last : (s.receipts.map (·.cumulativeGasUsed)).getLastD 0 = s.txCumulativeGas
  le : ∀ r ∈ s.receipts, r.cumulativeGasUsed ≤ s.txCumulativeGas
  sorted : (s.receipts.map (·.cumulativeGasUsed)).Pairwise (· ≤ ·)

variable {systemGas budget : ℕ}

section Commit

variable {cand : AcceptedTxCandidate} {tx : TxEnv} {s s' : LaneEffects} {result : ExecutionResult}
  {db : CacheDb}

theorem receiptGas_commitTx (h : commitTx M env cand tx s result db = .ok s') :
    receiptGas s' = receiptGas s + result.gasUsed := by
  simp only [commitTx, bind_eq_ok] at h
  obtain ⟨burned, -, db₁, -, db₂, -, hs'⟩ := h
  cases hs'
  simp [receiptGas]

theorem GasInv.commitTx (h : GasInv systemGas s)
    (hs' : commitTx M env cand tx s result db = .ok s') :
    GasInv systemGas s' := by
  have hgas := receiptGas_commitTx hs'
  have hused := h.gasUsed
  have hcumulative := h.cumulative
  simp only [Evm.commitTx, bind_eq_ok] at hs'
  obtain ⟨burned, -, db₁, -, db₂, -, hs'⟩ := hs'
  cases hs'
  have hgrows : s.txCumulativeGas ≤ min (s.txCumulativeGas + result.gasUsed) U64_MAX := by omega
  refine ⟨?_, ?_, ?_, ?_, ?_⟩
  · rw [hgas]
    simp only
    omega
  · rw [hgas]
    simp only
    omega
  · simp
  · simp only [forall_mem_append, forall_mem_singleton]
    exact ⟨fun r hr => (h.le r hr).trans hgrows, Nat.le_refl _⟩
  · simp only [map_append, map_cons, map_nil, pairwise_append,
      pairwise_singleton, mem_singleton, forall_mem_map, true_and, forall_eq]
    exact ⟨h.sorted, fun r hr => (h.le r hr).trans hgrows⟩

end Commit

variable {cands : List AcceptedTxCandidate} {fences : EvmFences}

theorem GasInv.applyCandidates {s s' : LaneEffects} (h : GasInv systemGas s)
    (hs' : cands.foldlM (applyCandidate M env f003Active) s = .ok s') : GasInv systemGas s' := by
  refine foldlM_induction (I := GasInv systemGas) (fun t cand t' _ ht ht' => ?_) h hs'
  obtain ⟨tx, result, db, -, hcommit⟩ := applyCandidate_eq_ok ht'
  exact ht.commitTx hcommit

theorem receiptGas_pool {s s' : PoolState}
    (h : cands.foldlM (stepPool M env f003Active capActive) s = .ok s') :
    receiptGas s'.lane.effects + s'.remainingUserGas =
      receiptGas s.lane.effects + s.remainingUserGas := by
  refine foldlM_induction (I := fun t : PoolState => receiptGas t.lane.effects +
      t.remainingUserGas = receiptGas s.lane.effects + s.remainingUserGas)
    (fun t cand t' _ ht ht' => ?_) rfl h
  rcases stepPool_cases ht' with ⟨cls, rfl⟩ |
    ⟨tx, result, db, effects, -, -, hle, hcommit, hlane, hremaining⟩
  · exact ht
  · have hgas := receiptGas_commitTx hcommit
    rw [hlane, hremaining]
    simp only [LaneState.accept]
    omega

theorem receiptGas_stepPlanned (hM : M.WithinDeclaredGas) {cand : AcceptedTxCandidate} {tx : TxEnv}
    {s s' : LaneState} (h : stepPlanned M env f003Active capActive s (cand, .ok tx) = .ok s') :
    receiptGas s'.effects ≤ receiptGas s.effects + tx.gasLimit := by
  rcases stepPlanned_cases h with
    ⟨cls, rfl⟩ | ⟨_, result, db, effects, hplan, hattempt, hcommit, rfl⟩
  · exact Nat.le_add_right _ _
  · cases hplan
    have hgas := receiptGas_commitTx hcommit
    have hle := hM _ _ _ _ _ _ (attempt_eq_some hattempt)
    simp only [LaneState.accept]
    omega

theorem receiptGas_planned (hM : M.WithinDeclaredGas) {cumulative : ℕ} {overCap : Bool}
    (hbudget : budget < U64_MAX) (hcumulative : overCap = false → cumulative ≤ budget)
    {s s' : LaneState} (h : (cands.zip (planPrefix M budget cumulative overCap cands)).foldlM
      (stepPlanned M env f003Active capActive) s = .ok s') :
    receiptGas s'.effects ≤ receiptGas s.effects + (budget - cumulative) := by
  induction cands generalizing cumulative overCap s with
  | nil =>
    cases h
    exact Nat.le_add_right _ _
  | cons c cs ih =>
    cases overCap with
    | true =>
      obtain ⟨t, ht, hrest⟩ := foldlM_cons_eq_ok.mp h
      cases ht
      have := ih (fun h : true = false => nomatch h) hrest
      exact this
    | false =>
      simp only [planPrefix] at h
      split at h
      · obtain ⟨t, ht, hrest⟩ := foldlM_cons_eq_ok.mp h
        cases ht
        have := ih hcumulative hrest
        exact this
      · split at h
        · next hover =>
          obtain ⟨t, ht, hrest⟩ := foldlM_cons_eq_ok.mp h
          cases ht
          have := ih (fun h : true = false => nomatch h) hrest
          simp only [LaneState.skip] at this
          omega
        · next hfits =>
          obtain ⟨t, ht, hrest⟩ := foldlM_cons_eq_ok.mp h
          have hstep := receiptGas_stepPlanned hM ht
          have := ih (fun _ => Nat.le_of_not_lt hfits) hrest
          omega

theorem receiptGas_runCandidates (hM : M.WithinDeclaredGas) {poolActive : Bool} {s : LaneEffects}
    {s' : LaneState} (hs : s.receipts = []) (hbudget : budget < U64_MAX)
    (h : runCandidates M env poolActive f003Active capActive budget cands s = .ok s') :
    receiptGas s'.effects ≤ budget := by
  have hzero : receiptGas s = 0 := by simp [receiptGas, hs]
  unfold runCandidates at h
  split at h
  · obtain ⟨pool, hpool, rfl⟩ := map_eq_ok.mp h
    have := receiptGas_pool hpool
    simp only [hzero] at this
    omega
  · have := receiptGas_planned hM hbudget (fun _ => Nat.zero_le _) h
    simp only [hzero] at this
    omega

theorem gasUsed_applyDepositClaims {coinbase : EvmAddress} {claims : List DepositClaim}
    {s s' : ClaimEffects} (h : claims.foldlM (applyDepositClaim coinbase) s = .ok s')
    (hs : s.gasUsed ≤ U64_MAX) :
    s'.gasUsed = min (s.gasUsed + SYSTEM_DEPOSIT_GAS_PER_CLAIM * claims.length) U64_MAX := by
  induction claims generalizing s with
  | nil =>
    cases h
    simp [hs]
  | cons claim claims ih =>
    obtain ⟨t, ht, hrest⟩ := foldlM_cons_eq_ok.mp h
    simp only [applyDepositClaim, bind_eq_ok] at ht
    obtain ⟨db, -, db', -, ht⟩ := ht
    cases ht
    rw [ih hrest (Nat.min_le_right _ _), length_cons, Nat.mul_succ]
    simp only
    omega

structure GasInRange (input : EvmBlockInput) (result : EvmBlockResult) : Prop where
  limit : result.header.gasUsed ≤ EVM_GAS_LIMIT
  sorted : (result.receipts.map (·.cumulativeGasUsed)).Pairwise (· ≤ ·)
  last : (result.receipts.map (·.cumulativeGasUsed)).getLastD 0 =
    result.header.gasUsed - SYSTEM_DEPOSIT_GAS_PER_CLAIM * input.payload.systemOps.length

theorem executeBlockEvm_gasInRange (hM : M.WithinDeclaredGas) {db db' : CacheDb}
    {result : EvmBlockResult} (h : executeBlockEvm M fences db input = .ok (result, db')) :
    GasInRange input result ∧ result.header.baseFeePerGas = (deriveEnv M input).baseFeePerGas := by
  simp only [executeBlockEvm, bind_eq_ok] at h
  obtain ⟨claims, hclaims, budget, hbudget, lane, hlane, _, -, _, -, _, -, h⟩ := h
  cases h
  have hmax : EVM_GAS_LIMIT < U64_MAX := by decide
  have hsystem := gasUsed_applyDepositClaims hclaims (Nat.zero_le _)
  rw [Nat.zero_add] at hsystem
  obtain ⟨hcap, rfl⟩ :
      claims.gasUsed ≤ EVM_GAS_LIMIT ∧ EVM_GAS_LIMIT - claims.gasUsed = budget := by
    unfold userGasBudget at hbudget
    split at hbudget
    · cases hbudget
    · next hle => exact ⟨Nat.le_of_not_lt hle, Except.ok.inj hbudget⟩
  have hused := receiptGas_runCandidates hM rfl (by omega) hlane
  obtain ⟨os, -, -, -, heffects⟩ := (laneRun_of_runCandidates hlane).outcomes
  have hinv : GasInv claims.gasUsed lane.effects := by
    refine GasInv.applyCandidates ⟨?_, rfl, rfl, by simp, .nil⟩ heffects
    exact (Nat.min_eq_left (hcap.trans hmax.le)).symm
  have hgas := hinv.gasUsed
  have hcumulative := hinv.cumulative
  refine ⟨⟨?_, hinv.sorted, ?_⟩, rfl⟩
  · simp only
    omega
  · rw [hinv.last]
    simp only
    omega

def emptyAcceptanceResult (M : Revm) (input : EvmBlockInput) : EvmBlockResult :=
  let derived := deriveEnv M input
  let header : EvmExecutionHeader := {
    gasUsed := 0
    gasLimit := derived.gasLimit
    baseFeePerGas := derived.baseFeePerGas
    evmNumber := derived.evmNumber
    evmTimestampSec := derived.evmTimestampSec
    evmChainId := derived.chainId
    coinbase := input.payload.evmCoinbase
    acceptedTxCount := 0
    skippedTxCount := 0
    evmTotalNativeBalance := input.parent.elim 0 fun p => evmu256ToU128 p.evmTotalNativeBalance
    evmBurnAccumulator := input.parent.elim 0 fun p => evmu256ToU128 p.evmBurnAccumulator }
  ⟨header, [], [], [], []⟩

inductive Executed (M : Revm) (fences : EvmFences) (input : EvmBlockInput) : EvmBlockResult → Prop
  | full {db db' : CacheDb} {result : EvmBlockResult}
      (h : executeBlockEvm M fences db input = .ok (result, db')) : Executed M fences input result
  | empty (htxs : input.acceptedTxs = []) (hops : input.payload.systemOps = []) :
      Executed M fences input (emptyAcceptanceResult M input)

theorem Executed.gasInRange (hM : M.WithinDeclaredGas) {result : EvmBlockResult}
    (h : Executed M fences input result) :
    GasInRange input result ∧ result.header.baseFeePerGas = (deriveEnv M input).baseFeePerGas := by
  cases h with
  | full h => exact executeBlockEvm_gasInRange hM h
  | empty => exact ⟨⟨Nat.zero_le _, .nil, (Nat.zero_sub _).symm⟩, rfl⟩

theorem nextBaseFee_eq (fee gasUsed : ℕ) :
    nextBaseFee fee gasUsed =
      if gasUsed = 15000000 then fee
      else if 15000000 < gasUsed then
        min (fee + max (min (fee * (gasUsed - 15000000)) U128_MAX / 15000000 / 8) 1) U128_MAX
      else fee - min (fee * (15000000 - gasUsed)) U128_MAX / 15000000 / 8 := rfl

theorem feeDelta_le (fee : ℕ) {distance : ℕ} (h : distance ≤ 15000000) :
    min (fee * distance) U128_MAX / 15000000 / 8 ≤ fee / 8 := by
  refine Nat.div_le_div_right (Nat.div_le_of_le_mul ((Nat.min_le_left _ _).trans ?_))
  rw [Nat.mul_comm]
  exact Nat.mul_le_mul_right _ h

theorem seven_le_nextBaseFee {fee : ℕ} (hfee : 7 ≤ fee) (gasUsed : ℕ) :
    7 ≤ nextBaseFee fee gasUsed := by
  have hmax : 7 ≤ U128_MAX := by decide
  have hdelta := feeDelta_le fee (Nat.sub_le 15000000 gasUsed)
  rw [nextBaseFee_eq]
  split_ifs <;> omega

theorem nextBaseFee_change {fee gasUsed : ℕ} (hfee : fee ≤ U128_MAX)
    (hgas : gasUsed ≤ EVM_GAS_LIMIT) :
    nextBaseFee fee gasUsed ≤ fee + max 1 (fee / 8) ∧
      fee ≤ nextBaseFee fee gasUsed + max 1 (fee / 8) := by
  have hover : gasUsed - 15000000 ≤ 15000000 := Nat.sub_le_of_le_add hgas
  have hup := feeDelta_le fee hover
  have hdown := feeDelta_le fee (Nat.sub_le 15000000 gasUsed)
  rw [nextBaseFee_eq]
  generalize min (fee * (gasUsed - 15000000)) U128_MAX / 15000000 / 8 = up at hup ⊢
  generalize min (fee * (15000000 - gasUsed)) U128_MAX / 15000000 / 8 = down at hdown ⊢
  split_ifs <;> omega

inductive EvmRun (M : Revm) (fences : EvmFences) : Option EvmExecutionHeader → Prop
  | genesis : EvmRun M fences none
  | block {input : EvmBlockInput} {result : EvmBlockResult} (hrun : EvmRun M fences input.parent)
      (hexec : Executed M fences input result) : EvmRun M fences (some result.header)

theorem seven_le_baseFee_deriveEnv (h : ∀ p ∈ input.parent, 7 ≤ p.baseFeePerGas) :
    7 ≤ (deriveEnv M input).baseFeePerGas := by
  simp only [deriveEnv]
  cases hparent : input.parent with
  | none => decide
  | some p =>
    refine seven_le_nextBaseFee ?_ p.gasUsed
    unfold evmu256ToU128
    split
    · exact h p (by rw [hparent]; rfl)
    · decide

theorem EvmRun.inRange (hM : M.WithinDeclaredGas) {header : Option EvmExecutionHeader}
    (h : EvmRun M fences header) :
    ∀ p ∈ header, p.gasUsed ≤ EVM_GAS_LIMIT ∧ 7 ≤ p.baseFeePerGas := by
  induction h with
  | genesis => simp
  | block hrun hexec ih =>
    rintro p ⟨⟩
    obtain ⟨hgas, hfee⟩ := hexec.gasInRange hM
    rw [hfee]
    exact ⟨hgas.limit, seven_le_baseFee_deriveEnv fun p hp => (ih p hp).2⟩

/-- Along every chain, a block uses at most the gas limit, its receipts count up to the gas of its
transactions, its base fee is at least seven and differs from that of its parent by at most the
larger of one and an eighth. -/
theorem evm_gas_in_range (M : Revm) (hM : M.WithinDeclaredGas) (fences : EvmFences)
    (input : EvmBlockInput) (result : EvmBlockResult) (hparent : EvmRun M fences input.parent)
    (hexec : Executed M fences input result) :
    GasInRange input result ∧ 7 ≤ result.header.baseFeePerGas ∧
    (input.parent = none → result.header.baseFeePerGas = EVM_INITIAL_BASE_FEE) ∧
    ∀ p, input.parent = some p → p.baseFeePerGas < 2 ^ 100 →
      result.header.baseFeePerGas = nextBaseFee p.baseFeePerGas p.gasUsed ∧
      result.header.baseFeePerGas ≤ p.baseFeePerGas + max 1 (p.baseFeePerGas / 8) ∧
      p.baseFeePerGas ≤ result.header.baseFeePerGas + max 1 (p.baseFeePerGas / 8) := by
  obtain ⟨hgas, hfee⟩ := hexec.gasInRange hM
  refine ⟨hgas, ((EvmRun.block hparent hexec).inRange hM _ rfl).2, fun hnone => ?_,
    fun p hp hsmall => ?_⟩
  · rw [hfee, deriveEnv, hnone]
    rfl
  · have hle : p.baseFeePerGas ≤ U128_MAX := hsmall.le.trans (by decide)
    have heq : result.header.baseFeePerGas = nextBaseFee p.baseFeePerGas p.gasUsed := by
      rw [hfee, deriveEnv, hp]
      simp only [Option.elim_some, evmu256ToU128_of_le hle]
    rw [heq]
    exact ⟨rfl, nextBaseFee_change hle (hparent.inRange hM p hp).1⟩

/-- `samplePay` uses the gas of a transfer whatever is declared; this machine refuses to declare
less. -/
def frugalRevm : Revm :=
  { sampleRevm with
    transact := fun env f003Active db tx => if tx.gasLimit < sampleResult.gasUsed
      then .error (.transaction "gas") else sampleRevm.transact env f003Active db tx }

/-- The base fee falls after a block that uses 46000 gas. -/
theorem evm_gas_in_range_second_block :
    ∃ first second, Executed frugalRevm ⟨0, 0, 0⟩ (sampleEvmBlock.input none) first ∧
      Executed frugalRevm ⟨0, 0, 0⟩ (sampleEvmBlock.input (some first.header)) second ∧
      frugalRevm.WithinDeclaredGas ∧
      GasInRange (sampleEvmBlock.input (some first.header)) second ∧
      first.header.baseFeePerGas = 1000000000 ∧ first.header.gasUsed = 46000 ∧
      second.header.baseFeePerGas = nextBaseFee 1000000000 46000 ∧
      nextBaseFee 1000000000 46000 = 875383334 := by
  obtain ⟨first, db, hfirst, hfee, hgas, ⟨second, db'⟩, hsecond⟩ : ∃ first db,
      executeBlockEvm frugalRevm ⟨0, 0, 0⟩ ∅ (sampleEvmBlock.input none) = .ok (first, db) ∧
      first.header.baseFeePerGas = 1000000000 ∧ first.header.gasUsed = 46000 ∧ ∃ second,
      executeBlockEvm frugalRevm ⟨0, 0, 0⟩ db (sampleEvmBlock.input (some first.header)) =
        .ok second := by
    decide +kernel
  have hM : frugalRevm.WithinDeclaredGas := by
    intro env f003Active db tx result db' h
    simp only [frugalRevm] at h
    split at h
    · cases h
    · next hle =>
      obtain ⟨_, -, heq⟩ := map_eq_ok.mp (mapError_eq_ok.mp h)
      obtain ⟨rfl, -⟩ := Prod.mk.inj heq
      exact Nat.le_of_not_lt hle
  obtain ⟨hrange, -, -, hstep⟩ := evm_gas_in_range frugalRevm hM ⟨0, 0, 0⟩ _ second
    (.block .genesis (.full hfirst)) (.full hsecond)
  obtain ⟨hnext, -⟩ := hstep first.header rfl (by rw [hfee]; decide)
  rw [hfee, hgas] at hnext
  exact ⟨first, second, .full hfirst, .full hsecond, hM, hrange, hfee, hgas, hnext, by decide⟩

end Misaka.Evm
