import Misaka.Pipeline.Bridge
import Misaka.Pipeline.TxValidator

/-!
# The block executor of the EVM lane

`execute_block_evm` of `kaspa-evm/src/executor.rs`. One transaction is a step of `revm`, a
parameter. Wei balances are natural numbers with the checks of the source.
-/

namespace Misaka.Evm

open Misaka.Core Pipeline

def EVM_NATIVE_SCALE : ℕ := 10000000000
def EVM_CHAIN_ID : ℕ := 0x4D534B
def EVM_GAS_LIMIT : ℕ := 30000000
def EVM_ELASTICITY_MULTIPLIER : ℕ := 2
def EVM_BASE_FEE_MAX_CHANGE_DENOMINATOR : ℕ := 8
def EVM_INITIAL_BASE_FEE : ℕ := 1000000000
def SYSTEM_DEPOSIT_GAS_PER_CLAIM : ℕ := 25000
def MAX_EVM_ACCEPTED_GAS_PER_CHAIN_BLOCK : ℕ := EVM_GAS_LIMIT
def MAX_WITHDRAWALS_PER_EVM_BLOCK : ℕ := 256
def U256_MAX : ℕ := 2 ^ 256 - 1

/-- `keccak256("")`. -/
def KECCAK_EMPTY : ℕ := 0xc5d2460186f7233c927e7db2dcc703c0e500b653ca82273b7bfad8045d85a470

abbrev EvmAddress := Bytes

abbrev EvmH256 := ℕ

def MISAKA_WITHDRAW_PRECOMPILE : EvmAddress := List.replicate 18 0 ++ [0xf0, 0x02]

inductive AccountState where
  | notExisting
  | touched
  | storageCleared
  | none
  deriving DecidableEq, Repr

structure DbAccount where
  balance : ℕ
  nonce : ℕ
  codeHash : EvmH256
  storage : Table ℕ ℕ
  accountState : AccountState
  deriving DecidableEq

def DbAccount.notExisting : DbAccount := ⟨0, 0, KECCAK_EMPTY, ∅, .notExisting⟩

/-- `CacheDB<EmptyDB>`. -/
abbrev CacheDb := Table EvmAddress DbAccount

def loadAccount (db : CacheDb) (address : EvmAddress) : DbAccount :=
  (db.lookup address).getD .notExisting

def totalBalance (db : CacheDb) : ℕ := (db.values.map DbAccount.balance).sum

inductive InvariantViolation where
  | balanceCreditOverflow (address : EvmAddress)
  | f002BurnUnderflow (address : EvmAddress)
  | tipRerouteUnderflow (address : EvmAddress)
  | tipRerouteOverflow (address : EvmAddress)
  | systemGasExceedsBlockCap (systemGas : ℕ)
  | basefeeBurnOverflow
  | gasPoolBelowZero
  | burnAccumulatorOverflow
  deriving DecidableEq, Repr

/-- `EvmExecError`, and the checked sums that panic. -/
inductive EvmExecError where
  | invalidTx (e : String)
  | invariantViolation (v : InvariantViolation)
  | sumOverflow
  deriving DecidableEq, Repr

def DbAccount.setBalance (acct : DbAccount) (balance : ℕ) : DbAccount :=
  { acct with
    balance := balance
    codeHash := if acct.codeHash = 0 then KECCAK_EMPTY else acct.codeHash
    accountState := .touched }

def addBalance (db : CacheDb) (address : EvmAddress) (amount : ℕ) (e : InvariantViolation) :
    Except EvmExecError CacheDb :=
  let acct := loadAccount db address
  if U256_MAX < acct.balance + amount then .error (.invariantViolation e)
  else .ok (db.insert address (acct.setBalance (acct.balance + amount)))

def subBalance (db : CacheDb) (address : EvmAddress) (amount : ℕ) (e : InvariantViolation) :
    Except EvmExecError CacheDb :=
  let acct := loadAccount db address
  if acct.balance < amount then .error (.invariantViolation e)
  else .ok (db.insert address (acct.setBalance (acct.balance - amount)))

def creditBalance (db : CacheDb) (address : EvmAddress) (amount : ℕ) :
    Except EvmExecError CacheDb :=
  addBalance db address amount (.balanceCreditOverflow address)

def burnBalance (db : CacheDb) (address : EvmAddress) (amount : ℕ) : Except EvmExecError CacheDb :=
  subBalance db address amount (.f002BurnUnderflow address)

def rerouteBalance (db : CacheDb) (sender receiver : EvmAddress) (amount : ℕ) :
    Except EvmExecError CacheDb := do
  let db ← subBalance db sender amount (.tipRerouteUnderflow sender)
  addBalance db receiver amount (.tipRerouteOverflow receiver)

structure EvmExecutionHeader where
  gasUsed : ℕ
  gasLimit : ℕ
  baseFeePerGas : ℕ
  evmNumber : ℕ
  evmTimestampSec : ℕ
  evmChainId : ℕ
  coinbase : EvmAddress
  acceptedTxCount : ℕ
  skippedTxCount : ℕ
  evmTotalNativeBalance : ℕ
  evmBurnAccumulator : ℕ
  deriving DecidableEq, Repr

def evmu256ToU128 (v : ℕ) : ℕ := if v ≤ U128_MAX then v else U128_MAX

/-- The fee moves with the gas above or below its target. -/
def nextBaseFee (parentBaseFee parentGasUsed : ℕ) : ℕ :=
  let gasTarget := EVM_GAS_LIMIT / EVM_ELASTICITY_MULTIPLIER
  let denom := EVM_BASE_FEE_MAX_CHANGE_DENOMINATOR
  if parentGasUsed = gasTarget then parentBaseFee
  else if gasTarget < parentGasUsed then
    let scaled := min (parentBaseFee * (parentGasUsed - gasTarget)) U128_MAX
    min (parentBaseFee + max (scaled / gasTarget / denom) 1) U128_MAX
  else
    let scaled := min (parentBaseFee * (gasTarget - parentGasUsed)) U128_MAX
    parentBaseFee - scaled / gasTarget / denom

structure EvmDerivedEnv where
  evmNumber : ℕ
  evmTimestampSec : ℕ
  baseFeePerGas : ℕ
  prevRandao : EvmH256
  coinbase : EvmAddress
  gasLimit : ℕ
  chainId : ℕ
  deriving DecidableEq, Repr

structure TxEnv where
  gasLimit : ℕ
  gasPrice : ℕ
  gasPriorityFee : Option ℕ
  raw : Bytes
  deriving DecidableEq, Repr

structure Log where
  address : EvmAddress
  topics : List EvmH256
  data : Bytes
  deriving DecidableEq, Repr

structure ExecutionResult where
  succeeded : Bool
  gasUsed : ℕ
  logs : List Log
  deriving DecidableEq, Repr

inductive EvmError where
  | transaction (e : String)
  | other (e : String)
  deriving DecidableEq, Repr

/-- What the executor takes from outside the repository: the decoder and the hash of raw
transactions, `revm` with the precompiles registered, and two hashes. -/
structure Revm where
  decodeTxToEnv : Bytes → Except String TxEnv
  txHash : Bytes → EvmH256
  /-- `transact`: the result and the state to commit; the flag is for the verifying precompile. -/
  transact : EvmDerivedEnv → Bool → CacheDb → TxEnv → Except EvmError (ExecutionResult × CacheDb)
  /-- `blake2b_256_keyed` under the domain of `prevrandao`. -/
  prevRandao : Bytes → EvmH256
  /-- `keccak256("MisakaWithdraw(address,uint256,bytes)")`. -/
  withdrawTopic : EvmH256

structure AcceptedTxCandidate where
  raw : Bytes
  payloadCoinbase : EvmAddress
  deriving DecidableEq, Repr

structure EvmFences where
  gasPoolV2 : ℕ
  f002WithdrawCap : ℕ
  f003MldsaVerify : ℕ
  deriving DecidableEq, Repr

structure EvmBlockInput where
  parent : Option EvmExecutionHeader
  headerTimestampMs : ℕ
  selectedParentHash : Hash64
  blueWorkBe : Bytes
  daaScore : ℕ
  payload : EvmExecutionPayload
  acceptedTxs : List AcceptedTxCandidate
  deriving DecidableEq, Repr

def deriveEnv (M : Revm) (input : EvmBlockInput) : EvmDerivedEnv where
  evmNumber := input.parent.elim 0 (·.evmNumber) + 1
  evmTimestampSec := max (input.headerTimestampMs / 1000) (input.parent.elim 0 (·.evmTimestampSec))
  baseFeePerGas := input.parent.elim EVM_INITIAL_BASE_FEE fun p =>
    nextBaseFee (evmu256ToU128 p.baseFeePerGas) p.gasUsed
  prevRandao := M.prevRandao
    (hash64Bytes input.selectedParentHash ++ input.blueWorkBe ++ leBytes 8 input.daaScore)
  coinbase := input.payload.evmCoinbase
  gasLimit := EVM_GAS_LIMIT
  chainId := EVM_CHAIN_ID

structure ClaimEffects where
  db : CacheDb
  gasUsed : ℕ
  applied : List DepositClaim

def creditTip (db : CacheDb) (coinbase : EvmAddress) (tipWei : ℕ) : Except EvmExecError CacheDb :=
  if tipWei = 0 then .ok db else creditBalance db coinbase tipWei

def applyDepositClaim (coinbase : EvmAddress) (s : ClaimEffects) (claim : DepositClaim) :
    Except EvmExecError ClaimEffects := do
  let tipSompi := min claim.claimTipSompi claim.amountSompi
  let db ← creditBalance s.db claim.evmAddress ((claim.amountSompi - tipSompi) * EVM_NATIVE_SCALE)
  let db ← creditTip db coinbase (tipSompi * EVM_NATIVE_SCALE)
  return ⟨db, min (s.gasUsed + SYSTEM_DEPOSIT_GAS_PER_CLAIM) U64_MAX, s.applied ++ [claim]⟩

structure DecodedWithdraw where
  sender : EvmAddress
  amountWei : ℕ
  scriptPublicKey : ScriptPublicKey
  deriving DecidableEq, Repr

def withdrawInvariantsHold (amountWei : ℕ) (spk : ScriptPublicKey) : Except String Unit := do
  failIf (amountWei = 0) "withdraw amount is zero"
  failIf (amountWei % EVM_NATIVE_SCALE ≠ 0) "withdraw amount is not an exact sompi multiple"
  failIf (U64_MAX < amountWei / EVM_NATIVE_SCALE) "withdraw amount exceeds u64 sompi"
  failIf (MAX_WITHDRAW_SCRIPT_BYTES < spk.script.length) "destination script exceeds the byte cap"
  failIf (!(ScriptClass.fromScript spk).isPqStandard)
    "destination script is not the PQ-standard ML-DSA P2PKH class"

def beNat (b : Bytes) : ℕ := leNat b.reverse

def decodeWithdrawLog (M : Revm) (log : Log) : Option DecodedWithdraw :=
  if log.address ≠ MISAKA_WITHDRAW_PRECOMPILE ∨ log.topics ≠ [M.withdrawTopic] then none
  else if log.data.length < 20 + 32 + 2 then none
  else
    let amount := beNat ((log.data.drop 20).take 32)
    let spk : ScriptPublicKey := ⟨beNat ((log.data.drop 52).take 2), log.data.drop 54⟩
    if U128_MAX < amount then none
    else
      match withdrawInvariantsHold amount spk with
      | .error _ => none
      | .ok () => some ⟨log.data.take 20, amount, spk⟩

def decodedWithdraws (M : Revm) (result : ExecutionResult) : List DecodedWithdraw :=
  result.logs.filterMap (decodeWithdrawLog M)

def countWithdraws (M : Revm) (result : ExecutionResult) : ℕ := (decodedWithdraws M result).length

/-- `WithdrawOp` with the receipt it belongs to. -/
structure ReceiptWithdrawOp extends WithdrawOp where
  receiptIndex : ℕ
  deriving DecidableEq, Repr

def withdrawOps (M : Revm) (receiptIndex : ℕ) (evmTxHash : EvmH256) (result : ExecutionResult) :
    List ReceiptWithdrawOp :=
  (decodedWithdraws M result).mapIdx fun opIndex w =>
    { evmTxHash := evmTxHash
      opIndex := opIndex
      sender := w.sender
      amountSompi := w.amountWei / EVM_NATIVE_SCALE
      scriptPublicKey := w.scriptPublicKey
      receiptIndex := receiptIndex }

structure EvmReceipt where
  succeeded : Bool
  cumulativeGasUsed : ℕ
  gasUsed : ℕ
  logs : List Log
  deriving DecidableEq, Repr

structure LaneEffects where
  db : CacheDb
  gasUsed : ℕ
  txCumulativeGas : ℕ
  burnThisBlock : ℕ
  receipts : List EvmReceipt
  executedRaws : List Bytes
  withdrawals : List ReceiptWithdrawOp

def tipPerGas (basefee : ℕ) (tx : TxEnv) : ℕ :=
  match tx.gasPriorityFee with
  | some priority => min tx.gasPrice (min (basefee + priority) U256_MAX) - basefee
  | none => tx.gasPrice - basefee

def burnBasefee (burned basefee txGas : ℕ) : Except EvmExecError ℕ :=
  if U128_MAX < basefee * txGas ∨ U128_MAX < burned + basefee * txGas then
    .error (.invariantViolation .basefeeBurnOverflow)
  else .ok (burned + basefee * txGas)

def rerouteTip (db : CacheDb) (accepting payload : EvmAddress) (tip : ℕ) :
    Except EvmExecError CacheDb :=
  if tip ≠ 0 ∧ payload ≠ accepting then rerouteBalance db accepting payload tip else .ok db

def burnEscrow (db : CacheDb) (withdrawnWei : ℕ) : Except EvmExecError CacheDb :=
  if 0 < withdrawnWei then burnBalance db MISAKA_WITHDRAW_PRECOMPILE withdrawnWei else .ok db

variable (M : Revm)

def commitTx (env : EvmDerivedEnv) (cand : AcceptedTxCandidate) (tx : TxEnv) (s : LaneEffects)
    (result : ExecutionResult) (db : CacheDb) : Except EvmExecError LaneEffects := do
  let txGas := result.gasUsed
  let burned ← burnBasefee s.burnThisBlock env.baseFeePerGas txGas
  let tip := min (tipPerGas env.baseFeePerGas tx * txGas) U256_MAX
  let db ← rerouteTip db env.coinbase cand.payloadCoinbase tip
  let ops := withdrawOps M (s.receipts.length % 2 ^ 32) (M.txHash cand.raw) result
  let db ← burnEscrow db (satSum U128_MAX ((decodedWithdraws M result).map (·.amountWei)))
  let cumulative := min (s.txCumulativeGas + txGas) U64_MAX
  return {
    db := db
    gasUsed := min (s.gasUsed + txGas) U64_MAX
    txCumulativeGas := cumulative
    burnThisBlock := burned
    receipts := s.receipts ++ [⟨result.succeeded, cumulative, txGas, result.logs⟩]
    executedRaws := s.executedRaws ++ [cand.raw]
    withdrawals := s.withdrawals ++ ops }

/-- Run a transaction: `none` is a skip of class 2, by `revm` or by the withdrawal cap. -/
def attempt (env : EvmDerivedEnv) (f003Active capActive : Bool) (s : LaneEffects) (tx : TxEnv) :
    Except EvmExecError (Option (ExecutionResult × CacheDb)) :=
  match M.transact env f003Active s.db tx with
  | .error (.transaction _) => .ok none
  | .error (.other e) => .error (.invalidTx e)
  | .ok (result, db) =>
    if capActive ∧
        MAX_WITHDRAWALS_PER_EVM_BLOCK < s.withdrawals.length + countWithdraws M result then
      .ok none
    else .ok (some (result, db))

inductive EvmCandidateOutcome where
  | accepted (receiptIndex : ℕ)
  | skipped (cls : ℕ)
  deriving DecidableEq, Repr

def EvmCandidateOutcome.isAccepted : EvmCandidateOutcome → Bool
  | .accepted _ => true
  | .skipped _ => false

structure LaneState where
  effects : LaneEffects
  skippedTxCount : ℕ
  outcomes : List EvmCandidateOutcome

def LaneState.skip (s : LaneState) (cls : ℕ) : LaneState :=
  { s with skippedTxCount := s.skippedTxCount + 1, outcomes := s.outcomes ++ [.skipped cls] }

def LaneState.accept (s : LaneState) (effects : LaneEffects) : LaneState :=
  { s with
    effects := effects
    outcomes := s.outcomes ++ [.accepted (s.effects.receipts.length % 2 ^ 32)] }

def planPrefix (userGasBudget : ℕ) : ℕ → Bool → List AcceptedTxCandidate → List (Except ℕ TxEnv)
  | _, _, [] => []
  | cumulative, true, _ :: cs => .error 5 :: planPrefix userGasBudget cumulative true cs
  | cumulative, false, c :: cs =>
    match M.decodeTxToEnv c.raw with
    | .error _ => .error 1 :: planPrefix userGasBudget cumulative false cs
    | .ok tx =>
      let cumulative := min (cumulative + tx.gasLimit) U64_MAX
      if userGasBudget < cumulative then .error 5 :: planPrefix userGasBudget cumulative true cs
      else .ok tx :: planPrefix userGasBudget cumulative false cs

def stepPlanned (env : EvmDerivedEnv) (f003Active capActive : Bool) (s : LaneState)
    (planned : AcceptedTxCandidate × Except ℕ TxEnv) : Except EvmExecError LaneState :=
  match planned.2 with
  | .error cls => .ok (s.skip cls)
  | .ok tx => do
    match ← attempt M env f003Active capActive s.effects tx with
    | none => return s.skip 2
    | some (result, db) => return s.accept (← commitTx M env planned.1 tx s.effects result db)

structure PoolState where
  lane : LaneState
  remainingUserGas : ℕ
  acceptedHashes : List EvmH256

def PoolState.skip (s : PoolState) (cls : ℕ) : PoolState := { s with lane := s.lane.skip cls }

def debitPool (remaining txGas : ℕ) : Except EvmExecError ℕ :=
  if remaining < txGas then .error (.invariantViolation .gasPoolBelowZero)
  else .ok (remaining - txGas)

def stepPool (env : EvmDerivedEnv) (f003Active capActive : Bool) (s : PoolState)
    (cand : AcceptedTxCandidate) : Except EvmExecError PoolState :=
  let evmTxHash := M.txHash cand.raw
  if evmTxHash ∈ s.acceptedHashes then .ok (s.skip 3)
  else
    match M.decodeTxToEnv cand.raw with
    | .error _ => .ok (s.skip 1)
    | .ok tx =>
      if s.remainingUserGas < tx.gasLimit then .ok (s.skip 5)
      else do
        match ← attempt M env f003Active capActive s.lane.effects tx with
        | none => return s.skip 2
        | some (result, db) =>
          let remaining ← debitPool s.remainingUserGas result.gasUsed
          let effects ← commitTx M env cand tx s.lane.effects result db
          return ⟨s.lane.accept effects, remaining, evmTxHash :: s.acceptedHashes⟩

def runCandidates (env : EvmDerivedEnv) (poolActive f003Active capActive : Bool)
    (userGasBudget : ℕ) (cands : List AcceptedTxCandidate) (s : LaneEffects) :
    Except EvmExecError LaneState :=
  if poolActive then
    (cands.foldlM (stepPool M env f003Active capActive) ⟨⟨s, 0, []⟩, userGasBudget, []⟩).map
      (·.lane)
  else
    (cands.zip (planPrefix M userGasBudget 0 false cands)).foldlM
      (stepPlanned M env f003Active capActive) ⟨s, 0, []⟩

/-- `EvmExecutionResult`. -/
structure EvmBlockResult where
  header : EvmExecutionHeader
  receipts : List EvmReceipt
  withdrawals : List ReceiptWithdrawOp
  appliedDepositClaims : List DepositClaim
  candidateOutcomes : List EvmCandidateOutcome
  deriving DecidableEq, Repr

/-- A `u128` sum, which panics on overflow. -/
def sumU128 (l : List ℕ) : Except EvmExecError ℕ :=
  if l.sum ≤ U128_MAX then .ok l.sum else .error .sumOverflow

def userGasBudget (systemGas : ℕ) : Except EvmExecError ℕ :=
  if MAX_EVM_ACCEPTED_GAS_PER_CHAIN_BLOCK < systemGas then
    .error (.invariantViolation (.systemGasExceedsBlockCap systemGas))
  else .ok (MAX_EVM_ACCEPTED_GAS_PER_CHAIN_BLOCK - systemGas)

def accumulateBurn (parentBurn burned : ℕ) : Except EvmExecError ℕ :=
  if U128_MAX < parentBurn + burned then .error (.invariantViolation .burnAccumulatorOverflow)
  else .ok (parentBurn + burned)

/-- Deposit claims, then the accepted transactions. -/
def executeBlockEvm (fences : EvmFences) (db : CacheDb) (input : EvmBlockInput) :
    Except EvmExecError (EvmBlockResult × CacheDb) := do
  let env := deriveEnv M input
  let claims ← input.payload.systemOps.foldlM (applyDepositClaim env.coinbase) ⟨db, 0, []⟩
  let budget ← userGasBudget claims.gasUsed
  let lane ← runCandidates M env (decide (fences.gasPoolV2 ≤ input.daaScore))
    (decide (fences.f003MldsaVerify ≤ input.daaScore))
    (decide (fences.f002WithdrawCap ≤ input.daaScore)) budget input.acceptedTxs
    ⟨claims.db, claims.gasUsed, 0, 0, [], [], []⟩
  let parentBurn := input.parent.elim 0 fun p => evmu256ToU128 p.evmBurnAccumulator
  let parentTotal := input.parent.elim 0 fun p => evmu256ToU128 p.evmTotalNativeBalance
  let deposited ← sumU128 (claims.applied.map (·.amountSompi * EVM_NATIVE_SCALE))
  let withdrawn ← sumU128 (lane.effects.withdrawals.map (·.amountSompi * EVM_NATIVE_SCALE))
  let total := min (parentTotal + deposited) U128_MAX - withdrawn - lane.effects.burnThisBlock
  let burnAccumulator ← accumulateBurn parentBurn lane.effects.burnThisBlock
  let header : EvmExecutionHeader := {
    gasUsed := lane.effects.gasUsed
    gasLimit := env.gasLimit
    baseFeePerGas := env.baseFeePerGas
    evmNumber := env.evmNumber
    evmTimestampSec := env.evmTimestampSec
    evmChainId := env.chainId
    coinbase := input.payload.evmCoinbase
    acceptedTxCount := lane.effects.receipts.length % 2 ^ 32
    skippedTxCount := lane.skippedTxCount
    evmTotalNativeBalance := total
    evmBurnAccumulator := burnAccumulator }
  return (⟨header, lane.effects.receipts, lane.effects.withdrawals, claims.applied, lane.outcomes⟩,
    lane.effects.db)

end Misaka.Evm
