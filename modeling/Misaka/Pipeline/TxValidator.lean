import Misaka.Chain.Script
import Misaka.Chain.Utxo
import Misaka.Dns.Coinbase

/-!
# The transaction validator

`TransactionValidator` of `consensus/src/processes/transaction_validator`. The script engine, the
storage mass and the payload rules of the replica lane are fields of the validator.
-/

namespace Misaka.Pipeline

open Misaka.Core Dns

def MAX_SOMPI : ℕ := 26013224875 * 100000000
def LOCK_TIME_THRESHOLD : ℕ := 500000000000
def SEQUENCE_LOCK_TIME_MASK : ℕ := 0xffffffff
def SEQUENCE_LOCK_TIME_DISABLED : ℕ := 2 ^ 63

inductive TxRuleError where
  | noTxInputs
  | txDuplicateInputs
  | txHasGas
  | unknownTxVersion (version : ℕ)
  | tooManyInputs (n limit : ℕ)
  | tooManyOutputs (n limit : ℕ)
  | tooBigSignatureScript (i limit : ℕ)
  | tooBigScriptPublicKey (i limit : ℕ)
  | notFinalized (i : ℕ)
  | coinbaseHasInputs (n : ℕ)
  | coinbaseTooManyOutputs (n limit : ℕ)
  | coinbaseScriptPublicKeyTooLong (i : ℕ)
  | coinbaseNonZeroMassCommitment
  | immatureCoinbaseSpend (i : ℕ) (o : TransactionOutpoint) (entryDaa povDaa maturity : ℕ)
  | inputAmountOverflow
  | inputAmountTooHigh
  | txOutZero (i : ℕ)
  | txOutTooHigh (i : ℕ)
  | outputsValueOverflow
  | totalTxOutTooHigh
  | spendTooHigh (outputs inputs : ℕ)
  | sequenceLockConditionsAreNotMet
  | missingTxOutpoints
  | signatureInvalid (e : String)
  | signatureEmpty (e : String)
  | massIncomputable
  | wrongMass (calculated committed : ℕ)
  | subnetworksDisabled (id : SubnetworkId)
  | invalidDnsOverlayPayload (e : DnsTxError)
  | invalidPalwOverlayPayload (e : String)
  | nonCanonicalPalwAuthorizationTx (field : String)
  | feerateTooLow
  | nonPqStandardOutputClass (i : ℕ)
  | nonPqStandardInputClass (i : ℕ)
  | evmDepositLockNotRefundableYet (i povDaa timeout : ℕ)
  | evmDepositLockTipExceedsValue (i tip value : ℕ)
  | spendsNonReleasableBond (o : TransactionOutpoint)
  | spendsNonReleasableProviderBond (o : TransactionOutpoint)
  | unauthorizedProviderUnbond (o : TransactionOutpoint)
  deriving DecidableEq, Repr

inductive TxValidationFlags where
  | full
  | skipScriptChecks
  | skipMassCheck
  deriving DecidableEq, Repr

structure TransactionValidator where
  maxTxInputs : ℕ
  maxTxOutputs : ℕ
  maxSignatureScriptLen : ℕ
  maxScriptPublicKeyLen : ℕ
  coinbasePayloadScriptPublicKeyMaxLen : ℕ
  coinbaseMaturity : ℕ
  ghostdagK : ℕ
  /-- Is the enforcement mode `Consensus`. -/
  pqEnforced : Bool
  pqActivationDaaScore : ℕ
  palwLanePresent : Bool
  /-- `validate_palw_overlay_tx`, with the text of its error. -/
  validatePalwOverlayTx : UInt8 → Bytes → List TransactionOutput → Except String Unit
  /-- `calc_contextual_masses`: the storage mass of a populated transaction, if computable. -/
  storageMass : Transaction → List UtxoEntry → Option ℕ
  /-- `calc_non_contextual_masses`. -/
  nonContextualMass : Transaction → ℕ
  /-- The script engine on one input, under the post-quantum policy or not. -/
  executeScript : Bool → Transaction → List UtxoEntry → ℕ → Except String Unit

/-- `matches!(self.resolved_script_policy(..), PQ_ONLY)`. -/
def TransactionValidator.pqOnly (T : TransactionValidator) (povDaaScore : ℕ) : Bool :=
  T.pqEnforced && T.pqActivationDaaScore ≤ povDaaScore

def checkEach {α : Type} (check : ℕ → α → Except TxRuleError Unit) (l : List α) :
    Except TxRuleError Unit :=
  l.zipIdx.forM fun p => check p.2 p.1

def reject (condition : Bool) (e : TxRuleError) : Except TxRuleError Unit :=
  if condition then .error e else .ok ()

def checkPalwBlockAuthorizationShape (tx : Transaction) : Except TxRuleError Unit :=
  if tx.subnetworkId ≠ SUBNETWORK_ID_PALW_BLOCK_AUTHORIZATION then .ok ()
  else do
    reject (tx.version ≠ TX_VERSION) (.nonCanonicalPalwAuthorizationTx "version")
    reject (tx.inputs ≠ []) (.nonCanonicalPalwAuthorizationTx "inputs")
    reject (tx.outputs ≠ []) (.nonCanonicalPalwAuthorizationTx "outputs")
    reject (tx.lockTime ≠ 0) (.nonCanonicalPalwAuthorizationTx "lock_time")
    reject (tx.gas ≠ 0) (.nonCanonicalPalwAuthorizationTx "gas")
    reject (tx.mass ≠ 0) (.nonCanonicalPalwAuthorizationTx "mass")

def checkTransactionOutputValueRanges (tx : Transaction) : Except TxRuleError Unit := do
  let _ ← tx.outputs.zipIdx.foldlM (fun total p => do
    reject (p.1.value = 0) (.txOutZero p.2)
    reject (MAX_SOMPI < p.1.value) (.txOutTooHigh p.2)
    reject (U64_MAX < total + p.1.value) .outputsValueOverflow
    reject (MAX_SOMPI < total + p.1.value) .totalTxOutTooHigh
    return total + p.1.value) 0

def checkDuplicateTransactionInputs (tx : Transaction) : Except TxRuleError Unit :=
  reject (!decide (tx.inputs.map (·.previousOutpoint)).Nodup) .txDuplicateInputs

namespace TransactionValidator

variable (T : TransactionValidator) (P : Primitives)

def checkTransactionInputsInIsolation (tx : Transaction) : Except TxRuleError Unit := do
  reject (!tx.isCoinbase && tx.subnetworkId ≠ SUBNETWORK_ID_PALW_BLOCK_AUTHORIZATION &&
    tx.inputs = []) .noTxInputs
  reject (T.maxTxInputs < tx.inputs.length) (.tooManyInputs tx.inputs.length T.maxTxInputs)
  checkEach (fun i input => reject (T.maxSignatureScriptLen < input.signatureScript.length)
    (.tooBigSignatureScript i T.maxSignatureScriptLen)) tx.inputs

/-- The error reports the limit on inputs, as the source does. -/
def checkTransactionOutputsInIsolation (tx : Transaction) : Except TxRuleError Unit := do
  reject (!tx.isCoinbase && T.maxTxOutputs < tx.outputs.length)
    (.tooManyOutputs tx.outputs.length T.maxTxInputs)
  checkEach (fun i out => reject (T.maxScriptPublicKeyLen < out.scriptPublicKey.script.length)
    (.tooBigScriptPublicKey i T.maxScriptPublicKeyLen)) tx.outputs

def checkTransactionPqOutputClasses (tx : Transaction) : Except TxRuleError Unit :=
  if !T.pqEnforced then .ok ()
  else checkEach (fun i out =>
    match parseEvmDepositLock out.scriptPublicKey with
    | some lock => reject (out.value < lock.claimTipSompi)
        (.evmDepositLockTipExceedsValue i lock.claimTipSompi out.value)
    | none => reject (!(ScriptClass.fromScript out.scriptPublicKey).isPqStandard)
        (.nonPqStandardOutputClass i)) tx.outputs

def coinbaseOutputsLimit : ℕ :=
  if T.palwLanePresent then 3 * (T.ghostdagK + 1) + 1 else T.ghostdagK + 1 + 1

def checkCoinbaseInIsolation (tx : Transaction) : Except TxRuleError Unit :=
  if !tx.isCoinbase then .ok ()
  else do
    reject (tx.inputs ≠ []) (.coinbaseHasInputs tx.inputs.length)
    reject (0 < tx.mass) .coinbaseNonZeroMassCommitment
    reject (T.coinbaseOutputsLimit < tx.outputs.length)
      (.coinbaseTooManyOutputs tx.outputs.length T.coinbaseOutputsLimit)
    checkEach (fun i out => reject
      (T.coinbasePayloadScriptPublicKeyMaxLen < out.scriptPublicKey.script.length)
      (.coinbaseScriptPublicKeyTooLong i)) tx.outputs

def checkTransactionSubnetwork (tx : Transaction) : Except TxRuleError Unit :=
  if tx.isCoinbase || tx.subnetworkId == SUBNETWORK_ID_NATIVE then .ok ()
  else if (dnsTxKind tx.subnetworkId).isSome then
    (validateDnsOverlayTx P tx).mapError .invalidDnsOverlayPayload
  else
    match tx.subnetworkId.palwTxKind with
    | some kind =>
      (T.validatePalwOverlayTx kind tx.payload tx.outputs).mapError .invalidPalwOverlayPayload
    | none => .error (.subnetworksDisabled tx.subnetworkId)

def validateTxInIsolation (tx : Transaction) : Except TxRuleError Unit := do
  checkPalwBlockAuthorizationShape tx
  T.checkTransactionInputsInIsolation tx
  T.checkTransactionOutputsInIsolation tx
  T.checkTransactionPqOutputClasses tx
  T.checkCoinbaseInIsolation tx
  checkTransactionOutputValueRanges tx
  checkDuplicateTransactionInputs tx
  reject (0 < tx.gas) .txHasGas
  T.checkTransactionSubnetwork P tx
  reject (tx.version ≠ TX_VERSION) (.unknownTxVersion tx.version)

end TransactionValidator

def validateTxInHeaderContextWithArgs (tx : Transaction) (ctxDaaScore ctxBlockTime : ℕ) :
    Except TxRuleError Unit :=
  if tx.lockTime = 0 then .ok ()
  else
    let now := if tx.lockTime < LOCK_TIME_THRESHOLD then ctxDaaScore else ctxBlockTime
    if tx.lockTime < now then .ok ()
    else checkEach (fun i input => reject (input.sequence ≠ U64_MAX) (.notFinalized i)) tx.inputs

def toI64 (n : ℕ) : ℤ := Int.bmod n (2 ^ 64)

def checkSequenceLock (tx : Transaction) (entries : List UtxoEntry) (povDaaScore : ℕ) :
    Except TxRuleError Unit :=
  reject ((tx.inputs.zip entries).any fun p =>
    p.1.sequence &&& SEQUENCE_LOCK_TIME_DISABLED ≠ SEQUENCE_LOCK_TIME_DISABLED &&
      decide (toI64 povDaaScore ≤
        toI64 p.2.blockDaaScore + toI64 (p.1.sequence &&& SEQUENCE_LOCK_TIME_MASK) - 1))
    .sequenceLockConditionsAreNotMet

def checkTransactionInputAmounts (entries : List UtxoEntry) : Except TxRuleError ℕ :=
  entries.foldlM (fun total entry => do
    reject (U64_MAX < total + entry.amount) .inputAmountOverflow
    reject (MAX_SOMPI < total + entry.amount) .inputAmountTooHigh
    return total + entry.amount) 0

def checkOutputValuesAndComputeFee (tx : Transaction) (totalIn : ℕ) : Except TxRuleError ℕ :=
  let totalOut := (tx.outputs.map (·.value)).sum
  if totalIn < totalOut then .error (.spendTooHigh totalOut totalIn) else .ok (totalIn - totalOut)

namespace TransactionValidator

variable (T : TransactionValidator)

def checkTransactionCoinbaseMaturity (tx : Transaction) (entries : List UtxoEntry)
    (povDaaScore : ℕ) : Except TxRuleError Unit :=
  checkEach (fun i p => reject
    (p.2.isCoinbase && povDaaScore < p.2.blockDaaScore + T.coinbaseMaturity)
    (.immatureCoinbaseSpend i p.1.previousOutpoint p.2.blockDaaScore povDaaScore
      T.coinbaseMaturity)) (tx.inputs.zip entries)

def checkMassCommitment (tx : Transaction) (entries : List UtxoEntry) : Except TxRuleError Unit :=
  match T.storageMass tx entries with
  | none => .error .massIncomputable
  | some mass => reject (tx.mass ≠ mass) (.wrongMass mass tx.mass)

def checkInputScriptClasses (entries : List UtxoEntry) (povDaaScore : ℕ) :
    Except TxRuleError Unit :=
  checkEach (fun i entry =>
    match parseEvmDepositLock entry.scriptPublicKey with
    | some lock => reject (povDaaScore < lock.timeoutDaaScore)
        (.evmDepositLockNotRefundableYet i povDaaScore lock.timeoutDaaScore)
    | none => reject (!(ScriptClass.fromScript entry.scriptPublicKey).isPqStandard)
        (.nonPqStandardInputClass i)) entries

def checkScripts (pqOnly : Bool) (tx : Transaction) (entries : List UtxoEntry) :
    Except TxRuleError Unit :=
  checkEach (fun i input => (T.executeScript pqOnly tx entries i).mapError
    (if input.signatureScript = [] then .signatureEmpty else .signatureInvalid)) tx.inputs

/-- The rules over the spent entries. -/
def validatePopulatedTransactionAndGetFee (tx : Transaction) (entries : List UtxoEntry)
    (povDaaScore : ℕ) (flags : TxValidationFlags) (feerateTooLow : ℕ → Bool) :
    Except TxRuleError ℕ := do
  T.checkTransactionCoinbaseMaturity tx entries povDaaScore
  let totalIn ← checkTransactionInputAmounts entries
  let fee ← checkOutputValuesAndComputeFee tx totalIn
  if flags ≠ .skipMassCheck then T.checkMassCommitment tx entries
  checkSequenceLock tx entries povDaaScore
  reject (feerateTooLow fee) .feerateTooLow
  if flags ≠ .skipScriptChecks then
    if T.pqOnly povDaaScore then checkInputScriptClasses entries povDaaScore
    T.checkScripts (T.pqOnly povDaaScore) tx entries
  return fee

end TransactionValidator

theorem exists_of_checkEach {α : Type} {check : ℕ → α → Except TxRuleError Unit} {l : List α}
    (h : checkEach check l = .ok ()) {a : α} (ha : a ∈ l) : ∃ i, check i a = .ok () := by
  obtain ⟨i, hi⟩ := List.mem_iff_getElem?.mp ha
  exact ⟨i, forM_eq_ok_iff.mp h (a, i) (List.mem_zipIdx_iff_getElem?.mpr hi)⟩

variable {tx : Transaction} {entries : List UtxoEntry} {pov : ℕ} {feerateTooLow : ℕ → Bool}

theorem inputScriptClasses_of_validatePopulated {T : TransactionValidator} {fee : ℕ}
    (hpq : T.pqOnly pov)
    (h : T.validatePopulatedTransactionAndGetFee tx entries pov .full feerateTooLow =
      .ok fee) : TransactionValidator.checkInputScriptClasses entries pov = .ok () := by
  unfold TransactionValidator.validatePopulatedTransactionAndGetFee at h
  simp only [ne_eq, reduceCtorEq, not_false_eq_true, if_true, hpq, bind_eq_ok] at h
  obtain ⟨_, -, _, -, _, -, _, -, _, -, _, -, _, hclasses, -⟩ := h
  exact hclasses

theorem timeout_le_of_validatePopulated {T : TransactionValidator} {fee : ℕ}
    (hpq : T.pqOnly pov)
    (h : T.validatePopulatedTransactionAndGetFee tx entries pov .full feerateTooLow =
      .ok fee) {entry : UtxoEntry} (hentry : entry ∈ entries) {lock : EvmDepositLockFields}
    (hlock : parseEvmDepositLock entry.scriptPublicKey = some lock) :
    lock.timeoutDaaScore ≤ pov := by
  obtain ⟨i, hi⟩ := exists_of_checkEach (inputScriptClasses_of_validatePopulated hpq h) hentry
  simp only [hlock, reject] at hi
  split at hi
  · cases hi
  · next hle => simpa using hle

end Misaka.Pipeline
