import Misaka.Core.Table
import Misaka.Dns.FeeSplit

/-!
# The coinbase transaction

`CoinbaseManager` of `consensus/src/processes/coinbase.rs`. The source builds with overflow checks,
so plain additions, lookups and the expected carve are faults of their own beside the returned
errors.
-/

namespace Misaka.Dns

open Misaka.Core List Option

inductive CoinbaseError where
  | payloadLenBelowMin (len minLen : ℕ)
  | payloadLenAboveMax (len maxLen : ℕ)
  | payloadScriptPublicKeyLenAboveMax (len maxLen : ℕ)
  | payloadCantContainScriptPublicKey (len needed : ℕ)
  deriving DecidableEq, Repr

inductive CoinbaseFault where
  | returned (e : CoinbaseError)
  | rewardDataMissing (block : BlockHash)
  | carveMissing
  | overflow
  deriving DecidableEq, Repr

inductive WorkRewardClass where
  | hashMiner
  | replicaPalw (batchId : Hash64) (leafIndex : ℕ)
      (providerAScript providerBScript : ScriptPublicKey) (premiumPiBps : ℕ)
  | replicaPalwHalted (batchId : Hash64) (leafIndex : ℕ)
  | replicaPalwDuplicateWork (batchId : Hash64) (leafIndex : ℕ) (jobNullifier : Hash64)
  | replicaPalwUnbackedCollateral (batchId : Hash64) (leafIndex : ℕ)
      (providerABond providerBBond : TransactionOutpoint)
  deriving DecidableEq, Repr

structure BlockRewardData where
  subsidy : ℕ
  totalFees : ℕ
  finalityFees : ℕ
  scriptPublicKey : ScriptPublicKey
  workRewardClass : WorkRewardClass
  deriving DecidableEq, Repr

structure MinerData where
  scriptPublicKey : ScriptPublicKey
  extraData : Bytes
  deriving DecidableEq, Repr, Inhabited

structure CoinbaseData where
  blueScore : ℕ
  subsidy : ℕ
  minerData : MinerData
  deriving DecidableEq, Repr

/-- What the coinbase reads of a block's mergeset: colours, rewards and the blocks outside the
difficulty window. -/
structure MergesetRewards where
  blueScore : ℕ
  mergesetBlues : List BlockHash
  mergesetReds : List BlockHash
  mergesetNonDaa : List BlockHash
  rewards : Table BlockHash BlockRewardData

structure CoinbaseManager where
  coinbasePayloadScriptPublicKeyMaxLen : ℕ
  maxCoinbasePayloadLen : ℕ
  deflationaryPhaseDaaScore : ℕ
  preDeflationaryPhaseBaseSubsidy : ℕ
  bpsBefore : ℕ
  bpsAfter : ℕ
  crescendoActivationDaaScore : ℕ
  subsidyByMonthTableBefore : List ℕ
  subsidyByMonthTableAfter : List ℕ

structure CoinbaseTransactionTemplate where
  tx : Transaction
  hasRedReward : Bool
  minerScriptOutputIndices : List ℕ

namespace CoinbaseManager

def SECONDS_PER_MONTH : ℕ := 2629800

def subsidyMonth (m : CoinbaseManager) (daaScore : ℕ) : ℕ :=
  let seconds :=
    if m.crescendoActivationDaaScore < m.deflationaryPhaseDaaScore then
      (daaScore - m.deflationaryPhaseDaaScore) / m.bpsAfter
    else if daaScore < m.crescendoActivationDaaScore then
      (daaScore - m.deflationaryPhaseDaaScore) / m.bpsBefore
    else
      (m.crescendoActivationDaaScore - m.deflationaryPhaseDaaScore) / m.bpsBefore +
        (daaScore - m.crescendoActivationDaaScore) / m.bpsAfter
  seconds / SECONDS_PER_MONTH

/-- The subsidy, by the month since the deflation began. -/
def calcBlockSubsidy (m : CoinbaseManager) (daaScore : ℕ) : ℕ :=
  if daaScore < m.deflationaryPhaseDaaScore then m.preDeflationaryPhaseBaseSubsidy
  else
    let table := if m.crescendoActivationDaaScore ≤ daaScore then m.subsidyByMonthTableAfter
      else m.subsidyByMonthTableBefore
    table.getD (min (m.subsidyMonth daaScore) (table.length - 1)) 0

def serializeCoinbasePayload (m : CoinbaseManager) (data : CoinbaseData) :
    Except CoinbaseError Bytes :=
  let spk := data.minerData.scriptPublicKey
  if m.coinbasePayloadScriptPublicKeyMaxLen < spk.script.length then
    .error (.payloadScriptPublicKeyLenAboveMax spk.script.length
      m.coinbasePayloadScriptPublicKeyMaxLen)
  else
    .ok (leBytes 8 data.blueScore ++ leBytes 8 data.subsidy ++ leBytes 2 spk.version ++
      leBytes 1 spk.script.length ++ spk.script ++ data.minerData.extraData)

def MIN_PAYLOAD_LENGTH : ℕ := 8 + 8 + 2 + 1

def deserializeCoinbasePayload (m : CoinbaseManager) (payload : Bytes) :
    Except CoinbaseError CoinbaseData :=
  if payload.length < MIN_PAYLOAD_LENGTH then
    .error (.payloadLenBelowMin payload.length MIN_PAYLOAD_LENGTH)
  else if m.maxCoinbasePayloadLen < payload.length then
    .error (.payloadLenAboveMax payload.length m.maxCoinbasePayloadLen)
  else
    let scriptLen := leNat ((payload.drop 18).take 1)
    let remaining := payload.drop MIN_PAYLOAD_LENGTH
    if m.coinbasePayloadScriptPublicKeyMaxLen < scriptLen then
      .error (.payloadScriptPublicKeyLenAboveMax scriptLen m.coinbasePayloadScriptPublicKeyMaxLen)
    else if remaining.length < scriptLen then
      .error (.payloadCantContainScriptPublicKey payload.length (MIN_PAYLOAD_LENGTH + scriptLen))
    else .ok
      { blueScore := leNat (payload.take 8)
        subsidy := leNat ((payload.drop 8).take 8)
        minerData :=
          { scriptPublicKey :=
              ⟨leNat ((payload.drop 16).take 2), remaining.take scriptLen⟩
            extraData := remaining.drop scriptLen } }

end CoinbaseManager

/-! ## Reading a payload back -/

section Payload

variable {m : CoinbaseManager} {data : CoinbaseData} {payload : Bytes}

structure CoinbaseData.Typed (data : CoinbaseData) : Prop where
  blueScore_lt : data.blueScore < 2 ^ 64
  subsidy_lt : data.subsidy < 2 ^ 64
  version_lt : data.minerData.scriptPublicKey.version < 2 ^ 16

theorem length_of_serializeCoinbasePayload (h : m.serializeCoinbasePayload data = .ok payload) :
    payload.length = CoinbaseManager.MIN_PAYLOAD_LENGTH +
      data.minerData.scriptPublicKey.script.length + data.minerData.extraData.length := by
  unfold CoinbaseManager.serializeCoinbasePayload at h
  dsimp only at h
  split at h
  · cases h
  · cases h
    simp only [length_append, length_leBytes, CoinbaseManager.MIN_PAYLOAD_LENGTH]

/-- Serializing does not look at the length of the extra data, reading back does: a payload is read
back exactly when it fits the limit. -/
theorem deserialize_serialize (htyped : data.Typed)
    (hmax : m.coinbasePayloadScriptPublicKeyMaxLen < 256)
    (h : m.serializeCoinbasePayload data = .ok payload) :
    m.deserializeCoinbasePayload payload =
      if m.maxCoinbasePayloadLen < payload.length then
        .error (.payloadLenAboveMax payload.length m.maxCoinbasePayloadLen)
      else .ok data := by
  have hlen := length_of_serializeCoinbasePayload h
  unfold CoinbaseManager.serializeCoinbasePayload at h
  dsimp only at h
  split at h
  · cases h
  · next hscript =>
    obtain ⟨blueScore, subsidy, ⟨version, script⟩, extraData⟩ := data
    obtain ⟨hblue, hsubsidy, hversion⟩ := htyped
    simp only at h hlen hscript hblue hsubsidy hversion
    have hscriptLen : leNat (leBytes 1 script.length) = script.length :=
      leNat_leBytes (by omega)
    unfold CoinbaseManager.deserializeCoinbasePayload
    rw [if_neg (by omega)]
    split
    · rfl
    · -- cut the payload at the field boundaries
      cases h
      have h8 : (leBytes 8 blueScore).length = 8 := length_leBytes 8 _
      simp only [append_assoc, CoinbaseManager.MIN_PAYLOAD_LENGTH] at hlen ⊢
      have hdrop8 (b : Bytes) : (leBytes 8 blueScore ++ b).drop 8 = b :=
        drop_left' h8
      have hdrop16 (b : Bytes) :
          (leBytes 8 blueScore ++ (leBytes 8 subsidy ++ b)).drop 16 = b := by
        rw [← append_assoc]
        exact drop_left' (by simp)
      have hdrop18 (b : Bytes) : (leBytes 8 blueScore ++ (leBytes 8 subsidy ++
          (leBytes 2 version ++ b))).drop 18 = b := by
        rw [← append_assoc, ← append_assoc]
        exact drop_left' (by simp)
      have hdrop19 (b : Bytes) : (leBytes 8 blueScore ++ (leBytes 8 subsidy ++
          (leBytes 2 version ++ (leBytes 1 script.length ++ b)))).drop (8 + 8 + 2 + 1) = b := by
        rw [← append_assoc, ← append_assoc, ← append_assoc]
        exact drop_left' (by simp)
      have htake (width n : ℕ) (b : Bytes) : (leBytes width n ++ b).take width = leBytes width n :=
        take_left' (length_leBytes width n)
      simp only [hdrop8, hdrop16, hdrop18, hdrop19, htake, hscriptLen, take_left,
        drop_left, length_append]
      rw [if_neg hscript, if_neg (by omega), leNat_leBytes (by omega), leNat_leBytes (by omega),
        leNat_leBytes (by omega)]

end Payload

/-- `a + b` of `u64`: the release profile has overflow checks. -/
def addU64 (a b : ℕ) : Except CoinbaseFault ℕ :=
  if a + b ≤ U64_MAX then .ok (a + b) else .error .overflow

/-- `mergeset_rewards.get(block).unwrap()`. -/
def MergesetRewards.rewardData (ms : MergesetRewards) (block : BlockHash) :
    Except CoinbaseFault BlockRewardData :=
  match ms.rewards.lookup block with
  | none => .error (.rewardDataMissing block)
  | some r => .ok r

def MergesetRewards.daaBlues (ms : MergesetRewards) : List BlockHash :=
  ms.mergesetBlues.filter (· ∉ ms.mergesetNonDaa)

def MergesetRewards.redSubsidy (ms : MergesetRewards) (block : BlockHash) (r : BlockRewardData) :
    ℕ :=
  if block ∈ ms.mergesetNonDaa then 0 else r.subsidy

def positiveOutput (value : ℕ) (spk : ScriptPublicKey) : List TransactionOutput :=
  if 0 < value then [⟨value, spk⟩] else []

@[simp] theorem outputsValue_positiveOutput (value : ℕ) (spk : ScriptPublicKey) :
    outputsValue (positiveOutput value spk) = value := by
  unfold positiveOutput
  split
  · simp
  · next h => exact (Nat.eq_zero_of_not_pos h).symm

/-! ## Worker outputs -/

def workerFees (fs : FeeSplitParams) (totalFees finalityFees : ℕ) : ℕ × ℕ :=
  let finality := min finalityFees totalFees
  ((splitNormalTxFees (totalFees - finality) fs).workerSompi,
    (splitFinalityFees finality fs).workerSompi)

/-- What a hash-lane source pays its worker, and its share of the inclusion pool. -/
def payHashMiner (carve : Option FeeSplitParams) (subsidy totalFees finalityFees : ℕ) :
    Except CoinbaseFault (ℕ × ℕ) :=
  match carve with
  | some fs =>
    let s := splitBlockSubsidy subsidy fs
    let fees := workerFees fs totalFees finalityFees
    .ok (min (min (s.workerBaseSompi + fees.1) U64_MAX + fees.2) U64_MAX, s.workerInclusionSompi)
  | none => do
    let value ← addU64 subsidy totalFees
    return (value, 0)

def payBlue (carve : Option FeeSplitParams) (r : BlockRewardData) :
    Except CoinbaseFault (List TransactionOutput × ℕ) :=
  match r.workRewardClass with
  | .hashMiner => do
    let (value, inclusion) ← payHashMiner carve r.subsidy r.totalFees r.finalityFees
    return (positiveOutput value r.scriptPublicKey, inclusion)
  | .replicaPalw _ _ providerAScript providerBScript premiumPiBps =>
    match carve with
    | none => .error .carveMissing
    | some fs =>
      let palw := fs.palwLane
      let s := splitBlockSubsidy r.subsidy palw
      let split := premiumSplit s.workerBaseSompi 1 premiumPiBps
      let fees := workerFees palw r.totalFees r.finalityFees
      .ok (positiveOutput split.1 providerAScript ++
        positiveOutput (split.2.1 + split.2.2) providerBScript ++
        positiveOutput (min (fees.1 + fees.2) U64_MAX) r.scriptPublicKey, s.workerInclusionSompi)
  | .replicaPalwHalted .. | .replicaPalwDuplicateWork .. | .replicaPalwUnbackedCollateral .. =>
    .ok ([], 0)

def payRed (carve : Option FeeSplitParams) (effSubsidy : ℕ) (r : BlockRewardData) :
    Except CoinbaseFault (ℕ × ℕ) :=
  match r.workRewardClass with
  | .hashMiner => payHashMiner carve effSubsidy r.totalFees r.finalityFees
  | .replicaPalw .. | .replicaPalwHalted .. | .replicaPalwDuplicateWork ..
  | .replicaPalwUnbackedCollateral .. => .ok (0, 0)

structure WorkerTally where
  outputs : List TransactionOutput
  workerInclusionPool : ℕ
  redReward : ℕ
  deriving DecidableEq, Repr

def blueStep (ms : MergesetRewards) (carve : Option FeeSplitParams) (acc : WorkerTally)
    (block : BlockHash) : Except CoinbaseFault WorkerTally := do
  let r ← ms.rewardData block
  let (outputs, inclusion) ← payBlue carve r
  return { acc with
    outputs := acc.outputs ++ outputs
    workerInclusionPool := min (acc.workerInclusionPool + inclusion) U64_MAX }

def redStep (ms : MergesetRewards) (carve : Option FeeSplitParams) (acc : WorkerTally)
    (block : BlockHash) : Except CoinbaseFault WorkerTally := do
  let r ← ms.rewardData block
  let (value, inclusion) ← payRed carve (ms.redSubsidy block r) r
  let redReward ← addU64 acc.redReward value
  return { acc with
    workerInclusionPool := min (acc.workerInclusionPool + inclusion) U64_MAX
    redReward := redReward }

/-- Both loops of `expected_coinbase_transaction`. -/
def workerTally (ms : MergesetRewards) (carve : Option FeeSplitParams) :
    Except CoinbaseFault WorkerTally := do
  let acc ← ms.daaBlues.foldlM (blueStep ms carve) ⟨[], 0, 0⟩
  ms.mergesetReds.foldlM (redStep ms carve) acc

def inclusionBounty (carve : Option FeeSplitParams) (pool : ℕ) (inclusion : ℕ × ℕ) : ℕ :=
  match carve with
  | none => 0
  | some _ =>
    min (workerInclusionBounty pool inclusion.1 inclusion.2 STAKE_SCORE_SCALE false 0) pool

def TX_VERSION : ℕ := 0

/-- Outputs for blues, reds, validators and the bounty. -/
def expectedCoinbaseTransaction (manager : CoinbaseManager) (daaScore : ℕ) (minerData : MinerData)
    (ms : MergesetRewards) (validatorRewardOutputs : List TransactionOutput)
    (carve : Option FeeSplitParams) (inclusion : ℕ × ℕ) :
    Except CoinbaseFault CoinbaseTransactionTemplate := do
  let acc ← workerTally ms carve
  let redOutputs := positiveOutput acc.redReward minerData.scriptPublicKey
  let bounty := inclusionBounty carve acc.workerInclusionPool inclusion
  let beforeBounty := acc.outputs ++ redOutputs ++ validatorRewardOutputs
  let payload ← (manager.serializeCoinbasePayload
    ⟨ms.blueScore, manager.calcBlockSubsidy daaScore, minerData⟩).mapError .returned
  return {
    tx := ⟨TX_VERSION, [], beforeBounty ++ positiveOutput bounty minerData.scriptPublicKey, 0,
      SUBNETWORK_ID_COINBASE, 0, payload, 0⟩
    hasRedReward := 0 < acc.redReward
    minerScriptOutputIndices :=
      (if 0 < acc.redReward then [acc.outputs.length] else []) ++
      (if 0 < bounty then [beforeBounty.length] else []) }

/-! ## The validator pool -/

def blueValidatorShare (fs : FeeSplitParams) (r : BlockRewardData) : ℕ :=
  match r.workRewardClass with
  | .hashMiner => (splitBlockReward r.subsidy r.totalFees r.finalityFees fs).validatorSompi
  | .replicaPalw .. =>
    (splitBlockReward r.subsidy r.totalFees r.finalityFees fs.palwLane).validatorSompi
  | .replicaPalwHalted .. | .replicaPalwDuplicateWork .. | .replicaPalwUnbackedCollateral .. => 0

def redValidatorShare (fs : FeeSplitParams) (effSubsidy : ℕ) (r : BlockRewardData) : ℕ :=
  match r.workRewardClass with
  | .hashMiner => (splitBlockReward effSubsidy r.totalFees r.finalityFees fs).validatorSompi
  | .replicaPalw .. | .replicaPalwHalted .. | .replicaPalwDuplicateWork ..
  | .replicaPalwUnbackedCollateral .. => 0

def addShare (ms : MergesetRewards) (share : BlockHash → BlockRewardData → ℕ) (pool : ℕ)
    (block : BlockHash) : Except CoinbaseFault ℕ := do
  let r ← ms.rewardData block
  return min (pool + share block r) U64_MAX

def coinbaseValidatorPool (ms : MergesetRewards) (fs : FeeSplitParams) :
    Except CoinbaseFault ℕ := do
  let pool ← ms.daaBlues.foldlM (addShare ms fun _ r => blueValidatorShare fs r) 0
  ms.mergesetReds.foldlM
    (addShare ms fun block r => redValidatorShare fs (ms.redSubsidy block r) r) pool

def validatorPool (ms : MergesetRewards) (carve : Option FeeSplitParams) :
    Except CoinbaseFault ℕ :=
  match carve with
  | none => .ok 0
  | some fs => coinbaseValidatorPool ms fs

/-! ## What a source can be paid from -/

/-- Subsidy and fees of a blue source, nothing for the classes that are paid nothing. -/
def BlockRewardData.blueSource (r : BlockRewardData) : ℕ :=
  match r.workRewardClass with
  | .hashMiner | .replicaPalw .. => r.subsidy + r.totalFees
  | .replicaPalwHalted .. | .replicaPalwDuplicateWork .. | .replicaPalwUnbackedCollateral .. => 0

/-- Effective subsidy and fees of a red source; only the hash lane is paid. -/
def BlockRewardData.redSource (effSubsidy : ℕ) (r : BlockRewardData) : ℕ :=
  match r.workRewardClass with
  | .hashMiner => effSubsidy + r.totalFees
  | .replicaPalw .. | .replicaPalwHalted .. | .replicaPalwDuplicateWork ..
  | .replicaPalwUnbackedCollateral .. => 0

namespace MergesetRewards

variable (ms : MergesetRewards)

def blueBudget (block : BlockHash) : ℕ :=
  (ms.rewards.lookup block).elim 0 (·.blueSource)

def redBudget (block : BlockHash) : ℕ :=
  (ms.rewards.lookup block).elim 0 fun r => r.redSource (ms.redSubsidy block r)

def paidTotal : ℕ :=
  (ms.daaBlues.map ms.blueBudget).sum + (ms.mergesetReds.map ms.redBudget).sum

def Rewarded : Prop :=
  ∀ block ∈ ms.daaBlues ++ ms.mergesetReds, (ms.rewards.lookup block).isSome

def HashLane : Prop :=
  ∀ block ∈ ms.daaBlues, ∀ r, ms.rewards.lookup block = some r →
    ∀ batchId leafIndex a b premium,
      r.workRewardClass ≠ .replicaPalw batchId leafIndex a b premium

end MergesetRewards

def aside (carve : Option FeeSplitParams) (share : FeeSplitParams → ℕ) : ℕ := carve.elim 0 share

def WorkerTally.total (carve : Option FeeSplitParams) (acc : WorkerTally) : ℕ :=
  outputsValue acc.outputs + acc.redReward + carve.elim 0 fun _ => acc.workerInclusionPool

/-! ## One source -/

section Source

variable (carve : Option FeeSplitParams) (r : BlockRewardData)

theorem payHashMiner_ok (subsidy totalFees finalityFees : ℕ)
    (hfit : subsidy + totalFees ≤ U64_MAX) :
    ∃ value inclusion, payHashMiner carve subsidy totalFees finalityFees =
        .ok (value, inclusion) ∧
      value + (carve.elim 0 fun _ => inclusion) + aside carve (fun fs =>
        (splitBlockReward subsidy totalFees finalityFees fs).validatorSompi) ≤
          subsidy + totalFees ∧
      (carve = none → value = subsidy + totalFees) := by
  cases carve with
  | none =>
    refine ⟨subsidy + totalFees, 0, ?_, le_refl _, fun _ => rfl⟩
    simp only [payHashMiner, addU64, if_pos hfit]
    rfl
  | some fs =>
    have h := worker_add_validator_le subsidy totalFees finalityFees fs
    refine ⟨_, _, rfl, ?_, fun hnone => by cases hnone⟩
    simp only [workerFees, aside, elim_some]
    omega

theorem payBlue_ok (hfit : r.blueSource ≤ U64_MAX)
    (hlane : carve = none → ∀ batchId leafIndex a b premium,
      r.workRewardClass ≠ .replicaPalw batchId leafIndex a b premium) :
    ∃ outputs inclusion, payBlue carve r = .ok (outputs, inclusion) ∧
      outputsValue outputs + (carve.elim 0 fun _ => inclusion) +
        aside carve (blueValidatorShare · r) ≤ r.blueSource ∧
      (carve = none → outputsValue outputs = r.blueSource) := by
  simp only [payBlue, blueValidatorShare, BlockRewardData.blueSource] at hfit ⊢
  cases hclass : r.workRewardClass with
  | hashMiner =>
    simp only [hclass] at hfit ⊢
    obtain ⟨value, inclusion, hpay, hle, hexact⟩ :=
      payHashMiner_ok carve r.subsidy r.totalFees r.finalityFees hfit
    refine ⟨_, inclusion, by rw [hpay]; rfl, ?_, fun hnone => ?_⟩
    · rwa [outputsValue_positiveOutput]
    · rw [outputsValue_positiveOutput, hexact hnone]
  | replicaPalw batchId leafIndex a b premium =>
    cases carve with
    | none => exact absurd hclass (hlane rfl _ _ _ _ _)
    | some fs =>
      have hsplit := worker_add_validator_le r.subsidy r.totalFees r.finalityFees fs.palwLane
      have hpremium := premiumSplit_sum (splitBlockSubsidy r.subsidy fs.palwLane).workerBaseSompi
        1 premium
      rw [max_self, mul_one] at hpremium
      refine ⟨_, _, rfl, ?_, fun hnone => by cases hnone⟩
      simp only [outputsValue_append, outputsValue_positiveOutput, workerFees, aside,
        elim_some]
      omega
  | _ => exact ⟨[], 0, rfl, by cases carve <;> exact le_refl 0, fun _ => rfl⟩

theorem payRed_ok (effSubsidy : ℕ) (hfit : r.redSource effSubsidy ≤ U64_MAX) :
    ∃ value inclusion, payRed carve effSubsidy r = .ok (value, inclusion) ∧
      value + (carve.elim 0 fun _ => inclusion) +
        aside carve (redValidatorShare · effSubsidy r) ≤ r.redSource effSubsidy ∧
      (carve = none → value = r.redSource effSubsidy) := by
  simp only [payRed, redValidatorShare, BlockRewardData.redSource] at hfit ⊢
  cases hclass : r.workRewardClass with
  | hashMiner =>
    simp only [hclass] at hfit
    exact payHashMiner_ok carve effSubsidy r.totalFees r.finalityFees hfit
  | _ => exact ⟨0, 0, rfl, by cases carve <;> exact le_refl 0, fun _ => rfl⟩

end Source

/-! ## The whole mergeset -/

variable {block : BlockHash} {acc : WorkerTally}

section Mergeset

variable {ms : MergesetRewards} {carve : Option FeeSplitParams}

def blueAside (ms : MergesetRewards) (carve : Option FeeSplitParams) (block : BlockHash) : ℕ :=
  aside carve fun fs => (ms.rewards.lookup block).elim 0 (blueValidatorShare fs)

def redAside (ms : MergesetRewards) (carve : Option FeeSplitParams) (block : BlockHash) : ℕ :=
  aside carve fun fs => (ms.rewards.lookup block).elim 0 fun r =>
    redValidatorShare fs (ms.redSubsidy block r) r

theorem rewardData_of_lookup {r : BlockRewardData} (h : ms.rewards.lookup block = some r) :
    ms.rewardData block = .ok r := by
  rw [MergesetRewards.rewardData, h]

theorem elim_satAdd_le (carve : Option FeeSplitParams) (pool inclusion : ℕ) :
    (carve.elim 0 fun _ => min (pool + inclusion) U64_MAX) ≤
      (carve.elim 0 fun _ => pool) + carve.elim 0 fun _ => inclusion := by
  cases carve with
  | none => exact le_refl 0
  | some fs => exact min_le_left _ _

theorem blueStep_ok (hlane : carve = none → ms.HashLane) (hblock : block ∈ ms.daaBlues)
    (hsome : (ms.rewards.lookup block).isSome)
    (hfit : acc.total carve + ms.blueBudget block ≤ U64_MAX) :
    ∃ acc', blueStep ms carve acc block = .ok acc' ∧
      acc'.total carve + blueAside ms carve block ≤ acc.total carve + ms.blueBudget block ∧
      (carve = none → acc'.total carve = acc.total carve + ms.blueBudget block) := by
  obtain ⟨r, hr⟩ := isSome_iff_exists.mp hsome
  simp only [MergesetRewards.blueBudget, blueAside, hr, elim_some] at hfit ⊢
  obtain ⟨outputs, inclusion, hpay, hle, hexact⟩ := payBlue_ok carve r (by omega)
    fun hnone => hlane hnone block hblock r hr
  refine ⟨_, bind_eq_ok.mpr ⟨r, rewardData_of_lookup hr, bind_eq_ok.mpr ⟨_, hpay, rfl⟩⟩, ?_,
    fun hnone => ?_⟩
  · have hpool := elim_satAdd_le carve acc.workerInclusionPool inclusion
    simp only [WorkerTally.total, outputsValue_append]
    omega
  · have hvalue := hexact hnone
    subst hnone
    simp only [WorkerTally.total, outputsValue_append, elim_none]
    omega

theorem redStep_ok (hsome : (ms.rewards.lookup block).isSome)
    (hfit : acc.total carve + ms.redBudget block ≤ U64_MAX) :
    ∃ acc', redStep ms carve acc block = .ok acc' ∧
      acc'.total carve + redAside ms carve block ≤ acc.total carve + ms.redBudget block ∧
      (carve = none → acc'.total carve = acc.total carve + ms.redBudget block) := by
  obtain ⟨r, hr⟩ := isSome_iff_exists.mp hsome
  simp only [MergesetRewards.redBudget, redAside, hr, elim_some] at hfit ⊢
  obtain ⟨value, inclusion, hpay, hle, hexact⟩ := payRed_ok carve r (ms.redSubsidy block r)
    (by omega)
  -- the red reward is a part of the total, so adding to it cannot overflow
  have hred : acc.redReward + value ≤ U64_MAX := by
    simp only [WorkerTally.total] at hfit
    omega
  refine ⟨_, bind_eq_ok.mpr ⟨r, rewardData_of_lookup hr, bind_eq_ok.mpr ⟨_, hpay,
    bind_eq_ok.mpr ⟨_, if_pos hred, rfl⟩⟩⟩, ?_, fun hnone => ?_⟩
  · have hpool := elim_satAdd_le carve acc.workerInclusionPool inclusion
    simp only [WorkerTally.total]
    omega
  · have hvalue := hexact hnone
    subst hnone
    simp only [WorkerTally.total, elim_none]
    omega

/-- Both loops return; what they assign and the shares set aside stay within the paid sources. -/
theorem workerTally_ok (hrewards : ms.Rewarded) (hlane : carve = none → ms.HashLane)
    (hfit : ms.paidTotal ≤ U64_MAX) :
    ∃ acc, workerTally ms carve = .ok acc ∧
      acc.total carve + ((ms.daaBlues.map (blueAside ms carve)).sum +
        (ms.mergesetReds.map (redAside ms carve)).sum) ≤ ms.paidTotal ∧
      (carve = none → acc.total carve = ms.paidTotal) := by
  unfold MergesetRewards.paidTotal at hfit ⊢
  have hempty : WorkerTally.total carve ⟨[], 0, 0⟩ = 0 := by cases carve <;> rfl
  obtain ⟨acc₁, hblue, hle₁, hexact₁⟩ := foldlM_budget
    (f := blueStep ms carve) (m := WorkerTally.total carve) (s := ⟨[], 0, 0⟩)
    (fun acc block hblock h => blueStep_ok hlane hblock
      (hrewards block (mem_append_left _ hblock)) h)
    (show _ ≤ U64_MAX by rw [hempty]; omega)
  rw [hempty] at hle₁ hexact₁
  obtain ⟨acc₂, hred, hle₂, hexact₂⟩ := foldlM_budget
    (f := redStep ms carve) (m := WorkerTally.total carve) (s := acc₁)
    (fun acc block hblock h => redStep_ok
      (hrewards block (mem_append_right _ hblock)) h)
    (show _ ≤ U64_MAX by omega)
  refine ⟨acc₂, bind_eq_ok.mpr ⟨acc₁, hblue, hred⟩, by omega, fun hnone => ?_⟩
  have h₁ := hexact₁ hnone
  have h₂ := hexact₂ hnone
  omega

theorem foldlM_addShare_ok (share : BlockHash → BlockRewardData → ℕ) {blocks : List BlockHash}
    (hsome : ∀ block ∈ blocks, (ms.rewards.lookup block).isSome) (pool : ℕ) :
    ∃ pool', blocks.foldlM (addShare ms share) pool = .ok pool' ∧
      pool' ≤ pool + (blocks.map fun block =>
        (ms.rewards.lookup block).elim 0 (share block)).sum := by
  induction blocks generalizing pool with
  | nil => exact ⟨pool, rfl, le_refl _⟩
  | cons block blocks ih =>
    obtain ⟨r, hr⟩ := isSome_iff_exists.mp (hsome block mem_cons_self)
    obtain ⟨pool', hrun, hle⟩ := ih (forall_mem_cons.mp hsome).2
      (min (pool + share block r) U64_MAX)
    refine ⟨pool', foldlM_cons_eq_ok.mpr
      ⟨_, bind_eq_ok.mpr ⟨r, rewardData_of_lookup hr, rfl⟩, hrun⟩, ?_⟩
    rw [map_cons, sum_cons, hr, elim_some]
    omega

theorem validatorPool_ok (hrewards : ms.Rewarded) (carve : Option FeeSplitParams) :
    ∃ pool, validatorPool ms carve = .ok pool ∧
      pool ≤ (ms.daaBlues.map (blueAside ms carve)).sum +
        (ms.mergesetReds.map (redAside ms carve)).sum := by
  cases carve with
  | none => exact ⟨0, rfl, Nat.zero_le _⟩
  | some fs =>
    obtain ⟨pool₁, hblue, hle₁⟩ := foldlM_addShare_ok (fun _ r => blueValidatorShare fs r)
      (forall_mem_append.mp hrewards).1 0
    obtain ⟨pool₂, hred, hle₂⟩ := foldlM_addShare_ok
      (fun block r => redValidatorShare fs (ms.redSubsidy block r) r)
      (forall_mem_append.mp hrewards).2 pool₁
    refine ⟨pool₂, bind_eq_ok.mpr ⟨pool₁, hblue, hred⟩, hle₂.trans ?_⟩
    rw [zero_add] at hle₁
    exact Nat.add_le_add_right hle₁ _

theorem inclusionBounty_le (carve : Option FeeSplitParams) (pool : ℕ) (inclusion : ℕ × ℕ) :
    inclusionBounty carve pool inclusion ≤ carve.elim 0 fun _ => pool := by
  cases carve with
  | none => exact le_refl 0
  | some fs => exact min_le_right _ _

theorem participation_le_pool {pool : ℕ} (hpool : pool ≤ U64_MAX)
    (participationBps expectedStake : ℕ) (atts : List IncludedAttestation)
    (already : List RewardKey) :
    outputsValue (validatorParticipationRewardOutputs
      (splitValidatorPool pool participationBps).1 expectedStake atts already).1 ≤ pool := by
  have hle := splitValidatorPool_fst_le pool participationBps
  have hlt : (splitValidatorPool pool participationBps).1 < U128_MAX :=
    (hle.trans hpool).trans_lt (by decide)
  exact (outputsValue_validatorParticipationRewardOutputs_le hlt atts).trans hle

/-- The coinbase never pays more than its paid sources bring in, for any ratios, and without a carve
exactly that. It is built whenever the payload can be, unless a replica-lane source has no carve. -/
theorem expected_coinbase_value (manager : CoinbaseManager) (daaScore : ℕ) (minerData : MinerData)
    (inclusion : ℕ × ℕ) (participationBps expectedStake : ℕ) (atts : List IncludedAttestation)
    (already : List RewardKey) (hrewards : ms.Rewarded) (hlane : carve = none → ms.HashLane)
    (hfit : ms.paidTotal ≤ U64_MAX) :
    ∃ pool, validatorPool ms carve = .ok pool ∧
      let coinbase := expectedCoinbaseTransaction manager daaScore minerData ms
        (validatorParticipationRewardOutputs (splitValidatorPool pool participationBps).1
          expectedStake atts already).1 carve inclusion
      match manager.serializeCoinbasePayload
          ⟨ms.blueScore, manager.calcBlockSubsidy daaScore, minerData⟩ with
      | .error e => coinbase = .error (.returned e)
      | .ok _ => ∃ template, coinbase = .ok template ∧
          outputsValue template.tx.outputs ≤ ms.paidTotal ∧
          (carve = none → outputsValue template.tx.outputs = ms.paidTotal) := by
  obtain ⟨acc, hacc, hle, hexact⟩ := workerTally_ok hrewards hlane hfit
  obtain ⟨pool, hpool, hpoolLe⟩ := validatorPool_ok hrewards carve
  have hpoolFit : pool ≤ U64_MAX := by omega
  have hvalidators := participation_le_pool hpoolFit participationBps expectedStake atts already
  refine ⟨pool, hpool, ?_⟩
  generalize (validatorParticipationRewardOutputs (splitValidatorPool pool participationBps).1
    expectedStake atts already).1 = validators at hvalidators ⊢
  split
  · next e he =>
    unfold expectedCoinbaseTransaction
    rw [hacc, he]
    rfl
  · next payload hpayload =>
    have hbounty := inclusionBounty_le carve acc.workerInclusionPool inclusion
    refine ⟨_, bind_eq_ok.mpr ⟨acc, hacc, bind_eq_ok.mpr ⟨payload, by rw [hpayload]; rfl, rfl⟩⟩,
      ?_, fun hnone => ?_⟩
    · simp only [outputsValue_append, outputsValue_positiveOutput]
      unfold WorkerTally.total at hle
      omega
    · -- without a carve the pool is empty, so neither validators nor a bounty are paid
      have htotal := hexact hnone
      subst hnone
      obtain rfl : pool = 0 := (Except.ok.inj hpool).symm
      simp only [WorkerTally.total, elim_none] at htotal hbounty
      simp only [outputsValue_append, outputsValue_positiveOutput]
      omega

end Mergeset

/-! ## A replica-lane source needs the carve -/

def flatManager : CoinbaseManager where
  coinbasePayloadScriptPublicKeyMaxLen := 150
  maxCoinbasePayloadLen := 204
  deflationaryPhaseDaaScore := 0
  preDeflationaryPhaseBaseSubsidy := 0
  bpsBefore := 1
  bpsAfter := 1
  crescendoActivationDaaScore := 0
  subsidyByMonthTableBefore := [1]
  subsidyByMonthTableAfter := [1]

/-- One blue and one red source; the blue one is of the given class. -/
def twoSources (cls : WorkRewardClass) : MergesetRewards where
  blueScore := 5
  mergesetBlues := [1]
  mergesetReds := [2]
  mergesetNonDaa := [2]
  rewards := (Finmap.singleton 2 ⟨100, 7, 3, ⟨0, [2]⟩, .hashMiner⟩ : Table _ _).insert 1
    ⟨100, 10, 4, ⟨0, [1]⟩, cls⟩

/-- Without a carve a replica-lane blue makes the construction panic. -/
theorem expected_coinbase_panics_without_carve :
    (twoSources (.replicaPalw 0 0 ⟨0, [3]⟩ ⟨0, [4]⟩ 10000)).paidTotal = 117 ∧
    expectedCoinbaseTransaction flatManager 9 ⟨⟨0, [5]⟩, []⟩
      (twoSources (.replicaPalw 0 0 ⟨0, [3]⟩ ⟨0, [4]⟩ 10000)) [] none (0, 0) =
        .error .carveMissing := by
  exact ⟨by decide, rfl⟩

/-- Two hash-lane sources are paid out in full: 110 for the blue one, the fees of the red one. -/
theorem expected_coinbase_value_hash_lane :
    ∃ template, expectedCoinbaseTransaction flatManager 9 ⟨⟨0, [5]⟩, []⟩ (twoSources .hashMiner) []
        none (0, 0) = .ok template ∧ outputsValue template.tx.outputs = 117 := by
  have hrewards : (twoSources .hashMiner).Rewarded := by
    unfold MergesetRewards.Rewarded
    decide
  have hlane : (twoSources .hashMiner).HashLane := by
    intro block hblock r hr
    obtain rfl : block = 1 := by simpa [twoSources, MergesetRewards.daaBlues] using hblock
    cases hr
    exact fun _ _ _ _ _ h => by cases h
  obtain ⟨pool, hpool, h⟩ := expected_coinbase_value flatManager 9 ⟨⟨0, [5]⟩, []⟩ (0, 0) 0 0 [] []
    hrewards (fun _ : (none : Option FeeSplitParams) = none => hlane) (by decide)
  obtain rfl : pool = 0 := (Except.ok.inj hpool).symm
  obtain ⟨template, hrun, -, hvalue⟩ := h
  exact ⟨template, hrun, hvalue rfl⟩

end Misaka.Dns
