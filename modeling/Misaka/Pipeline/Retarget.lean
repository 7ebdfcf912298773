import Misaka.Pipeline.TemplateValid

/-!
# Retargeting a template

`modify_block_template` puts another miner's data into a cached template: it rewrites the tail of
the coinbase payload and the scripts of the outputs recorded as the miner's own. The transactions
are those of a template built for that miner.
-/

namespace Misaka.Pipeline

open Misaka.Core Dns List

/-- The returned error, or the panic of an index out of range. -/
inductive ModifyFault where
  | coinbase (e : CoinbaseError)
  | outOfRange
  deriving DecidableEq, Repr

def modifyCoinbasePayload (m : CoinbaseManager) (payload : Bytes) (minerData : MinerData) :
    Except CoinbaseError Bytes :=
  let spk := minerData.scriptPublicKey
  if m.coinbasePayloadScriptPublicKeyMaxLen < spk.script.length then
    .error (.payloadScriptPublicKeyLenAboveMax spk.script.length
      m.coinbasePayloadScriptPublicKeyMaxLen)
  else
    .ok (payload.take (8 + 8) ++ leBytes 2 spk.version ++ leBytes 1 spk.script.length ++
      spk.script ++ minerData.extraData)

def setScript (spk : ScriptPublicKey) (outputs : List TransactionOutput) (i : ℕ) :
    Except ModifyFault (List TransactionOutput) :=
  match outputs[i]? with
  | none => .error .outOfRange
  | some output => .ok (outputs.set i { output with scriptPublicKey := spk })

def modifyCoinbase (m : CoinbaseManager) (minerData : MinerData) (indices : List ℕ)
    (tx : Transaction) : Except ModifyFault Transaction := do
  let payload ← (modifyCoinbasePayload m tx.payload minerData).mapError .coinbase
  let outputs ← indices.foldlM (setScript minerData.scriptPublicKey) tx.outputs
  return { tx with payload, outputs }

/-- A template with an EVM commitment keeps its timestamp, which the commitment derives from. -/
def modifyBlockTemplate (V : VirtualProcessor) (minerData : MinerData) (unixNow : ℕ)
    (t : BlockTemplate) : Except ModifyFault BlockTemplate :=
  match t.block.transactions with
  | [] => .error .outOfRange
  | tx :: txs => do
    let tx ← modifyCoinbase V.coinbaseManager minerData t.minerScriptOutputIndices tx
    let header := t.block.header
    let timestamp := if header.version < EVM_HEADER_VERSION then max header.timestamp unixNow
      else header.timestamp
    return { t with
      block := { t.block with header := { header with timestamp }, transactions := tx :: txs }
      minerData }

theorem modifyCoinbasePayload_serialize {m : CoinbaseManager} {data : CoinbaseData}
    {payload : Bytes} (h : m.serializeCoinbasePayload data = .ok payload) (minerData : MinerData) :
    modifyCoinbasePayload m payload minerData =
      m.serializeCoinbasePayload { data with minerData } := by
  unfold CoinbaseManager.serializeCoinbasePayload at h
  dsimp only at h
  split at h
  · cases h
  · cases h
    have htake (rest : Bytes) : (leBytes 8 data.blueScore ++ (leBytes 8 data.subsidy ++ rest)).take
        (8 + 8) = leBytes 8 data.blueScore ++ leBytes 8 data.subsidy := by
      rw [← append_assoc]
      exact take_left' (by simp)
    simp only [modifyCoinbasePayload, CoinbaseManager.serializeCoinbasePayload, append_assoc,
      htake]

theorem foldlM_setScript (spk spk' : ScriptPublicKey) (value : ℕ)
    (front back : List TransactionOutput) :
    (if 0 < value then [front.length] else []).foldlM (setScript spk)
        (front ++ (positiveOutput value spk' ++ back)) =
      .ok (front ++ (positiveOutput value spk ++ back)) := by
  unfold positiveOutput
  split
  · simp [setScript]
  · rfl

theorem toOption_bind {ε α β : Type} (x : Except ε α) (f : α → Except ε β) :
    (x >>= f).toOption = x.toOption.bind fun a => (f a).toOption := by
  cases x <;> rfl

theorem toOption_mapError {ε ε' α : Type} (g : ε → ε') (x : Except ε α) :
    (x.mapError g).toOption = x.toOption := by
  cases x <;> rfl

section Coinbase

variable {m : CoinbaseManager} {daa : ℕ} {minerData : MinerData} {ms : MergesetRewards}
  {validators : List TransactionOutput} {carve : Option FeeSplitParams} {inclusion : ℕ × ℕ}
  {t : CoinbaseTransactionTemplate}

theorem modifyCoinbase_expected (minerData' : MinerData)
    (h : expectedCoinbaseTransaction m daa minerData ms validators carve inclusion = .ok t) :
    (modifyCoinbase m minerData' t.minerScriptOutputIndices t.tx).toOption =
      (expectedCoinbaseTransaction m daa minerData' ms validators carve
        inclusion).toOption.map (·.tx) := by
  unfold expectedCoinbaseTransaction at h ⊢
  simp only [bind_eq_ok, mapError_eq_ok] at h
  obtain ⟨acc, hacc, payload, hpayload, ⟨⟩⟩ := h
  have hlen : (positiveOutput acc.redReward minerData.scriptPublicKey).length =
      (positiveOutput acc.redReward minerData'.scriptPublicKey).length := by
    unfold positiveOutput
    split <;> rfl
  -- the red reward stands before the validators' outputs, the bounty after them
  have hbounty := foldlM_setScript minerData'.scriptPublicKey minerData.scriptPublicKey
    (inclusionBounty carve acc.workerInclusionPool inclusion)
    (acc.outputs ++ positiveOutput acc.redReward minerData'.scriptPublicKey ++ validators) []
  simp only [append_assoc, append_nil, length_append] at hbounty
  simp only [modifyCoinbase, modifyCoinbasePayload_serialize hpayload, hacc, toOption_bind,
    toOption_mapError, append_assoc, length_append, foldlM_append, hlen,
    foldlM_setScript]
  cases m.serializeCoinbasePayload ⟨ms.blueScore, m.calcBlockSubsidy daa, minerData'⟩ with
  | error e => rfl
  | ok payload' =>
    simp only [Except.toOption, Option.bind_some, hbounty]
    rfl

end Coinbase

theorem modifyBlockTemplate_eq_build {V : VirtualProcessor} {vs : VirtualState}
    {bondView : ActiveBondView} {records : List StakeBondRecord} {req : TemplateRequest}
    {t : BlockTemplate}
    (h : buildBlockTemplate V vs bondView records req = .ok t) (minerData : MinerData)
    (unixNow : ℕ) :
    (modifyBlockTemplate V minerData unixNow t).toOption.map (·.block.transactions) =
      (buildBlockTemplate V vs bondView records { req with minerData }).toOption.map
        (·.block.transactions) := by
  unfold buildBlockTemplate at h ⊢
  dsimp only at h ⊢
  split at h
  · cases h
  · next hmode =>
    rw [if_neg hmode]
    unfold buildBlockTemplateFromVirtualState at h ⊢
    simp only [bind_eq_ok, mapError_eq_ok] at h
    obtain ⟨⟨⟩, hinclusion, p, hp, coinbase, hcoinbase, ⟨header, payload, stale⟩, hfields, ⟨⟩⟩ := h
    have hmodify := modifyCoinbase_expected minerData hcoinbase
    simp only [modifyBlockTemplate, toOption_bind, toOption_mapError, hinclusion, hp, hfields,
      hmodify]
    change
      Option.map _ (Option.bind (Option.map _ (expectedCoinbase V _ p _ minerData).toOption) _) =
        Option.map _ (Option.bind (expectedCoinbase V _ p _ minerData).toOption _)
    cases (expectedCoinbase V _ p _ minerData).toOption <;> rfl

theorem deserialize_eq_ok_iff {m : CoinbaseManager} {data : CoinbaseData} {payload : Bytes}
    (htyped : data.Typed) (hmax : m.coinbasePayloadScriptPublicKeyMaxLen < 256)
    (h : m.serializeCoinbasePayload data = .ok payload) :
    m.deserializeCoinbasePayload payload = .ok data ↔ payload.length ≤ m.maxCoinbasePayloadLen := by
  rw [deserialize_serialize htyped hmax h]
  split
  · next hlong => simpa using hlong
  · next hfits => simpa using hfits

/-- A cached template retargeted to another miner has the transactions of a template built for that
miner, and one fails iff the other does. A payload that is written or rewritten is read back unless
its extra data make it too long, which only the reader checks. -/
theorem retarget_template (V : VirtualProcessor) (vs : VirtualState) (bondView : ActiveBondView)
    (records : List StakeBondRecord) (req : TemplateRequest) (t : BlockTemplate)
    (h : buildBlockTemplate V vs bondView records req = .ok t)
    (hmax : V.coinbaseManager.coinbasePayloadScriptPublicKeyMaxLen < 256) :
    (∀ minerData unixNow,
      (modifyBlockTemplate V minerData unixNow t).toOption.map (·.block.transactions) =
        (buildBlockTemplate V vs bondView records { req with minerData }).toOption.map
          (·.block.transactions)) ∧
    ∀ data payload, data.Typed → V.coinbaseManager.serializeCoinbasePayload data = .ok payload →
      (V.coinbaseManager.deserializeCoinbasePayload payload = .ok data ↔
        payload.length ≤ V.coinbaseManager.maxCoinbasePayloadLen) ∧
      ∀ minerData payload', minerData.scriptPublicKey.version < 2 ^ 16 →
        modifyCoinbasePayload V.coinbaseManager payload minerData = .ok payload' →
        (V.coinbaseManager.deserializeCoinbasePayload payload' = .ok { data with minerData } ↔
          payload'.length ≤ V.coinbaseManager.maxCoinbasePayloadLen) := by
  refine ⟨modifyBlockTemplate_eq_build h, fun data payload htyped hpayload => ?_⟩
  refine ⟨deserialize_eq_ok_iff htyped hmax hpayload, fun minerData payload' hversion hmodify => ?_⟩
  rw [modifyCoinbasePayload_serialize hpayload] at hmodify
  exact deserialize_eq_ok_iff ⟨htyped.blueScore_lt, htyped.subsidy_lt, hversion⟩ hmax hmodify

/-- Every block of the mergeset was paid a subsidy of 100. -/
def paidProcessor : VirtualProcessor :=
  sampleProcessor fun _ => [sampleOverlayTx 0 SUBNETWORK_ID_COINBASE
    (leBytes 8 0 ++ leBytes 8 100 ++ [0, 0, 0])]

def redContext : AcceptanceContext :=
  { sampleContext with ghostdagData := ⟨1, 2, 0, [1], [2], [2]⟩ }

/-- The reward of the red block is the miner's, and its output is the second one. -/
theorem retarget_template_red :
    ∃ vs, calculateVirtualState paidProcessor redContext .empty [sampleBondRow] [] 0 = .ok vs ∧
      ∃ t, buildBlockTemplate paidProcessor vs redContext.bondView [sampleBondRow]
          (sampleRequest []) = .ok t ∧ t.minerScriptOutputIndices = [1] ∧
        (modifyBlockTemplate paidProcessor ⟨⟨0, [5]⟩, [6]⟩ 9 t).toOption.map
            (·.block.transactions) =
          (buildBlockTemplate paidProcessor vs redContext.bondView [sampleBondRow]
            { sampleRequest [] with minerData := ⟨⟨0, [5]⟩, [6]⟩ }).toOption.map
              (·.block.transactions) := by
  obtain ⟨vs, hvs, t, ht, hindices⟩ :
      ∃ vs, calculateVirtualState paidProcessor redContext .empty [sampleBondRow] [] 0 = .ok vs ∧
        ∃ t, buildBlockTemplate paidProcessor vs redContext.bondView [sampleBondRow]
          (sampleRequest []) = .ok t ∧ t.minerScriptOutputIndices = [1] := by decide +kernel
  refine ⟨vs, hvs, t, ht, hindices, ?_⟩
  exact (retarget_template paidProcessor vs _ _ _ t ht (by decide)).1 _ 9

/-- The writer accepts extra data with which the payload is longer than the reader's limit. -/
theorem long_payload_unreadable :
    ∃ payload, flatManager.serializeCoinbasePayload
        ⟨5, 1, ⟨⟨0, [5]⟩, List.replicate 186 0⟩⟩ = .ok payload ∧
      flatManager.deserializeCoinbasePayload payload = .error (.payloadLenAboveMax 206 204) := by
  decide +kernel

end Misaka.Pipeline
