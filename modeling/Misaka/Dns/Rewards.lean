import Misaka.Core.Shares
import Misaka.Dns.Params
import Misaka.Dns.Payload

/-!
# Validator payouts

The proportional payouts of `consensus/core/src/dns_finality.rs`: a share of a pool by stake against
an expected total, the two halves of the validator pool, the participation rewards of one block,
and the outputs that pay a list of validators in proportion to stake.
-/

namespace Misaka.Dns

open Misaka.Core List

def outputsValue (outputs : List TransactionOutput) : ℕ := (outputs.map (·.value)).sum

@[simp] theorem outputsValue_nil : outputsValue [] = 0 := rfl

@[simp] theorem outputsValue_cons (o : TransactionOutput) (os : List TransactionOutput) :
    outputsValue (o :: os) = o.value + outputsValue os := sum_cons

@[simp] theorem outputsValue_append (a b : List TransactionOutput) :
    outputsValue (a ++ b) = outputsValue a + outputsValue b := by
  simp [outputsValue]

/-- The pool by stake; the rest is not paid. -/
def proportionalShare (pool stake expectedStake : ℕ) : ℕ :=
  if expectedStake = 0 then 0 else min (pool * min stake expectedStake) U128_MAX / expectedStake

def splitValidatorPool (validatorPool participationBps : ℕ) : ℕ × ℕ :=
  let participation := min (validatorPool * min participationBps 10000) U128_MAX / 10000
  (participation, validatorPool - participation)

def validatorParticipationReward (participationPool includedStake expectedStake : ℕ) : ℕ :=
  proportionalShare participationPool includedStake expectedStake

def validatorQualityBonus (pool includedStake expectedStake : ℕ) (meetsFloor : Bool) : ℕ :=
  if !meetsFloor then 0 else proportionalShare pool includedStake expectedStake

def epochMeetsQualityFloor (includedStake expectedStake phiBps : ℕ) : Bool :=
  decide (min (phiBps * expectedStake) U128_MAX ≤ min (includedStake * 10000) U128_MAX)

/-- One output per validator with a positive reward, cut at the largest `u64`. -/
def payoutOutputs (reward : ℕ → ℕ) (included : List (Hash64 × ℕ)) : List TransactionOutput :=
  included.filterMap fun v =>
    let value := min (reward v.2) U64_MAX
    if 0 < value then some ⟨value, p2pkhMldsa87Spk v.1⟩ else none

def validatorQualityBonusOutputs (qualityPool : ℕ) (included : List (Hash64 × ℕ))
    (expectedStake : ℕ) (meetsFloor : Bool) : List TransactionOutput :=
  if !meetsFloor then []
  else payoutOutputs (validatorQualityBonus qualityPool · expectedStake true) included

abbrev RewardKey := TransactionOutpoint × ℕ

structure IncludedAttestation where
  bondOutpoint : TransactionOutpoint
  epoch : ℕ
  ownerRewardSpkPayload : Hash64
  stake : ℕ
  deriving DecidableEq, Repr

def IncludedAttestation.key (a : IncludedAttestation) : RewardKey := (a.bondOutpoint, a.epoch)

/-- The loop of `validator_participation_reward_outputs`: the keys seen and the value spent so far
are carried along, and each payment comes with its key. -/
def participationLoop (pool expectedStake : ℕ) (alreadyRewarded : List RewardKey) :
    List IncludedAttestation → List RewardKey → ℕ → List (TransactionOutput × RewardKey)
  | [], _, _ => []
  | a :: rest, seen, spent =>
    if a.key ∈ alreadyRewarded ∨ a.key ∈ seen then
      participationLoop pool expectedStake alreadyRewarded rest seen spent
    else
      let reward := validatorParticipationReward pool a.stake expectedStake
      -- an unpaid attestation still counts as seen in this block
      if reward = 0 then
        participationLoop pool expectedStake alreadyRewarded rest (a.key :: seen) spent
      else if pool < min (spent + reward) U128_MAX then []
      else
        (⟨reward % 2 ^ 64, p2pkhMldsa87Spk a.ownerRewardSpkPayload⟩, a.key) ::
          participationLoop pool expectedStake alreadyRewarded rest (a.key :: seen)
            (spent + reward)

def validatorParticipationRewardOutputs (pool expectedStake : ℕ)
    (attestations : List IncludedAttestation) (alreadyRewarded : List RewardKey) :
    List TransactionOutput × List RewardKey :=
  let paid := participationLoop pool expectedStake alreadyRewarded attestations [] 0
  (paid.map Prod.fst, paid.map Prod.snd)

def victimCompensationOutputs (victimPool : ℕ) (honestIncluded : List (Hash64 × ℕ))
    (totalHonestStake : ℕ) : List TransactionOutput :=
  payoutOutputs (proportionalShare victimPool · totalHonestStake) honestIncluded

theorem proportionalShare_le_mul_div (pool stake expected : ℕ) :
    proportionalShare pool stake expected ≤ pool * stake / expected := by
  unfold proportionalShare
  split
  · exact Nat.zero_le _
  · exact Nat.div_le_div_right ((min_le_left _ _).trans
      (Nat.mul_le_mul_left pool (min_le_left _ _)))

theorem splitValidatorPool_fst_le (pool bps : ℕ) : (splitValidatorPool pool bps).1 ≤ pool := by
  refine Nat.div_le_of_le_mul ((min_le_left _ _).trans ?_)
  rw [Nat.mul_comm 10000 pool]
  exact Nat.mul_le_mul_left pool (min_le_right _ _)

theorem outputsValue_payoutOutputs_le (reward : ℕ → ℕ) (included : List (Hash64 × ℕ)) :
    outputsValue (payoutOutputs reward included) ≤ (included.map fun v => reward v.2).sum := by
  induction included with
  | nil => exact Nat.le_refl 0
  | cons v included ih =>
    rw [map_cons, sum_cons, payoutOutputs, filterMap_cons]
    dsimp only
    split
    · next hnone => exact ih.trans (Nat.le_add_left _ _)
    · next out hsome =>
      have hvalue : out.value ≤ reward v.2 := by
        split at hsome
        · cases hsome
          exact min_le_left _ _
        · cases hsome
      rw [outputsValue_cons]
      exact Nat.add_le_add hvalue ih

variable {included : List (Hash64 × ℕ)}

theorem outputsValue_payoutOutputs_le_pool {reward : ℕ → ℕ} {pool total : ℕ}
    (hreward : ∀ stake, reward stake ≤ pool * stake / total)
    (htotal : (included.map Prod.snd).sum ≤ total) :
    outputsValue (payoutOutputs reward included) ≤ pool := by
  calc outputsValue (payoutOutputs reward included)
      ≤ (included.map fun v => reward v.2).sum := outputsValue_payoutOutputs_le reward included
    _ ≤ (included.map fun v => pool * v.2 / total).sum := sum_le_sum fun v _ => hreward v.2
    _ = ((included.map Prod.snd).map fun s => pool * s / total).sum := by rw [map_map]; rfl
    _ ≤ pool := sum_mul_div_le_pool htotal

theorem outputsValue_validatorQualityBonusOutputs_le {pool expected : ℕ} (meets : Bool)
    (h : (included.map Prod.snd).sum ≤ expected) :
    outputsValue (validatorQualityBonusOutputs pool included expected meets) ≤ pool := by
  unfold validatorQualityBonusOutputs
  split
  · exact Nat.zero_le _
  · exact outputsValue_payoutOutputs_le_pool
      (fun stake => proportionalShare_le_mul_div pool stake expected) h

theorem outputsValue_victimCompensationOutputs_le (pool : ℕ) (honest : List (Hash64 × ℕ)) :
    outputsValue (victimCompensationOutputs pool honest (honest.map Prod.snd).sum) ≤ pool :=
  outputsValue_payoutOutputs_le_pool (fun stake => proportionalShare_le_mul_div pool stake _) le_rfl

section Participation

variable {pool expectedStake : ℕ} {already : List RewardKey}

theorem participationLoop_cons (a : IncludedAttestation) (rest : List IncludedAttestation)
    (seen : List RewardKey) (spent : ℕ) :
    participationLoop pool expectedStake already (a :: rest) seen spent =
        participationLoop pool expectedStake already rest seen spent ∨
    (a.key ∉ already ∧ a.key ∉ seen) ∧
      (participationLoop pool expectedStake already (a :: rest) seen spent =
          participationLoop pool expectedStake already rest (a.key :: seen) spent ∨
        participationLoop pool expectedStake already (a :: rest) seen spent = [] ∨
        ∃ reward, min (spent + reward) U128_MAX ≤ pool ∧
          participationLoop pool expectedStake already (a :: rest) seen spent =
            (⟨reward % 2 ^ 64, p2pkhMldsa87Spk a.ownerRewardSpkPayload⟩, a.key) ::
              participationLoop pool expectedStake already rest (a.key :: seen)
                (spent + reward)) := by
  rw [participationLoop]
  split
  · exact .inl rfl
  · next hfresh =>
    refine .inr ⟨not_or.mp hfresh, ?_⟩
    dsimp only
    split
    · exact .inl rfl
    · split
      · exact .inr (.inl rfl)
      · next hfits => exact .inr (.inr ⟨_, Nat.le_of_not_lt hfits, rfl⟩)

theorem outputsValue_participationLoop_le (hpool : pool < U128_MAX)
    (atts : List IncludedAttestation) (seen : List RewardKey) {spent : ℕ} (hspent : spent ≤ pool) :
    spent + outputsValue
      ((participationLoop pool expectedStake already atts seen spent).map Prod.fst) ≤ pool := by
  induction atts generalizing seen spent with
  | nil => exact hspent
  | cons a rest ih =>
    rcases participationLoop_cons a rest seen spent with h | ⟨-, h | h | ⟨reward, hfits, h⟩⟩
    · rw [h]
      exact ih seen hspent
    · rw [h]
      exact ih (a.key :: seen) hspent
    · rwa [h]
    · have hrest := ih (a.key :: seen) (show spent + reward ≤ pool by omega)
      rw [h, map_cons, outputsValue_cons]
      dsimp only
      omega

theorem outputsValue_validatorParticipationRewardOutputs_le (hpool : pool < U128_MAX)
    (atts : List IncludedAttestation) :
    outputsValue (validatorParticipationRewardOutputs pool expectedStake atts already).1 ≤
      pool := by
  have h := @outputsValue_participationLoop_le pool expectedStake already hpool atts [] 0
    (Nat.zero_le pool)
  rwa [Nat.zero_add] at h

theorem mem_participationLoop_keys {key : RewardKey} {atts : List IncludedAttestation}
    {seen : List RewardKey} {spent : ℕ}
    (hkey : key ∈ (participationLoop pool expectedStake already atts seen spent).map Prod.snd) :
    key ∈ atts.map (·.key) ∧ key ∉ already ∧ key ∉ seen := by
  induction atts generalizing seen spent with
  | nil => cases hkey
  | cons a rest ih =>
    have hlater {spent' : ℕ} (h : key ∈ (participationLoop pool expectedStake already rest
        (a.key :: seen) spent').map Prod.snd) :
        key ∈ (a :: rest).map (·.key) ∧ key ∉ already ∧ key ∉ seen := by
      obtain ⟨hmem, halready, hseen⟩ := ih h
      exact ⟨mem_cons_of_mem _ hmem, halready, fun hs => hseen (mem_cons_of_mem _ hs)⟩
    rcases participationLoop_cons a rest seen spent with h | ⟨hfresh, h | h | ⟨reward, -, h⟩⟩
    · obtain ⟨hmem, hnew⟩ := ih (h ▸ hkey)
      exact ⟨mem_cons_of_mem _ hmem, hnew⟩
    · exact hlater (h ▸ hkey)
    · rw [h] at hkey
      cases hkey
    · rw [h, map_cons, mem_cons] at hkey
      rcases hkey with rfl | hkey
      · exact ⟨mem_cons_self, hfresh⟩
      · exact hlater hkey

theorem nodup_participationLoop_keys (atts : List IncludedAttestation) (seen : List RewardKey)
    (spent : ℕ) :
    ((participationLoop pool expectedStake already atts seen spent).map Prod.snd).Nodup := by
  induction atts generalizing seen spent with
  | nil => exact nodup_nil
  | cons a rest ih =>
    rcases participationLoop_cons a rest seen spent with h | ⟨-, h | h | ⟨reward, -, h⟩⟩
    · exact h ▸ ih seen spent
    · exact h ▸ ih (a.key :: seen) spent
    · exact h ▸ nodup_nil
    · rw [h, map_cons]
      refine nodup_cons.mpr ⟨fun hmem => ?_, ih _ _⟩
      exact (mem_participationLoop_keys hmem).2.2 mem_cons_self

end Participation

end Misaka.Dns
