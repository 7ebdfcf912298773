import Mathlib.Data.List.Perm.Subperm
import Misaka.Dns.Tally

/-!
# The security reserve along a chain

The quality bonus and the reserve drip divide a pool by the stake active at an epoch's anchor among
the validators rewarded in that epoch. They stay within the pool when every rewarded bond was active
at the anchor; the rewarded set is keyed by blue-score epochs, so the code does not ensure it.
-/

namespace Misaka.Dns

open Misaka.Core List

variable {params : DnsParams} {chain : List ReserveBlock}

structure BondRows (bonds : List StakeBondRecord) : Prop where
  nodup : (bonds.map (·.bondOutpoint)).Nodup
  amounts_fit : (bonds.map (·.amount)).sum ≤ U128_MAX

variable {bonds : List StakeBondRecord}

theorem mem_of_bondByOutpoint {o : TransactionOutpoint} {bond : StakeBondRecord}
    (h : bondByOutpoint bonds o = some bond) : bond ∈ bonds ∧ bond.bondOutpoint = o := by
  refine ⟨mem_reverse.mp (mem_of_find?_eq_some h), ?_⟩
  simpa using List.find?_some h

variable {contributions : List BlockEpochContribution} {epoch balance : ℕ} {b : SettlementInput}

theorem nodup_includedBonds
    (hkeys : ((contributions.flatMap (·.rewardedKeys)).filter (·.2 = epoch)).Nodup) :
    (includedBonds contributions bonds epoch).Nodup := by
  unfold includedBonds
  generalize contributions.flatMap (·.rewardedKeys) = keys at hkeys ⊢
  induction keys with
  | nil => exact nodup_nil
  | cons k keys ih =>
    rw [filterMap_cons]
    by_cases hk : k.2 = epoch
    · rw [filter_cons_of_pos (by simpa using hk), nodup_cons] at hkeys
      rw [if_pos hk]
      cases hbond : bondByOutpoint bonds k.1 with
      | none => exact ih hkeys.2
      | some bond =>
        refine nodup_cons.mpr ⟨fun hmem => hkeys.1 ?_, ih hkeys.2⟩
        -- a second key with the same bond would be the same key
        obtain ⟨k', hk', hbond'⟩ := mem_filterMap.mp hmem
        split at hbond'
        · next heq =>
          have ho := (mem_of_bondByOutpoint hbond).2.symm.trans (mem_of_bondByOutpoint hbond').2
          have hkk : k = k' := Prod.ext ho (hk.trans heq.symm)
          rw [hkk]
          exact mem_filter.mpr ⟨hk', by simpa using heq⟩
        · cases hbond'
    · rw [filter_cons_of_neg (by simpa using hk)] at hkeys
      rw [if_neg hk]
      exact ih hkeys

theorem sum_included_le_expected {anchor : ℕ} (hrows : BondRows bonds)
    (hkeys : ((contributions.flatMap (·.rewardedKeys)).filter (·.2 = epoch)).Nodup)
    (hactive : ∀ bond ∈ includedBonds contributions bonds epoch, isBondActiveAt bond anchor) :
    ((includedBonds contributions bonds epoch).map (·.amount)).sum ≤
      expectedStakeAt bonds anchor := by
  have hsub : includedBonds contributions bonds epoch ⊆ bonds.filter (isBondActiveAt · anchor) := by
    intro bond hbond
    refine mem_filter.mpr ⟨?_, hactive bond hbond⟩
    obtain ⟨k, -, hk⟩ := mem_filterMap.mp hbond
    split at hk
    · exact (mem_of_bondByOutpoint hk).1
    · cases hk
  obtain ⟨l, hperm, hlist⟩ := subperm_of_subset (nodup_includedBonds hkeys) hsub
  have hsum : ((includedBonds contributions bonds epoch).map (·.amount)).sum ≤
      ((bonds.filter (isBondActiveAt · anchor)).map (·.amount)).sum := by
    rw [← (hperm.map _).sum_eq]
    exact (hlist.map _).sum_le_sum fun _ _ => Nat.zero_le _
  rw [expectedStakeAt, satSum_eq]
  refine le_min hsum (hsum.trans (le_trans ?_ hrows.amounts_fit))
  exact (filter_sublist.map _).sum_le_sum fun _ _ => Nat.zero_le _

def SettlementInput.Settles (params : DnsParams) (b : SettlementInput) (epoch : ℕ) : Prop :=
  ∃ eMin eMax, b.finalized params = some (eMin, eMax) ∧ eMin ≤ epoch ∧ epoch ≤ eMax

/-- In the epochs a block settles, every rewarded key occurs once and its bond was active at the
epoch's anchor. -/
structure IncludedActive (params : DnsParams) (b : SettlementInput) : Prop where
  unique : ∀ epoch, b.Settles params epoch →
    ((b.contributions.flatMap (·.rewardedKeys)).filter (·.2 = epoch)).Nodup
  active : ∀ o epoch bond, b.Settles params epoch →
    (o, epoch) ∈ b.contributions.flatMap (·.rewardedKeys) →
    bondByOutpoint b.bonds o = some bond →
    isBondActiveAt bond (epochAnchorDaa (max params.epochLengthBlocks 1) epoch)

theorem IncludedActive.included_le_expected (hrows : BondRows b.bonds) (h : IncludedActive params b)
    {tally : EpochTally} (ht : (epoch, tally) ∈ b.tallies params)
    (hsettles : b.Settles params epoch) :
    (tally.included.map Prod.snd).sum ≤ tally.expectedStake := by
  obtain ⟨epoch', -, heq⟩ := mem_map.mp ht
  obtain ⟨rfl, rfl⟩ := Prod.mk.inj heq
  simp only [map_map]
  have hlen : max (max params.epochLengthBlocks 1) 1 = max params.epochLengthBlocks 1 := by omega
  rw [hlen]
  refine sum_included_le_expected hrows (h.unique epoch' hsettles) fun bond hbond => ?_
  obtain ⟨⟨o, e⟩, hk, hrow⟩ := mem_filterMap.mp hbond
  split at hrow
  · next he =>
    obtain rfl : e = epoch' := he
    exact h.active o e bond hsettles hk hrow
  · cases hrow

def DripState.Balanced (balance : ℕ) (s : DripState) : Prop :=
  outputsValue s.outputs + s.remaining = balance ∧ s.totalDrip = outputsValue s.outputs

theorem dripStep_balanced {cap eMin eMax : ℕ} {s : DripState} {t : ℕ × EpochTally}
    (ht : eMin ≤ t.1 → t.1 ≤ eMax → (t.2.included.map Prod.snd).sum ≤ t.2.expectedStake)
    (hbal : balance ≤ U64_MAX) (hs : s.Balanced balance) :
    (dripStep cap eMin eMax s t).Balanced balance := by
  unfold dripStep
  split
  · exact hs
  · next hrange =>
    simp only [not_or, Nat.not_lt] at hrange
    dsimp only
    split
    · exact hs
    · generalize hdrip : validatorQualityBonusOutputs (min s.remaining cap) t.2.included
        t.2.expectedStake true = drip
      have hpaid : outputsValue drip ≤ min s.remaining cap := by
        rw [← hdrip]
        exact outputsValue_validatorQualityBonusOutputs_le true (ht hrange.1 hrange.2.1)
      obtain ⟨hsum, htotal⟩ := hs
      have hfold : satSum U64_MAX (drip.map (·.value)) = outputsValue drip := by
        rw [satSum_eq]
        exact min_eq_left (show outputsValue drip ≤ U64_MAX by omega)
      simp only [DripState.Balanced, hfold, outputsValue_append]
      omega

theorem reserveDripOutputs_le (hrows : BondRows b.bonds) (h : IncludedActive params b)
    (hbal : balance ≤ U64_MAX) :
    outputsValue (reserveDripOutputs params b balance).1 ≤ balance ∧
      (reserveDripOutputs params b balance).2 =
        outputsValue (reserveDripOutputs params b balance).1 := by
  unfold reserveDripOutputs
  dsimp only
  split
  · exact ⟨Nat.zero_le _, rfl⟩
  · split
    · exact ⟨Nat.zero_le _, rfl⟩
    · next eMin eMax hfin =>
      have hend := List.foldlRecOn (motive := DripState.Balanced balance) (b.tallies params)
        (dripStep params.rewardParams.reserveDripPerEpochCapSompi eMin eMax)
        (b := ⟨[], balance, 0⟩) ⟨Nat.zero_add _, rfl⟩ (by
          intro s hs t ht
          refine dripStep_balanced (fun hmin hmax => ?_) hbal hs
          exact h.included_le_expected hrows ht ⟨eMin, eMax, hfin, hmin, hmax⟩)
      exact ⟨Nat.le.intro hend.1, hend.2⟩

structure ReserveBlock extends SettlementInput where
  reserveAccrual : ℕ

structure ReserveState where
  balance : ℕ
  accrued : ℕ
  dripped : ℕ

/-- The recurrence `balance_after = parent_balance + reserve_accrual − drip`, saturating both
ways. -/
def reserveStep (params : DnsParams) (s : ReserveState) (b : ReserveBlock) : ReserveState :=
  let drip := reserveDripOutputs params b.toSettlementInput s.balance
  { balance := min (s.balance + b.reserveAccrual) U64_MAX - drip.2
    accrued := s.accrued + b.reserveAccrual
    dripped := s.dripped + outputsValue drip.1 }

def reserveAfter (params : DnsParams) (chain : List ReserveBlock) : ReserveState :=
  chain.foldl (reserveStep params) ⟨0, 0, 0⟩

structure ReserveState.Backed (s : ReserveState) : Prop where
  balance_le : s.balance ≤ U64_MAX
  backed : s.dripped + s.balance ≤ s.accrued

theorem reserveStep_backed {s : ReserveState} {b : ReserveBlock} (hrows : BondRows b.bonds)
    (h : IncludedActive params b.toSettlementInput) (hs : s.Backed) :
    (reserveStep params s b).Backed := by
  obtain ⟨hle, hreport⟩ := reserveDripOutputs_le hrows h hs.balance_le
  have hbacked := hs.backed
  refine ⟨?_, ?_⟩
  · exact (Nat.sub_le _ _).trans (min_le_right _ _)
  · simp only [reserveStep, hreport]
    omega

theorem reserveAfter_backed (hrows : ∀ b ∈ chain, BondRows b.bonds)
    (h : ∀ b ∈ chain, IncludedActive params b.toSettlementInput) :
    (reserveAfter params chain).Backed := by
  refine List.foldlRecOn (motive := ReserveState.Backed) chain (reserveStep params)
    ⟨Nat.zero_le _, Nat.le_refl 0⟩ ?_
  intro s hs b hb
  exact reserveStep_backed (hrows b hb) (h b hb) hs

/-- Along every chain whose blocks settle only epochs with rewarded bonds active at the anchor, each
settled epoch is paid at most its quality pool, each drip mints at most the selected parent's
balance, and altogether no more is dripped than was accrued. -/
theorem deferred_payouts_bounded (hrows : ∀ b ∈ chain, BondRows b.bonds)
    (hactive : ∀ b ∈ chain, IncludedActive params b.toSettlementInput) :
    (∀ past b, past ++ [b] <+: chain →
      (∀ epoch tally, (epoch, tally) ∈ b.tallies params → b.Settles params epoch →
        outputsValue (epochBonusOutputs params tally) ≤ tally.qualityPoolAccrued) ∧
      outputsValue (reserveDripOutputs params b.toSettlementInput
        (reserveAfter params past).balance).1 ≤ (reserveAfter params past).balance) ∧
    (reserveAfter params chain).dripped ≤ (reserveAfter params chain).accrued := by
  refine ⟨fun past b hpre => ?_, ?_⟩
  · have hb : b ∈ chain := hpre.subset (mem_append_right past mem_cons_self)
    have hpast : ∀ c ∈ past, c ∈ chain := fun c hc =>
      hpre.subset (mem_append_left [b] hc)
    have hbacked := reserveAfter_backed (fun c hc => hrows c (hpast c hc))
      (fun c hc => hactive c (hpast c hc))
    refine ⟨fun epoch tally ht hsettles => ?_, ?_⟩
    · exact outputsValue_validatorQualityBonusOutputs_le _
        ((hactive b hb).included_le_expected (hrows b hb) ht hsettles)
    · exact (reserveDripOutputs_le (hrows b hb) (hactive b hb) hbacked.balance_le).1
  · have hbacked := (reserveAfter_backed hrows hactive).backed
    omega

/-- Epochs of ten blocks, final as soon as they end, with a drip that is never capped. -/
def reserveParams : DnsParams :=
  { (default : DnsParams) with
    epochLengthBlocks := 10
    rewardParams := { (default : RewardParams) with reserveDripPerEpochCapSompi := 1000000 } }

def reserveBond (id amount activation : ℕ) : StakeBondRecord :=
  { (default : StakeBondRecord) with
    bondOutpoint := ⟨id, 0⟩
    amount := amount
    activationDaaScore := activation
    ownerRewardSpkPayload := id }

def accruingBlock : ReserveBlock where
  daaScore := 12
  parentDaaScore := 11
  contributions := []
  bonds := []
  reserveAccrual := 500

/-- The block that settles epoch 1, in which the given bonds were rewarded. Only bond 1, of stake 1,
is active at the anchor, score 10; bonds 2 and 3 follow at score 12. -/
def settlingBlock (rewarded : List ℕ) : ReserveBlock where
  daaScore := 20
  parentDaaScore := 19
  contributions := [⟨15, rewarded.map fun id => (⟨id, 0⟩, 1), 1000⟩]
  bonds := [reserveBond 1 1 5, reserveBond 2 100 12, reserveBond 3 100 12]
  reserveAccrual := 0

/-- Two bonds that became active after the anchor are each paid the whole quality pool and the
whole reserve. -/
theorem deferred_payouts_overdrawn :
    (settlingBlock [2, 3]).tallies reserveParams =
      [(1, ⟨1, [(2, 100), (3, 100)], 1000, true⟩)] ∧
    outputsValue (deferredQualityBonusOutputs reserveParams
      (settlingBlock [2, 3]).toSettlementInput) = 2000 ∧
    (reserveAfter reserveParams [accruingBlock]).balance = 500 ∧
    outputsValue (reserveDripOutputs reserveParams (settlingBlock [2, 3]).toSettlementInput
      500).1 = 1000 ∧
    (reserveAfter reserveParams [accruingBlock, settlingBlock [2, 3]]).accrued = 500 ∧
    (reserveAfter reserveParams [accruingBlock, settlingBlock [2, 3]]).dripped = 1000 := by
  decide

/-- A bond active at the anchor is paid within the pools. -/
theorem deferred_payouts_bounded_early_bond :
    outputsValue (reserveDripOutputs reserveParams (settlingBlock [1]).toSettlementInput
      (reserveAfter reserveParams [accruingBlock]).balance).1 ≤
      (reserveAfter reserveParams [accruingBlock]).balance ∧
    (reserveAfter reserveParams [accruingBlock, settlingBlock [1]]).dripped ≤
      (reserveAfter reserveParams [accruingBlock, settlingBlock [1]]).accrued := by
  have hrows : ∀ b ∈ [accruingBlock, settlingBlock [1]], BondRows b.bonds := by
    intro b hb
    simp only [mem_cons, not_mem_nil, or_false] at hb
    obtain rfl | rfl := hb
    · exact ⟨nodup_nil, Nat.zero_le _⟩
    · exact ⟨by decide, by decide⟩
  have hactive : ∀ b ∈ [accruingBlock, settlingBlock [1]],
      IncludedActive reserveParams b.toSettlementInput := by
    intro b hb
    simp only [mem_cons, not_mem_nil, or_false] at hb
    obtain rfl | rfl := hb
    · exact ⟨fun _ _ => nodup_nil, nofun⟩
    · refine ⟨fun epoch _ => List.Nodup.filter _ (nodup_singleton _), ?_⟩
      intro o epoch bond _ hk hbond
      obtain ⟨rfl, rfl⟩ : o = ⟨1, 0⟩ ∧ epoch = 1 := by simpa [settlingBlock] using hk
      obtain rfl : reserveBond 1 1 5 = bond := Option.some.inj hbond
      decide
  have h := deferred_payouts_bounded hrows hactive
  exact ⟨(h.1 [accruingBlock] (settlingBlock [1]) (prefix_rfl)).2, h.2⟩

end Misaka.Dns
