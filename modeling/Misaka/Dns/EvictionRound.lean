import Misaka.Dns.Dormancy

/-!
# One eviction round

A round evicts a prefix of the bonds that are inactive past the window, least recently attested
first. Its stake stays within the budget, a part of the active stake, unless the first bond alone
exceeds it; so the finality denominator shrinks at a bounded rate whatever the order of the bonds.
-/

namespace Misaka.Dns

open Misaka.Core List

def StakeBondView.evictKey (b : StakeBondView) : ℕ ×ₗ ℕ ×ₗ ℕ :=
  toLex (b.lastAttestedEpoch, outpointKey b.bondOutpoint)

def StakeBondView.Inactive (params : DnsParams) (readyEpoch : ℕ) (b : StakeBondView) : Prop :=
  b.status = .active ∧ params.dormancyWindowEpochs < readyEpoch - b.lastAttestedEpoch

instance (params : DnsParams) (readyEpoch : ℕ) (b : StakeBondView) :
    Decidable (b.Inactive params readyEpoch) :=
  inferInstanceAs (Decidable (_ ∧ _))

def evictionBudget (params : DnsParams) (bonds : List StakeBondView) : ℕ :=
  ((bonds.filter (·.status = .active)).map (·.amount)).sum * params.dormancyEvictLimitBps / 10000

variable {params : DnsParams} {bonds bonds' : List StakeBondView} {readyEpoch : ℕ}

variable {a b : StakeBondView} {budget : ℕ}

theorem evictsBefore_iff : a.evictsBefore b = true ↔ a.evictKey ≤ b.evictKey := by
  simp only [StakeBondView.evictsBefore, StakeBondView.evictKey, outpointKey,
    Prod.Lex.toLex_le_toLex,
    Bool.or_eq_true, Bool.and_eq_true, decide_eq_true_eq, beq_iff_eq]

def sortedCandidates (params : DnsParams) (bonds : List StakeBondView) (readyEpoch : ℕ) :
    List StakeBondView :=
  (bonds.filter (·.Inactive params readyEpoch)).insertionSort fun a b => a.evictsBefore b

theorem sortedCandidates_perm :
    (sortedCandidates params bonds readyEpoch).Perm
      (bonds.filter (·.Inactive params readyEpoch)) :=
  perm_insertionSort _ _

theorem pairwise_sortedCandidates :
    (sortedCandidates params bonds readyEpoch).Pairwise fun a b => a.evictKey ≤ b.evictKey := by
  have : Std.Total fun a b : StakeBondView => a.evictsBefore b = true := by
    refine ⟨fun a b => ?_⟩
    rw [evictsBefore_iff, evictsBefore_iff]
    exact le_total _ _
  have : IsTrans StakeBondView fun a b => a.evictsBefore b = true := by
    refine ⟨fun a b c => ?_⟩
    rw [evictsBefore_iff, evictsBefore_iff, evictsBefore_iff]
    exact le_trans
  exact (pairwise_insertionSort _ _).imp evictsBefore_iff.mp

theorem eq_of_evictKey (hdistinct : (bonds.map (·.bondOutpoint)).Nodup) (ha : a ∈ bonds)
    (hb : b ∈ bonds) (hkey : a.evictKey = b.evictKey) : a = b :=
  inj_on_of_nodup_map hdistinct ha hb
    (outpointKey_injective (congrArg (fun k => (ofLex k).2) hkey))

theorem mem_of_mem_sortedCandidates (hb : b ∈ sortedCandidates params bonds readyEpoch) :
    b ∈ bonds ∧ b.Inactive params readyEpoch := by
  obtain ⟨hmem, hinactive⟩ := mem_filter.mp (sortedCandidates_perm.mem_iff.mp hb)
  exact ⟨hmem, of_decide_eq_true hinactive⟩

theorem sortedCandidates_eq_of_perm (hdistinct : (bonds.map (·.bondOutpoint)).Nodup)
    (hperm : bonds'.Perm bonds) :
    sortedCandidates params bonds' readyEpoch = sortedCandidates params bonds readyEpoch := by
  apply List.Perm.eq_of_pairwise _ pairwise_sortedCandidates pairwise_sortedCandidates
  · exact (sortedCandidates_perm.trans (hperm.filter _)).trans sortedCandidates_perm.symm
  · intro a b ha hb hab hba
    exact eq_of_evictKey hdistinct (hperm.mem_iff.mp (mem_of_mem_sortedCandidates ha).1)
      (mem_of_mem_sortedCandidates hb).1 (le_antisymm hab hba)

theorem takeUnderBudget_rest (hbudget : budget < U128_MAX) (used : ℕ) (l : List StakeBondView) :
    ∃ chosen, chosen <+: l ∧ takeUnderBudget budget used false l = chosen.map (·.bondOutpoint) ∧
      (used ≤ budget → used + (chosen.map (·.amount)).sum ≤ budget) ∧
      (budget < used → chosen = []) := by
  induction l generalizing used with
  | nil => exact ⟨[], nil_prefix, rfl, fun h => by simpa using h, fun _ => rfl⟩
  | cons b l ih =>
    by_cases hfits : min (used + b.amount) U128_MAX ≤ budget
    · have hnext : min (used + b.amount) U128_MAX = used + b.amount := by omega
      obtain ⟨chosen, hprefix, htake, hwithin, -⟩ := ih (used + b.amount)
      refine ⟨b :: chosen, (prefix_cons_inj b).mpr hprefix, ?_, fun _ => ?_, fun h => ?_⟩
      · rw [takeUnderBudget, if_pos (.inl hfits), hnext, htake, map_cons]
      · rw [map_cons, sum_cons]
        omega
      · omega
    · refine ⟨[], nil_prefix, ?_, fun h => by simpa using h, fun _ => rfl⟩
      rw [takeUnderBudget, if_neg (by simp [hfits])]
      rfl

theorem takeUnderBudget_spec (hbudget : budget < U128_MAX) (l : List StakeBondView) :
    ∃ chosen, chosen <+: l ∧ takeUnderBudget budget 0 true l = chosen.map (·.bondOutpoint) ∧
      (chosen.map (·.amount)).sum ≤ max budget ((l.head?.map (·.amount)).getD 0) ∧
      (budget = 0 → (chosen.map (·.amount)).sum = 0) := by
  cases l with
  | nil => exact ⟨[], nil_prefix, rfl, Nat.zero_le _, fun _ => rfl⟩
  | cons b l =>
    obtain ⟨chosen, hprefix, htake, hwithin, hspent⟩ :=
      takeUnderBudget_rest hbudget (min (0 + b.amount) U128_MAX) l
    have hcons : b :: chosen <+: b :: l := (prefix_cons_inj b).mpr hprefix
    by_cases hfits : min (0 + b.amount) U128_MAX ≤ budget
    · refine ⟨b :: chosen, hcons, ?_, ?_, fun hzero => ?_⟩
      · rw [takeUnderBudget, if_pos (.inl hfits), htake, map_cons]
      · rw [map_cons, sum_cons]
        omega
      · rw [map_cons, sum_cons]
        omega
    · obtain rfl := hspent (by omega)
      rcases Nat.eq_zero_or_pos budget with rfl | hpos
      · refine ⟨[], nil_prefix, ?_, Nat.zero_le _, fun _ => rfl⟩
        rw [takeUnderBudget, if_neg (by simpa using hfits)]
        rfl
      · refine ⟨[b], hcons, ?_, ?_, fun hzero => absurd hzero hpos.ne'⟩
        · rw [takeUnderBudget, if_pos (.inr ⟨rfl, hpos⟩), htake, map_cons]
        · simp

theorem deriveDormancyEvictions_eq (params : DnsParams) (bonds : List StakeBondView)
    (readyEpoch : ℕ) :
    deriveDormancyEvictions params bonds readyEpoch =
      if readyEpoch % max params.dormancyEvictPeriodEpochs 1 ≠ 0 then []
      else takeUnderBudget (min (((bonds.filter (·.status = .active)).map (·.amount)).sum *
          params.dormancyEvictLimitBps) U128_MAX / 10000) 0 true
        (sortedCandidates params bonds readyEpoch) := rfl

/-- A round gives the same bonds for every order of the input. They are a prefix of the inactive
bonds in the order of eviction, with a stake within the budget or that of the first one; with an
empty budget they have no stake. -/
theorem eviction_round_fair (params : DnsParams) (readyEpoch : ℕ) {bonds : List StakeBondView}
    (hdistinct : (bonds.map (·.bondOutpoint)).Nodup) :
    (∀ bonds' : List StakeBondView, bonds'.Perm bonds →
      deriveDormancyEvictions params bonds' readyEpoch =
        deriveDormancyEvictions params bonds readyEpoch) ∧
    ∃ candidates chosen : List StakeBondView,
      candidates.Perm (bonds.filter (·.Inactive params readyEpoch)) ∧
      candidates.Pairwise (fun a b => a.evictKey < b.evictKey) ∧
      chosen <+: candidates ∧
      deriveDormancyEvictions params bonds readyEpoch = chosen.map (·.bondOutpoint) ∧
      (∀ b ∈ chosen, b ∈ bonds ∧ b.Inactive params readyEpoch) ∧
      (chosen.map (·.amount)).sum ≤
        max (evictionBudget params bonds) ((candidates.head?.map (·.amount)).getD 0) ∧
      (evictionBudget params bonds = 0 → ∀ b ∈ chosen, b.amount = 0) := by
  constructor
  · intro bonds' hperm
    rw [deriveDormancyEvictions_eq, deriveDormancyEvictions_eq,
      sortedCandidates_eq_of_perm hdistinct hperm, ((hperm.filter _).map _).sum_eq]
  · have hstrict : (sortedCandidates params bonds readyEpoch).Pairwise
        fun a b => a.evictKey < b.evictKey := by
      have hnodup : (sortedCandidates params bonds readyEpoch).Nodup :=
        sortedCandidates_perm.nodup_iff.mpr ((List.Nodup.of_map _ hdistinct).filter _)
      refine (hnodup.and pairwise_sortedCandidates).imp_of_mem fun ha hb h => ?_
      refine lt_of_le_of_ne h.2 fun hkey => h.1 ?_
      exact eq_of_evictKey hdistinct (mem_of_mem_sortedCandidates ha).1
        (mem_of_mem_sortedCandidates hb).1 hkey
    rw [deriveDormancyEvictions_eq]
    by_cases hround : readyEpoch % max params.dormancyEvictPeriodEpochs 1 ≠ 0
    · rw [if_pos hround]
      exact ⟨_, [], sortedCandidates_perm, hstrict, nil_prefix, rfl, by simp, by simp, by simp⟩
    · -- the cut of the product at the largest u128 only lowers the budget
      have hcut : min (((bonds.filter (·.status = .active)).map (·.amount)).sum *
          params.dormancyEvictLimitBps) U128_MAX / 10000 ≤ evictionBudget params bonds :=
        Nat.div_le_div_right (min_le_left _ _)
      have hbudget : min (((bonds.filter (·.status = .active)).map (·.amount)).sum *
          params.dormancyEvictLimitBps) U128_MAX / 10000 < U128_MAX :=
        (Nat.div_le_div_right (min_le_right _ _)).trans_lt (by decide)
      obtain ⟨chosen, hchosen, htake, hsum, hzero⟩ :=
        takeUnderBudget_spec hbudget (sortedCandidates params bonds readyEpoch)
      rw [if_neg hround]
      refine ⟨_, chosen, sortedCandidates_perm, hstrict, hchosen, htake, ?_, ?_, ?_⟩
      · exact fun b hb => mem_of_mem_sortedCandidates (hchosen.subset hb)
      · exact hsum.trans (max_le_max_right _ hcut)
      · intro hempty b hb
        have hnone := hzero (Nat.le_zero.mp (hempty ▸ hcut))
        exact sum_eq_zero_iff.mp hnone _ (mem_map_of_mem hb)

def strictParams : DnsParams :=
  { (default : DnsParams) with
    dormancyWindowEpochs := 10, dormancyEvictPeriodEpochs := 1, dormancyEvictLimitBps := 1 }

/-- Within an empty budget the loop still takes a bond without stake. -/
theorem empty_budget_evicts_zero_amount :
    evictionBudget strictParams [⟨⟨1, 0⟩, 0, .active, 10⟩] = 0 ∧
      deriveDormancyEvictions strictParams [⟨⟨1, 0⟩, 0, .active, 10⟩] 1000 = [⟨1, 0⟩] := by
  decide

/-- Two listings of two bonds, of which the budget allows the longest inactive one. -/
theorem eviction_round_fair_two :
    let params := { strictParams with dormancyEvictLimitBps := 5000 }
    let a : StakeBondView := ⟨⟨1, 0⟩, 100, .active, 10⟩
    let b : StakeBondView := ⟨⟨2, 0⟩, 100, .active, 11⟩
    deriveDormancyEvictions params [b, a] 1000 = deriveDormancyEvictions params [a, b] 1000 ∧
      deriveDormancyEvictions params [a, b] 1000 = [⟨1, 0⟩] := by
  intro params a b
  have hdistinct : ([a, b].map (·.bondOutpoint)).Nodup := by decide
  exact ⟨(eviction_round_fair params 1000 hdistinct).1 _ (List.Perm.swap a b []), by decide⟩

end Misaka.Dns
