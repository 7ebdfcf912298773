import Misaka.Dns.FeeSplit
import Misaka.Dns.Finality
import Misaka.Dns.MandatoryInclusion

/-!
# Stake scores of a branch

`stake_score_over_window` credits the creditable epochs of a tip's whole window;
`stake_score_since_ancestor` stops at an ancestor and credits only the epochs anchored above it. The
two differ by the credit of the epochs anchored at or below the ancestor.
-/

namespace Misaka.Dns

open Misaka.Core List

structure EpochStakeTally where
  epoch : ℕ
  signedStakeSompi : ℕ
  totalActiveStakeSompi : ℕ
  deriving DecidableEq, Repr

/-- The included stake is below the quality floor of the credit. -/
abbrev creditBelowFloor (includedStake expectedStake qualityFloorBps : ℕ) : Prop :=
  min (min includedStake expectedStake * 10000) U128_MAX <
    min (expectedStake * min qualityFloorBps 10000) U128_MAX

/-- What an epoch adds to the score: nothing below the floor, then linear up to the full scale. -/
def epochStakeCredit (includedStake expectedStake qualityFloorBps : ℕ) : ℕ :=
  if expectedStake = 0 then 0
  else if creditBelowFloor includedStake expectedStake qualityFloorBps then 0
  else
    let included := min includedStake expectedStake
    let floor := min qualityFloorBps 10000
    let denom := 10000 - floor
    if denom = 0 then STAKE_SCORE_SCALE
    else
      let numerator := included * 10000 - expectedStake * floor
      min (numerator * STAKE_SCORE_SCALE) U128_MAX / min (expectedStake * denom) U128_MAX

def computeStakeScore (perEpoch : List EpochStakeTally) (qualityFloorBps : ℕ) : ℕ :=
  satSum U128_MAX (perEpoch.map fun e =>
    epochStakeCredit e.signedStakeSompi e.totalActiveStakeSompi qualityFloorBps)

def totalActiveStakeByEpoch (bonds : List StakeBondRecord) (epochAnchorDaa : List (ℕ × ℕ)) :
    List (ℕ × ℕ) :=
  epochAnchorDaa.map fun e =>
    (e.1, satSum U64_MAX ((bonds.filter (isBondActiveAt · e.2)).map (·.amount)))

def aggregateEpochTallies (contributions : List AttestationContribution)
    (totalActiveStake : List (ℕ × ℕ)) : List EpochStakeTally :=
  totalActiveStake.map fun e => ⟨e.1, includedByEpoch contributions e.1, e.2⟩

section Scores

variable (P : Primitives) (params : DnsParams) (netId : BlockHash) (t : BlockTree)
  (acceptedTxs : BlockHash → List Transaction)

def onBranch (stopAt : Option BlockHash) (anchorHash : BlockHash) : Bool :=
  stopAt.all fun i => decide (anchorHash ≠ i) && decide (anchorHash ∉ t.lineage i)

/-- `collect_stake_contributions_v2`, with the block to stop at. -/
def collectStakeContributionsV2At (stopAt : Option BlockHash) (tip : BlockHash)
    (bonds : List StakeBondRecord) : StakeContributions :=
  let chain := t.chainRows tip
  let creditable := (canonicalAnchorsInWindow params chain).filter fun a =>
    onBranch t stopAt a.2.anchorHash
  let walked := chain.takeWhile fun r => decide (some r.hash ≠ stopAt) &&
    decide (t.blueScore tip - r.blueScore ≤ params.stakeScoreWindowBlueScore)
  contributionsOf P netId acceptedTxs creditable walked bonds

def stakeScoreAt (stopAt : Option BlockHash) (tip : BlockHash) (bonds : List StakeBondRecord) : ℕ :=
  let collected := collectStakeContributionsV2At P params netId t acceptedTxs stopAt tip bonds
  let totals := totalActiveStakeByEpoch bonds collected.epochAnchorDaa
  computeStakeScore (aggregateEpochTallies collected.contributions totals)
    params.stakeEventQualityFloorBps

def stakeScoreSinceAncestor (tip ancestor : BlockHash) (bonds : List StakeBondRecord) : ℕ :=
  stakeScoreAt P params netId t acceptedTxs (some ancestor) tip bonds

def stakeScoreOverWindow (tip : BlockHash) (bonds : List StakeBondRecord) : ℕ :=
  stakeScoreAt P params netId t acceptedTxs none tip bonds

def sharedEpochCredit (tip ancestor : BlockHash) (bonds : List StakeBondRecord) : ℕ :=
  let collected := collectStakeContributionsV2At P params netId t acceptedTxs none tip bonds
  let shared := (canonicalAnchorsInWindow params (t.chainRows tip)).filter fun a =>
    !onBranch t (some ancestor) a.2.anchorHash
  let totals := totalActiveStakeByEpoch bonds (shared.map fun a => (a.1, a.2.anchorDaaScore))
  computeStakeScore (aggregateEpochTallies collected.contributions totals)
    params.stakeEventQualityFloorBps

/-- No block accepts an attestation of itself or of a block built on it: a block hash commits to
what the block and its past hold. -/
def CausalAttestations : Prop :=
  ∀ b, ∀ att ∈ attestationsFromAcceptedTxs P (acceptedTxs b), b ∉ t.lineage att.targetHash

end Scores

variable {P : Primitives} {params : DnsParams} {netId : BlockHash} {t : BlockTree}
  {acceptedTxs : BlockHash → List Transaction} {bonds : List StakeBondRecord}
  {creditable : List (ℕ × CanonicalLaggedEpochAnchor)} {tip ancestor : BlockHash} {epoch : ℕ}
  {anchor : CanonicalLaggedEpochAnchor} {att : StakeAttestation}

def contribution? (P : Primitives) (netId : BlockHash)
    (creditable : List (ℕ × CanonicalLaggedEpochAnchor)) (bonds : List StakeBondRecord)
    (att : StakeAttestation) : Option AttestationContribution :=
  (creditable.lookup att.epoch).bind fun anchor =>
    if att.names anchor then
      (creditedStatus P netId bonds anchor att).bind fun c =>
        if c.2 = .active then some ⟨att.epoch, att.validatorId, att.bondOutpoint, c.1.amount⟩
        else none
    else none

theorem contributions_contributionsOf (walked : List HeaderRow) :
    (contributionsOf P netId acceptedTxs creditable walked bonds).contributions =
      (walked.flatMap fun r => attestationsFromAcceptedTxs P (acceptedTxs r.hash)).filterMap
        (contribution? P netId creditable bonds) := by
  rw [contributionsOf, filterMap_filterMap]
  refine filterMap_congr fun att _ => ?_
  rw [contribution?]
  cases creditable.lookup att.epoch with
  | none => rfl
  | some anchor =>
    simp only [Option.bind_some]
    split
    · cases creditedStatus P netId bonds anchor att <;> rfl
    · rfl

theorem contribution?_eq_some {c : AttestationContribution}
    (h : contribution? P netId creditable bonds att = some c) :
    c.epoch = att.epoch ∧ ∃ anchor, creditable.lookup att.epoch = some anchor ∧
      att.names anchor := by
  obtain ⟨anchor, hanchor, h⟩ := Option.bind_eq_some_iff.mp h
  split at h
  · next hnames =>
    obtain ⟨status, -, h⟩ := Option.bind_eq_some_iff.mp h
    split at h
    · cases h
      exact ⟨rfl, anchor, hanchor, hnames⟩
    · cases h
  · cases h

theorem filter_contribution?_of_ne (h : att.epoch ≠ epoch) :
    (contribution? P netId creditable bonds att).filter (·.epoch = epoch) = none := by
  cases hc : contribution? P netId creditable bonds att with
  | none => rfl
  | some c =>
    obtain ⟨hepoch, -⟩ := contribution?_eq_some hc
    simp [Option.filter, hepoch, h]

theorem includedByEpoch_congr {l l' : List AttestationContribution}
    (h : l.filter (·.epoch = epoch) = l'.filter (·.epoch = epoch)) :
    includedByEpoch l epoch = includedByEpoch l' epoch := by
  have hkey : ∀ c c' : AttestationContribution, c.key = c'.key →
      decide (c.epoch = epoch) = decide (c'.epoch = epoch) := by
    intro c c' hcc
    rw [show c.epoch = c'.epoch from congrArg (·.2.2) hcc]
  unfold includedByEpoch
  rw [filter_firstBy hkey (fun _ _ => Iff.rfl), h, ← filter_firstBy hkey (fun _ _ => Iff.rfl)]

theorem lookup_of_mem (h : (epoch, anchor) ∈ creditable)
    (hunique : ∀ anchor', (epoch, anchor') ∈ creditable → anchor' = anchor) :
    creditable.lookup epoch = some anchor := by
  cases hlookup : creditable.lookup epoch with
  | none =>
    rw [lookup_eq_none_iff] at hlookup
    simpa using hlookup _ h
  | some anchor' =>
    obtain ⟨l₁, l₂, rfl, -⟩ := lookup_eq_some_iff.mp hlookup
    rw [hunique anchor' (by simp)]

def anchorCredit (bonds : List StakeBondRecord) (floor : ℕ)
    (contributions : List AttestationContribution) (a : ℕ × CanonicalLaggedEpochAnchor) : ℕ :=
  epochStakeCredit (includedByEpoch contributions a.1)
    (satSum U64_MAX ((bonds.filter (isBondActiveAt · a.2.anchorDaaScore)).map (·.amount))) floor

theorem computeStakeScore_anchors (contributions : List AttestationContribution)
    (anchors : List (ℕ × CanonicalLaggedEpochAnchor)) (floor : ℕ) :
    computeStakeScore (aggregateEpochTallies contributions (totalActiveStakeByEpoch bonds
        (anchors.map fun a => (a.1, a.2.anchorDaaScore)))) floor =
      min (anchors.map (anchorCredit bonds floor contributions)).sum U128_MAX := by
  rw [computeStakeScore, aggregateEpochTallies, totalActiveStakeByEpoch, satSum_eq]
  simp only [map_map, Function.comp_def]
  rfl

/-- The walk over the window passes the blocks above the ancestor first, then only blocks on the
ancestor's chain. -/
theorem takeWhile_split (hancestor : ancestor ∈ t.lineage tip) (inWindow : HeaderRow → Bool) :
    ∃ rest, (t.chainRows tip).takeWhile inWindow =
        (t.chainRows tip).takeWhile (fun r => decide (some r.hash ≠ some ancestor) && inWindow r) ++
          rest ∧
      ∀ r ∈ rest, r.hash ∈ t.lineage ancestor := by
  obtain ⟨above, below, hsplit, habove⟩ := eq_append_cons_of_mem hancestor
  have hchain := Forest.lineage_of_append hsplit
  have hrows : t.chainRows tip = above.map t.row ++ (ancestor :: below).map t.row := by
    rw [BlockTree.chainRows, hsplit, map_append]
  have hkept : (above.map t.row).takeWhile
      (fun r => decide (some r.hash ≠ some ancestor) && inWindow r) =
        (above.map t.row).takeWhile inWindow := by
    clear hrows hsplit
    induction above with
    | nil => rfl
    | cons b above ih =>
      rw [mem_cons, not_or] at habove
      have hne : (t.row b).hash ≠ ancestor := fun h => habove.1 h.symm
      rw [map_cons, takeWhile_cons, takeWhile_cons, ih habove.2]
      simp only [Option.some.injEq, hne, ne_eq, not_false_eq_true, decide_true, Bool.true_and]
  have hstop : ((ancestor :: below).map t.row).takeWhile
      (fun r => decide (some r.hash ≠ some ancestor) && inWindow r) = [] := by
    simp [BlockTree.row]
  rw [hrows, takeWhile_append, takeWhile_append, hkept, hstop]
  split
  · refine ⟨((ancestor :: below).map t.row).takeWhile inWindow, by rw [append_nil],
      fun r hr => ?_⟩
    obtain ⟨b, hb, rfl⟩ := mem_map.mp (takeWhile_subset _ hr)
    rwa [hchain] at hb
  · exact ⟨[], (append_nil _).symm, fun _ h => absurd h not_mem_nil⟩

theorem onBranch_some {block : BlockHash} :
    onBranch t (some ancestor) block ↔ block ∉ t.lineage ancestor := by
  simp only [onBranch, Option.all_some, Bool.and_eq_true, decide_eq_true_iff, and_iff_right_iff_imp]
  rintro h rfl
  exact h (Forest.self_mem_lineage _)

theorem mem_lineage_of_anchor
    (h : (epoch, anchor) ∈ canonicalAnchorsInWindow params (t.chainRows tip)) :
    anchor.anchorHash ∈ t.lineage tip := by
  obtain ⟨-, row, -, -, hrow, hhash, -⟩ := mem_canonicalAnchorsInWindow h
  obtain ⟨b, hb, rfl⟩ := mem_map.mp (mem_of_find?_eq_some hrow)
  rwa [hhash]

theorem lookup_onBranch {stopAt : Option BlockHash}
    (hanchor : (epoch, anchor) ∈ canonicalAnchorsInWindow params (t.chainRows tip))
    (habove : onBranch t stopAt anchor.anchorHash) :
    ((canonicalAnchorsInWindow params (t.chainRows tip)).filter
      fun a => onBranch t stopAt a.2.anchorHash).lookup epoch = some anchor :=
  lookup_of_mem (mem_filter.mpr ⟨hanchor, habove⟩)
    fun _ h => canonicalAnchorsInWindow_unique (mem_filter.mp h).1 hanchor

theorem contributions_above (hcausal : CausalAttestations P t acceptedTxs)
    (hancestor : ancestor ∈ t.lineage tip)
    (hanchor : (epoch, anchor) ∈ canonicalAnchorsInWindow params (t.chainRows tip))
    (habove : onBranch t (some ancestor) anchor.anchorHash) :
    (collectStakeContributionsV2At P params netId t acceptedTxs none tip bonds).contributions.filter
        (·.epoch = epoch) =
      (collectStakeContributionsV2At P params netId t acceptedTxs (some ancestor) tip
        bonds).contributions.filter (·.epoch = epoch) := by
  obtain ⟨rest, hwalk, hrest⟩ := takeWhile_split hancestor fun r =>
    decide (t.blueScore tip - r.blueScore ≤ params.stakeScoreWindowBlueScore)
  have hall : (t.chainRows tip).takeWhile (fun r => decide (some r.hash ≠ none) &&
      decide (t.blueScore tip - r.blueScore ≤ params.stakeScoreWindowBlueScore)) =
        (t.chainRows tip).takeWhile fun r =>
          decide (t.blueScore tip - r.blueScore ≤ params.stakeScoreWindowBlueScore) := by
    simp
  unfold collectStakeContributionsV2At
  rw [contributions_contributionsOf, contributions_contributionsOf, hall, hwalk,
    flatMap_append, filterMap_append, filter_append, filter_filterMap,
    filter_filterMap, filter_filterMap]
  refine (congrArg₂ (· ++ ·) (filterMap_congr fun att _ => ?_)
    (filterMap_eq_nil_iff.mpr fun att hatt => ?_)).trans (append_nil _)
  all_goals by_cases hepoch : att.epoch = epoch
  · rw [contribution?, contribution?, hepoch, lookup_onBranch hanchor rfl,
      lookup_onBranch hanchor habove]
  · rw [filter_contribution?_of_ne hepoch, filter_contribution?_of_ne hepoch]
  · -- what the ancestor's chain accepted cannot name an anchor above the ancestor
    obtain ⟨r, hr, hatt⟩ := mem_flatMap.mp hatt
    cases hc : contribution? P netId _ bonds att with
    | none => rfl
    | some c =>
      obtain ⟨-, anchor', hlookup, hnames⟩ := contribution?_eq_some hc
      rw [hepoch, lookup_onBranch hanchor rfl] at hlookup
      cases hlookup
      have htarget : att.targetHash = anchor.anchorHash := by
        simp only [StakeAttestation.names, Bool.and_eq_true, beq_iff_eq] at hnames
        exact hnames.1
      have hmem := Forest.mem_lineage_of_notMem (mem_lineage_of_anchor hanchor) hancestor
        (onBranch_some.mp habove)
      exact absurd (Forest.mem_lineage_trans (htarget ▸ hmem) (hrest r hr))
        (hcausal r.hash att hatt)
  · exact filter_contribution?_of_ne hepoch

/-- The score over the window is the score since the ancestor plus the credit of the epochs anchored
at or below it. -/
theorem stakeScoreOverWindow_eq (hcausal : CausalAttestations P t acceptedTxs)
    (hancestor : ancestor ∈ t.lineage tip) (bonds : List StakeBondRecord) :
    stakeScoreOverWindow P params netId t acceptedTxs tip bonds =
      min (stakeScoreSinceAncestor P params netId t acceptedTxs tip ancestor bonds +
        sharedEpochCredit P params netId t acceptedTxs tip ancestor bonds) U128_MAX := by
  let anchors := canonicalAnchorsInWindow params (t.chainRows tip)
  let credit := anchorCredit bonds params.stakeEventQualityFloorBps
    (collectStakeContributionsV2At P params netId t acceptedTxs none tip bonds).contributions
  have hwindow : stakeScoreOverWindow P params netId t acceptedTxs tip bonds =
      min (anchors.map credit).sum U128_MAX := by
    have hall : anchors.filter (fun a => onBranch t none a.2.anchorHash) = anchors :=
      filter_eq_self.mpr fun _ _ => rfl
    rw [← hall]
    exact computeStakeScore_anchors _ _ _
  have hshared : sharedEpochCredit P params netId t acceptedTxs tip ancestor bonds =
      min ((anchors.filter fun a => !onBranch t (some ancestor) a.2.anchorHash).map credit).sum
        U128_MAX :=
    computeStakeScore_anchors _ _ _
  have hsince : stakeScoreSinceAncestor P params netId t acceptedTxs tip ancestor bonds =
      min ((anchors.filter fun a => onBranch t (some ancestor) a.2.anchorHash).map credit).sum
        U128_MAX := by
    refine (computeStakeScore_anchors _ _ _).trans
      (congrArg (fun l => min (sum l) U128_MAX) (map_congr_left fun a ha => ?_))
    obtain ⟨hanchor, habove⟩ := mem_filter.mp ha
    exact congrArg (epochStakeCredit · _ _)
      (includedByEpoch_congr (contributions_above hcausal hancestor hanchor habove).symm)
  have hsum := sum_map_filter_add_sum_map_filter_not
    (fun a : ℕ × CanonicalLaggedEpochAnchor => onBranch t (some ancestor) a.2.anchorHash = true)
    credit anchors
  simp only [Bool.decide_eq_true, Bool.not_eq_true, Bool.decide_eq_false] at hsum
  rw [hwindow, hsince, hshared, ← hsum]
  omega

end Misaka.Dns
