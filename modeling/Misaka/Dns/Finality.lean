import Misaka.Chain.BlueWork
import Misaka.Core.Lineage
import Misaka.Dns.Anchors

/-!
# Confirmed finality

`update_dns_state` confirms the canonical lagged anchor of the latest ready epoch once enough work
and stake are on top of it, and `dns_reorg_allows` keeps the node on chains that contain it. The
stake score of a chain, the rollout stage and the health signal are inputs here.
-/

namespace Misaka.Dns

open Misaka.Core List

inductive DnsRolloutStage where
  | launch
  | bootstrap
  | active
  deriving DecidableEq, Repr

inductive DnsHealth where
  | disabledBeforeActivation
  | active
  | degradedStakeQualityLow
  | degradedCertificateCensored
  deriving DecidableEq, Repr

structure DnsReorgInputs where
  rolloutStage : DnsRolloutStage
  mode : DnsReorgMode
  candidateIncludesConfirmedAnchor : Bool
  candidateWorkAfter : ℕ
  canonicalWorkAfter : ℕ
  candidateStakeAfter : ℕ
  canonicalStakeAfter : ℕ
  emergencyWorkMargin : ℕ
  emergencyStakeMargin : ℕ
  deriving DecidableEq, Repr

inductive DnsReorgOutcome where
  | gateInactive
  | includesConfirmedAnchor
  | dominanceSatisfied
  | hardCheckpointReject
  | dominanceViolation
  deriving DecidableEq, Repr

def DnsReorgOutcome.isAccept : DnsReorgOutcome → Bool
  | .gateInactive | .includesConfirmedAnchor | .dominanceSatisfied => true
  | .hardCheckpointReject | .dominanceViolation => false

def checkDnsReorgRule (inputs : DnsReorgInputs) : DnsReorgOutcome :=
  if inputs.rolloutStage ≠ .active then .gateInactive
  else if inputs.candidateIncludesConfirmedAnchor then .includesConfirmedAnchor
  else
    match inputs.mode with
    | .hardCheckpoint => .hardCheckpointReject
    | .twoDimensionalDominance =>
      let workBound := min (inputs.canonicalWorkAfter + inputs.emergencyWorkMargin) BLUE_WORK_MAX
      let stakeBound := min (inputs.canonicalStakeAfter + inputs.emergencyStakeMargin) U128_MAX
      if workBound < inputs.candidateWorkAfter ∧ stakeBound < inputs.candidateStakeAfter then
        .dominanceSatisfied
      else .dominanceViolation

structure DnsState where
  selectedChainAnchor : BlockHash
  anchorDaaScore : ℕ
  workDepth : ℕ
  stakeDepth : ℕ
  lastDnsConfirmedAnchor : BlockHash
  lastDnsConfirmedAnchorDaaScore : ℕ
  rolloutStage : DnsRolloutStage
  validatorSetCommitment : Hash64
  health : DnsHealth
  lastEvictedRoundEpoch : ℕ
  deriving DecidableEq, Repr

def isDnsConfirmed (workDepth stakeDepth requiredWorkDepth requiredStakeDepth : ℕ) : Bool :=
  requiredWorkDepth ≤ workDepth && requiredStakeDepth ≤ stakeDepth

/-- Unconfirmed, the last confirmed anchor stays. -/
def advanceDnsConfirmation (prev : Option DnsState) (anchor : BlockHash) (anchorDaaScore : ℕ)
    (confirmableAnchor : Option (BlockHash × ℕ)) (workDepth stakeDepth : ℕ)
    (rolloutStage : DnsRolloutStage) (validatorSetCommitment : Hash64) (health : DnsHealth)
    (requiredWorkDepth requiredStakeDepth lastEvictedRoundEpoch : ℕ) : DnsState :=
  let confirmed := confirmableAnchor.isSome &&
    isDnsConfirmed workDepth stakeDepth requiredWorkDepth requiredStakeDepth
  let last := match confirmed, confirmableAnchor, prev with
    | true, some canonical, _ => canonical
    | _, _, some p => (p.lastDnsConfirmedAnchor, p.lastDnsConfirmedAnchorDaaScore)
    | _, _, none => (0, 0)
  { selectedChainAnchor := anchor
    anchorDaaScore := anchorDaaScore
    workDepth := workDepth
    stakeDepth := stakeDepth
    lastDnsConfirmedAnchor := last.1
    lastDnsConfirmedAnchorDaaScore := last.2
    rolloutStage := rolloutStage
    validatorSetCommitment := validatorSetCommitment
    health := health
    lastEvictedRoundEpoch := lastEvictedRoundEpoch }

structure BlockTree extends Forest BlockHash where
  daaScore : BlockHash → ℕ
  blueWork : BlockHash → ℕ

namespace BlockTree

variable (t : BlockTree)

abbrev blueScore (b : BlockHash) : ℕ := t.rank b

def row (b : BlockHash) : HeaderRow := ⟨b, t.blueScore b, t.daaScore b⟩

def chainRows (b : BlockHash) : List HeaderRow := (t.lineage b).map t.row

end BlockTree

/-- A candidate sink with what the pipeline knows when it is committed; the scores are of both
branches since their common ancestor. -/
structure SinkChange where
  sink : BlockHash
  acceptanceData : Bool
  pruned : List BlockHash
  candidateWorkAfter : ℕ
  canonicalWorkAfter : ℕ
  candidateStakeAfter : ℕ
  canonicalStakeAfter : ℕ
  stakeDepth : ℕ
  rolloutStage : DnsRolloutStage
  health : DnsHealth
  lastEvictedRoundEpoch : ℕ

section Node

variable (t : BlockTree) (params : DnsParams)

def includesConfirmed (confirmed : BlockHash) (c : SinkChange) : Bool :=
  if confirmed ∈ c.pruned then true else decide (confirmed ∈ t.lineage c.sink)

def dnsReorgAllows (dnsState : Option DnsState) (c : SinkChange) : Bool :=
  match dnsState with
  | none => true
  | some state =>
    if state.rolloutStage ≠ .active then true
    else if state.lastDnsConfirmedAnchor = 0 then true
    else
      let includes := includesConfirmed t state.lastDnsConfirmedAnchor c
      let scored := params.reorgMode = .twoDimensionalDominance ∧ !includes
      (checkDnsReorgRule
        { rolloutStage := state.rolloutStage
          mode := params.reorgMode
          candidateIncludesConfirmedAnchor := includes
          candidateWorkAfter := if scored then c.candidateWorkAfter else 0
          canonicalWorkAfter := if scored then c.canonicalWorkAfter else 0
          candidateStakeAfter := if scored then c.candidateStakeAfter else 0
          canonicalStakeAfter := if scored then c.canonicalStakeAfter else 0
          emergencyWorkMargin := params.emergencyWorkMargin
          emergencyStakeMargin := params.emergencyStakeMargin }).isAccept

def recomputeEpoch (b : BlockHash) : ℕ :=
  t.blueScore b / max params.attestationEpochLengthBlueScore 1

def confirmableAnchor (sink : BlockHash) : Option (BlockHash × ℕ) :=
  (readyEpochFromTipBlueScore (t.blueScore sink) (max params.attestationEpochLengthBlueScore 1)
    params.attestationLagBlueScore).bind fun epoch =>
      (canonicalAnchorByBlueScore params epoch (t.chainRows sink)).map fun a =>
        (a.anchorHash, a.anchorDaaScore)

/-- At most one recompute in an epoch. -/
def updateDnsState (prev : Option DnsState) (c : SinkChange) : Option DnsState :=
  if !c.acceptanceData then prev
  else if prev.any fun p =>
      decide (recomputeEpoch t params c.sink = recomputeEpoch t params p.selectedChainAnchor) then
    prev
  else
    let confirmable := confirmableAnchor t params c.sink
    let workDepth := (confirmable.map fun a => t.blueWork c.sink - t.blueWork a.1).getD 0
    some (advanceDnsConfirmation prev c.sink (t.daaScore c.sink) confirmable workDepth c.stakeDepth
      c.rolloutStage 0 c.health params.requiredWorkDepth params.requiredStakeDepth
      c.lastEvictedRoundEpoch)

structure NodeState where
  sink : BlockHash
  dnsState : Option DnsState
  deriving DecidableEq, Repr

def acceptSink (n : NodeState) (c : SinkChange) : Option NodeState :=
  if dnsReorgAllows t params n.dnsState c then
    some ⟨c.sink, updateDnsState t params n.dnsState c⟩
  else none

end Node

variable {state : DnsState} {c : SinkChange} {n : NodeState}

section Step

variable {t : BlockTree} {params : DnsParams}

theorem confirmableAnchor_eq_some {sink anchor : BlockHash} {daa : ℕ}
    (h : confirmableAnchor t params sink = some (anchor, daa)) :
    ∃ ready, readyEpochFromTipBlueScore (t.blueScore sink)
        (max params.attestationEpochLengthBlueScore 1) params.attestationLagBlueScore =
          some ready ∧
      anchor ∈ t.lineage sink ∧ t.blueScore anchor ≤ params.cutoff ready ∧
      ∀ b ∈ t.lineage sink, t.blueScore b ≤ params.cutoff ready → b ∈ t.lineage anchor := by
  obtain ⟨ready, hready, hmap⟩ := Option.bind_eq_some_iff.mp h
  obtain ⟨found, hfound, heq⟩ := Option.map_eq_some_iff.mp hmap
  obtain ⟨row, hrow, hhash, -⟩ := canonicalAnchorByBlueScore_latest hfound
  rw [BlockTree.chainRows, latestAtMost_map] at hrow
  obtain ⟨b, hb, rfl⟩ := Option.map_eq_some_iff.mp hrow
  obtain rfl : b = anchor := hhash.symm.trans (congrArg Prod.fst heq)
  have hmem : b ∈ t.lineage sink := mem_of_find?_eq_some hb
  refine ⟨ready, hready, hmem, @le_of_latestAtMost _ t.blueScore _ _ _ hb, fun c hc hcut => ?_⟩
  obtain ⟨newer, older, hchain, hc'⟩ := @mem_of_latestAtMost _ t.blueScore _ _ _ _ hb hc hcut
  rwa [Forest.lineage_of_append hchain] at hc'

/-- An update keeps the state, or recomputes it at the sink in another epoch; the confirmed anchor
is then the confirmable one or the one confirmed before. -/
theorem updateDnsState_cases (prev : Option DnsState) (c : SinkChange) :
    updateDnsState t params prev c = prev ∨
    (∀ p, prev = some p →
      recomputeEpoch t params c.sink ≠ recomputeEpoch t params p.selectedChainAnchor) ∧
    ∃ new, updateDnsState t params prev c = some new ∧ new.selectedChainAnchor = c.sink ∧
      (confirmableAnchor t params c.sink =
          some (new.lastDnsConfirmedAnchor, new.lastDnsConfirmedAnchorDaaScore) ∨
        (∃ p, prev = some p ∧ new.lastDnsConfirmedAnchor = p.lastDnsConfirmedAnchor) ∨
        prev = none ∧ new.lastDnsConfirmedAnchor = 0) := by
  unfold updateDnsState
  split
  · exact .inl rfl
  · split
    · exact .inl rfl
    · next hthrottle =>
      refine .inr ⟨fun p hp heq => hthrottle (by simp [hp, heq]), _, rfl, rfl, ?_⟩
      simp only [advanceDnsConfirmation]
      split
      · next canonical _ hconfirmable => exact .inl hconfirmable
      · next p _ => exact .inr (.inl ⟨p, rfl, rfl⟩)
      · exact .inr (.inr ⟨rfl, rfl⟩)

theorem mem_lineage_of_allows (hmode : params.reorgMode = .hardCheckpoint)
    (hactive : state.rolloutStage = .active) (hpruned : ∀ b ∈ c.pruned, b ∈ t.lineage c.sink)
    (hne : state.lastDnsConfirmedAnchor ≠ 0) (h : dnsReorgAllows t params (some state) c) :
    state.lastDnsConfirmedAnchor ∈ t.lineage c.sink := by
  have hincludes : includesConfirmed t state.lastDnsConfirmedAnchor c := by
    by_contra hnot
    simp [dnsReorgAllows, hactive, hne, hmode, checkDnsReorgRule, hnot,
      DnsReorgOutcome.isAccept] at h
  unfold includesConfirmed at hincludes
  split at hincludes
  · next hmem => exact hpruned _ hmem
  · exact of_decide_eq_true hincludes

end Step

section Run

variable (t : BlockTree) (params : DnsParams)

/-- The setting of a change: the stage is active, and blocks missing from the reachability index
lie behind the pruning point, on the chain of every candidate. -/
structure SinkChange.Enforced (n : NodeState) (c : SinkChange) : Prop where
  active : ∀ state, n.dnsState = some state → state.rolloutStage = .active
  pruned : ∀ b ∈ c.pruned, b ∈ t.lineage c.sink

def SinkChange.Forward (n : NodeState) (c : SinkChange) : Prop :=
  ∀ state, n.dnsState = some state →
    recomputeEpoch t params state.selectedChainAnchor ≤ recomputeEpoch t params c.sink

inductive Reached : NodeState → Prop
  | fresh (sink : BlockHash) : Reached ⟨sink, none⟩
  | step {n n' : NodeState} {c : SinkChange} (hn : Reached n) (henforced : c.Enforced t n)
      (hforward : c.Forward t params n) (haccept : acceptSink t params n c = some n') : Reached n'

/-- A confirmed anchor lies on the sink's chain, at or below the cutoff of an epoch that was ready
by the last recompute. -/
structure NodeState.Anchored (n : NodeState) : Prop where
  mem_chain : ∀ state, n.dnsState = some state → state.lastDnsConfirmedAnchor ≠ 0 →
    state.lastDnsConfirmedAnchor ∈ t.lineage n.sink
  lagged : ∀ state, n.dnsState = some state → state.lastDnsConfirmedAnchor ≠ 0 →
    ∃ tip ready, tip ≤ t.blueScore state.selectedChainAnchor ∧
      readyEpochFromTipBlueScore tip (max params.attestationEpochLengthBlueScore 1)
        params.attestationLagBlueScore = some ready ∧
      t.blueScore state.lastDnsConfirmedAnchor ≤ params.cutoff ready

variable {t params}

theorem blueScore_lt_of_epoch_ne (hforward : c.Forward t params n)
    (hstate : n.dnsState = some state)
    (hne : recomputeEpoch t params c.sink ≠ recomputeEpoch t params state.selectedChainAnchor) :
    t.blueScore state.selectedChainAnchor < t.blueScore c.sink := by
  by_contra hle
  have hdiv : recomputeEpoch t params c.sink ≤
      recomputeEpoch t params state.selectedChainAnchor :=
    Nat.div_le_div_right (Nat.le_of_not_lt hle)
  exact hne (Nat.le_antisymm hdiv (hforward state hstate))

theorem acceptSink_anchored {n' : NodeState} (hmode : params.reorgMode = .hardCheckpoint)
    (hn : n.Anchored t params) (henforced : c.Enforced t n) (hforward : c.Forward t params n)
    (haccept : acceptSink t params n c = some n') :
    n'.Anchored t params ∧ ∀ old new, n.dnsState = some old → n'.dnsState = some new →
      old.lastDnsConfirmedAnchor ≠ 0 →
      old.lastDnsConfirmedAnchor ∈ t.lineage new.lastDnsConfirmedAnchor := by
  unfold acceptSink at haccept
  split at haccept
  · next hallows =>
    cases haccept
    have hkept : ∀ old, n.dnsState = some old → old.lastDnsConfirmedAnchor ≠ 0 →
        old.lastDnsConfirmedAnchor ∈ t.lineage c.sink := by
      intro old hold hne
      rw [hold] at hallows
      exact mem_lineage_of_allows hmode (henforced.active old hold) henforced.pruned hne hallows
    rcases updateDnsState_cases n.dnsState c with hsame | ⟨hlater, new, hnew, hsink, hconf⟩
    · rw [hsame]
      refine ⟨⟨hkept, hn.lagged⟩, fun old new hold hnew _ => ?_⟩
      obtain rfl := Option.some.inj (hold.symm.trans hnew)
      exact Forest.self_mem_lineage _
    · rw [hnew]
      rcases hconf with hconf | ⟨old, hold, hcarry⟩ | ⟨hnone, hzero⟩
      · -- the sink's own anchor: the newest block below a cutoff that only moved up
        obtain ⟨ready, hready, hmem, hcut, hmax⟩ := confirmableAnchor_eq_some hconf
        refine ⟨⟨?_, ?_⟩, ?_⟩
        · rintro _ ⟨⟩ -
          exact hmem
        · rintro _ ⟨⟩ -
          exact ⟨_, ready, by rw [hsink], hready, hcut⟩
        · rintro old _ hold ⟨⟩ hne
          obtain ⟨tip, ready', htip, hready', hcut'⟩ := hn.lagged old hold hne
          have hlt := blueScore_lt_of_epoch_ne hforward hold (hlater old hold)
          have hmono := ready_mono (htip.trans hlt.le) hready' hready
          exact hmax _ (hkept old hold hne) (hcut'.trans (anchorCutoffBlueScore_mono hmono _ _))
      · -- carried forward from the previous state
        refine ⟨⟨?_, ?_⟩, ?_⟩
        · rintro _ ⟨⟩ hne
          rw [hcarry] at hne ⊢
          exact hkept old hold hne
        · rintro _ ⟨⟩ hne
          rw [hcarry] at hne ⊢
          obtain ⟨tip, ready, htip, hready, hcut⟩ := hn.lagged old hold hne
          have hlt := blueScore_lt_of_epoch_ne hforward hold (hlater old hold)
          exact ⟨tip, ready, by rw [hsink]; exact htip.trans hlt.le, hready, hcut⟩
        · rintro old' _ hold' ⟨⟩ -
          obtain rfl := Option.some.inj (hold.symm.trans hold')
          rw [hcarry]
          exact Forest.self_mem_lineage _
      · refine ⟨⟨?_, ?_⟩, ?_⟩
        · rintro _ ⟨⟩ hne
          exact absurd hzero hne
        · rintro _ ⟨⟩ hne
          exact absurd hzero hne
        · rintro old _ hold
          rw [hnone] at hold
          cases hold
  · cases haccept

theorem anchored_of_reached (hmode : params.reorgMode = .hardCheckpoint) (h : Reached t params n) :
    n.Anchored t params := by
  induction h with
  | fresh sink =>
    constructor
    · rintro _ ⟨⟩
    · rintro _ ⟨⟩
  | step _ henforced hforward haccept ih =>
    exact (acceptSink_anchored hmode ih henforced hforward haccept).1

/-- Along runs whose sinks never fall back to an earlier blue-score epoch, each confirmed anchor is
or descends from the one confirmed before it, and it lies on the sink's selected chain. -/
theorem confirmed_anchor_never_regresses {n n' : NodeState} {c : SinkChange}
    (hmode : params.reorgMode = .hardCheckpoint) (hreached : Reached t params n)
    (henforced : c.Enforced t n) (hforward : c.Forward t params n)
    (haccept : acceptSink t params n c = some n') {new : DnsState}
    (hnew : n'.dnsState = some new) :
    (∀ old, n.dnsState = some old → old.lastDnsConfirmedAnchor ≠ 0 →
      old.lastDnsConfirmedAnchor ∈ t.lineage new.lastDnsConfirmedAnchor) ∧
    (new.lastDnsConfirmedAnchor ≠ 0 → new.lastDnsConfirmedAnchor ∈ t.lineage n'.sink) := by
  obtain ⟨hanchored, hdescends⟩ :=
    acceptSink_anchored hmode (anchored_of_reached hmode hreached) henforced hforward haccept
  exact ⟨fun old hold => hdescends old new hold hnew, hanchored.mem_chain new hnew⟩

end Run

def forkParent (b : ℕ) : Option ℕ :=
  if b = 106 then some 6
  else if 1 < b ∧ b ≤ 11 ∨ b = 107 ∨ b = 108 then some (b - 1)
  else none

def forkScore (b : ℕ) : ℕ := if 100 ≤ b then b - 100 else b - 1

theorem forkScore_lt {a p : ℕ} (h : forkParent a = some p) : forkScore p < forkScore a := by
  unfold forkParent at h
  unfold forkScore
  split at h
  · cases h
    simp [*]
  · split at h
    · cases h
      split <;> split <;> omega
    · cases h

def forkTree : BlockTree where
  parent := forkParent
  rank := forkScore
  rank_lt := forkScore_lt
  daaScore := forkScore
  blueWork b := if 100 ≤ b then 2 * b else 10 * b

def forkParams : DnsParams :=
  { (default : DnsParams) with
    attestationEpochLengthBlueScore := 2
    attestationLagBlueScore := 4
    stakeScoreWindowBlueScore := 100
    requiredStakeDepth := 5
    reorgMode := .hardCheckpoint }

def forkChange (sink : BlockHash) : SinkChange where
  sink := sink
  acceptanceData := true
  pruned := []
  candidateWorkAfter := 0
  canonicalWorkAfter := 0
  candidateStakeAfter := 0
  canonicalStakeAfter := 0
  stakeDepth := 5
  rolloutStage := .active
  health := .active
  lastEvictedRoundEpoch := 0

def confirmedAfter (sinks : List BlockHash) : Option BlockHash :=
  (sinks.foldlM (fun n sink => acceptSink forkTree forkParams n (forkChange sink))
    ⟨1, none⟩).bind fun n => n.dnsState.map (·.lastDnsConfirmedAnchor)

/-- Block 6 is confirmed at sink 11. The gate lets the node move to block 108, which is heavier and
has block 6 on its chain, and the state recomputed there confirms block 4, an ancestor of 6. -/
theorem confirmed_anchor_regresses :
    forkParams.dnsV3ParamsConsistent ∧ forkTree.blueWork 11 < forkTree.blueWork 108 ∧
    confirmedAfter [11] = some 6 ∧ confirmedAfter [11, 108] = some 4 ∧
    6 ∉ forkTree.lineage 4 := by
  decide

def atSinkNine : NodeState where
  sink := 9
  dnsState := some
    { selectedChainAnchor := 9
      anchorDaaScore := 8
      workDepth := 50
      stakeDepth := 5
      lastDnsConfirmedAnchor := 4
      lastDnsConfirmedAnchorDaaScore := 3
      rolloutStage := .active
      validatorSetCommitment := 0
      health := .active
      lastEvictedRoundEpoch := 0 }

/-- Moving on along one chain, from sink 9 to sink 11, confirms block 6, a descendant of block 4. -/
theorem confirmed_anchor_never_regresses_extending :
    ∃ n' new, Reached forkTree forkParams atSinkNine ∧
      acceptSink forkTree forkParams atSinkNine (forkChange 11) = some n' ∧
      n'.dnsState = some new ∧ new.lastDnsConfirmedAnchor = 6 ∧
      4 ∈ forkTree.lineage 6 ∧ 6 ∈ forkTree.lineage n'.sink := by
  have hreached : Reached forkTree forkParams atSinkNine :=
    .step (.fresh 1) ⟨fun _ h => (by cases h), fun _ hb => (not_mem_nil hb).elim⟩
      (fun _ h => (by cases h)) (show acceptSink _ _ _ (forkChange 9) = _ from rfl)
  have henforced : (forkChange 11).Enforced forkTree atSinkNine :=
    ⟨fun s hs => (by obtain rfl := Option.some.inj hs; rfl),
      fun b hb => (not_mem_nil hb).elim⟩
  have hforward : (forkChange 11).Forward forkTree forkParams atSinkNine := by
    intro s hs
    cases hs
    decide
  have h := confirmed_anchor_never_regresses rfl hreached henforced hforward rfl rfl
  exact ⟨_, _, hreached, rfl, rfl, rfl, h.1 _ rfl (by decide), h.2 (by decide)⟩

end Misaka.Dns
