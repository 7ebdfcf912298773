import Misaka.Dns.StakeScore

/-!
# The bounded reorg gate

In dominance mode `dns_reorg_allows` compares two branches by their work and stake since their
selected-chain common ancestor. The search for the ancestor is bounded; when it is cut off, the gate
compares cumulative work and the stake scores of whole windows.
-/

namespace Misaka.Dns

open Misaka.Core List

section Gate

variable (P : Primitives) (params : DnsParams) (netId : BlockHash) (t : BlockTree)
  (acceptedTxs : BlockHash → List Transaction)

/-- The loop of `selected_chain_common_ancestor`. -/
def commonAncestorWalk (other : List BlockHash) (maxWalk : ℕ) :
    ℕ → List BlockHash → Option (BlockHash × ℕ)
  | _, [] => none
  | walked, block :: rest =>
    if maxWalk < walked then none
    else if block ∈ other then some (block, walked)
    else commonAncestorWalk other maxWalk (walked + 1) rest

/-- The search from `a`, at most `maxWalk` steps down. -/
def selectedChainCommonAncestor (a b : BlockHash) (maxWalk : ℕ) : Option (BlockHash × ℕ) :=
  commonAncestorWalk (t.lineage b) maxWalk 0 (chainWalk (t.lineage a))

def commonAncestor (a b : BlockHash) : Option BlockHash := (t.lineage a).find? (· ∈ t.lineage b)

/-- The number of walked blocks at which the search from `a` meets an ancestor. -/
def ancestorSteps (a ancestor : BlockHash) : ℕ :=
  if ancestor = a then 0 else (t.lineage a).idxOf ancestor + 1

def commonAncestorMaxWalk : ℕ := max params.maxReorgHorizonBlocks params.stakeScoreWindowBlueScore

def measuredSince (stopAt : Option BlockHash) (c : SinkChange) (prevSink : BlockHash)
    (candidateBonds canonicalBonds : List StakeBondRecord) : SinkChange :=
  let commonWork := (stopAt.map t.blueWork).getD 0
  { c with
    candidateWorkAfter := t.blueWork c.sink - commonWork
    canonicalWorkAfter := t.blueWork prevSink - commonWork
    candidateStakeAfter := stakeScoreAt P params netId t acceptedTxs stopAt c.sink candidateBonds
    canonicalStakeAfter :=
      stakeScoreAt P params netId t acceptedTxs stopAt prevSink canonicalBonds }

/-- `dns_reorg_allows`, with the scores it computes. -/
def boundedReorgAllows (dnsState : Option DnsState) (c : SinkChange) (prevSink : BlockHash)
    (candidateBonds canonicalBonds : List StakeBondRecord) : Bool :=
  let ancestor := selectedChainCommonAncestor t c.sink prevSink (commonAncestorMaxWalk params)
  dnsReorgAllows t params dnsState (measuredSince P params netId t acceptedTxs
    (ancestor.map Prod.fst) c prevSink candidateBonds canonicalBonds)

def exactReorgAllows (ancestor : BlockHash) (dnsState : Option DnsState) (c : SinkChange)
    (prevSink : BlockHash) (candidateBonds canonicalBonds : List StakeBondRecord) : Bool :=
  dnsReorgAllows t params dnsState (measuredSince P params netId t acceptedTxs (some ancestor) c
    prevSink candidateBonds canonicalBonds)

def Engaged (dnsState : Option DnsState) (c : SinkChange) : Prop :=
  ∃ state, dnsState = some state ∧ state.rolloutStage = .active ∧ state.lastDnsConfirmedAnchor ≠ 0 ∧
    includesConfirmed t state.lastDnsConfirmedAnchor c = false

def OutWorks (candidateWork canonicalWork : ℕ) : Prop :=
  min (canonicalWork + params.emergencyWorkMargin) BLUE_WORK_MAX < candidateWork

def OutStakes (candidateStake canonicalStake : ℕ) : Prop :=
  min (canonicalStake + params.emergencyStakeMargin) U128_MAX < min candidateStake U128_MAX

structure WorkOrdered : Prop where
  le : ∀ b, t.blueWork b ≤ BLUE_WORK_MAX
  mono : ∀ a b, a ∈ t.lineage b → t.blueWork a ≤ t.blueWork b

end Gate

variable {P : Primitives} {params : DnsParams} {netId : BlockHash} {t : BlockTree}
  {acceptedTxs : BlockHash → List Transaction} {dnsState : Option DnsState} {c c' : SinkChange}
  {prevSink ancestor : BlockHash} {candidateBonds canonicalBonds : List StakeBondRecord}

theorem commonAncestorWalk_eq {other l : List BlockHash} (h : l.find? (· ∈ other) = some ancestor)
    (maxWalk walked : ℕ) :
    commonAncestorWalk other maxWalk walked l =
      if walked + l.idxOf ancestor ≤ maxWalk then some (ancestor, walked + l.idxOf ancestor)
      else none := by
  induction l generalizing walked with
  | nil => cases h
  | cons b l ih =>
    rw [commonAncestorWalk]
    by_cases hb : b ∈ other
    · rw [List.find?_cons_of_pos (by simpa using hb), Option.some.injEq] at h
      subst h
      simp only [hb, if_true, idxOf_cons_self, add_zero]
      split <;> split <;> first | rfl | omega
    · have hne : b ≠ ancestor := by
        rintro rfl
        exact hb (by simpa using List.find?_some h)
      rw [List.find?_cons_of_neg (by simpa using hb)] at h
      rw [if_neg hb, ih h, idxOf_cons_ne _ hne, Nat.succ_eq_add_one, Nat.add_right_comm,
        ← Nat.add_assoc]
      split
      · rw [if_neg (by omega)]
      · rfl

theorem selectedChainCommonAncestor_eq {a b : BlockHash} (h : commonAncestor t a b = some ancestor)
    (maxWalk : ℕ) :
    selectedChainCommonAncestor t a b maxWalk =
      if ancestorSteps t a ancestor ≤ maxWalk then some (ancestor, ancestorSteps t a ancestor)
      else none := by
  unfold selectedChainCommonAncestor ancestorSteps
  unfold commonAncestor at h
  rw [Forest.lineage_eq a] at h ⊢
  rw [chainWalk, commonAncestorWalk, if_neg (Nat.not_lt_zero _)]
  by_cases hmem : a ∈ t.lineage b
  · rw [List.find?_cons_of_pos (by simpa using hmem), Option.some.injEq] at h
    subst h
    simp [hmem]
  · have hne : ancestor ≠ a := by
      rintro rfl
      exact hmem (by simpa using List.find?_some h)
    rw [if_neg hmem, commonAncestorWalk_eq h, if_neg hne, zero_add, add_comm 1]

theorem dnsReorgAllows_of_engaged (hmode : params.reorgMode = .twoDimensionalDominance)
    (h : Engaged t dnsState c) :
    dnsReorgAllows t params dnsState c ↔
      OutWorks params c.candidateWorkAfter c.canonicalWorkAfter ∧
        min (c.canonicalStakeAfter + params.emergencyStakeMargin) U128_MAX <
          c.candidateStakeAfter := by
  obtain ⟨state, rfl, hactive, hconfirmed, hincludes⟩ := h
  simp only [dnsReorgAllows, hactive, hconfirmed, hincludes, hmode, checkDnsReorgRule, ne_eq,
    not_true_eq_false, if_false, Bool.not_false, and_self, if_true, Bool.false_eq_true, OutWorks]
  split
  · next h => exact iff_of_true rfl h
  · next h => exact iff_of_false Bool.false_ne_true h

theorem dnsReorgAllows_of_not_engaged (h : ¬ Engaged t dnsState c) (hsink : c'.sink = c.sink)
    (hpruned : c'.pruned = c.pruned) :
    dnsReorgAllows t params dnsState c' = dnsReorgAllows t params dnsState c := by
  cases dnsState with
  | none => rfl
  | some state =>
    have hsame : includesConfirmed t state.lastDnsConfirmedAnchor c' =
        includesConfirmed t state.lastDnsConfirmedAnchor c := by
      rw [includesConfirmed, includesConfirmed, hsink, hpruned]
    unfold dnsReorgAllows
    dsimp only
    rw [hsame]
    by_cases hactive : state.rolloutStage = .active
    · by_cases hconfirmed : state.lastDnsConfirmedAnchor = 0
      · simp [hconfirmed]
      · have hincludes : includesConfirmed t state.lastDnsConfirmedAnchor c = true := by
          by_contra hnot
          exact h ⟨state, rfl, hactive, hconfirmed, by simpa using hnot⟩
        simp [hincludes, hactive, hconfirmed, checkDnsReorgRule]
    · simp [hactive]

theorem engaged_measuredSince {stopAt : Option BlockHash} :
    Engaged t dnsState (measuredSince P params netId t acceptedTxs stopAt c prevSink candidateBonds
      canonicalBonds) ↔ Engaged t dnsState c :=
  Iff.rfl

theorem min_stakeScoreSinceAncestor (tip : BlockHash) (bonds : List StakeBondRecord) :
    min (stakeScoreSinceAncestor P params netId t acceptedTxs tip ancestor bonds) U128_MAX =
      stakeScoreSinceAncestor P params netId t acceptedTxs tip ancestor bonds := by
  refine min_eq_left ?_
  rw [stakeScoreSinceAncestor, stakeScoreAt, computeStakeScore, satSum_eq]
  exact min_le_right _ _

theorem boundedReorgAllows_eq_exact (hancestor : commonAncestor t c.sink prevSink = some ancestor)
    (h : Engaged t dnsState c → ancestorSteps t c.sink ancestor ≤ commonAncestorMaxWalk params) :
    boundedReorgAllows P params netId t acceptedTxs dnsState c prevSink candidateBonds
        canonicalBonds =
      exactReorgAllows P params netId t acceptedTxs ancestor dnsState c prevSink candidateBonds
        canonicalBonds := by
  by_cases hengaged : Engaged t dnsState c
  · rw [boundedReorgAllows, selectedChainCommonAncestor_eq hancestor, if_pos (h hengaged)]
    rfl
  · exact dnsReorgAllows_of_not_engaged (mt engaged_measuredSince.mp hengaged) rfl rfl

/-- The gate decides like the exact rule, unless it is engaged, the search is cut off, the candidate
has more work by the margin, and the epochs anchored at or below the common ancestor change whether
it has more stake by the margin. -/
theorem reorgGate_exact_iff (hmode : params.reorgMode = .twoDimensionalDominance)
    (hwork : WorkOrdered t) (hcausal : CausalAttestations P t acceptedTxs)
    (hancestor : commonAncestor t c.sink prevSink = some ancestor) :
    boundedReorgAllows P params netId t acceptedTxs dnsState c prevSink candidateBonds
        canonicalBonds =
      exactReorgAllows P params netId t acceptedTxs ancestor dnsState c prevSink candidateBonds
        canonicalBonds ↔
    (Engaged t dnsState c → commonAncestorMaxWalk params < ancestorSteps t c.sink ancestor →
      OutWorks params (t.blueWork c.sink) (t.blueWork prevSink) →
      (OutStakes params
        (stakeScoreSinceAncestor P params netId t acceptedTxs c.sink ancestor candidateBonds +
          sharedEpochCredit P params netId t acceptedTxs c.sink ancestor candidateBonds)
        (stakeScoreSinceAncestor P params netId t acceptedTxs prevSink ancestor canonicalBonds +
          sharedEpochCredit P params netId t acceptedTxs prevSink ancestor canonicalBonds) ↔
      OutStakes params
        (stakeScoreSinceAncestor P params netId t acceptedTxs c.sink ancestor candidateBonds)
        (stakeScoreSinceAncestor P params netId t acceptedTxs prevSink ancestor
          canonicalBonds))) := by
  by_cases hengaged : Engaged t dnsState c
  · by_cases hcut : commonAncestorMaxWalk params < ancestorSteps t c.sink ancestor
    · have hcandidate : ancestor ∈ t.lineage c.sink := mem_of_find?_eq_some hancestor
      have hcanonical : ancestor ∈ t.lineage prevSink := by simpa using List.find?_some hancestor
      simp only [hengaged, hcut, forall_true_left]
      rw [← and_congr_right_iff, Bool.eq_iff_iff, boundedReorgAllows,
        selectedChainCommonAncestor_eq hancestor, if_neg (not_le.mpr hcut), exactReorgAllows,
        dnsReorgAllows_of_engaged hmode (engaged_measuredSince.mpr hengaged),
        dnsReorgAllows_of_engaged hmode (engaged_measuredSince.mpr hengaged)]
      refine iff_congr (and_congr Iff.rfl ?_) (and_congr ?_ ?_)
      · -- cut off, the epochs at or below the ancestor are added on both sides
        change min (stakeScoreOverWindow P params netId t acceptedTxs prevSink _ + _) _ <
          stakeScoreOverWindow P params netId t acceptedTxs c.sink _ ↔ _
        rw [stakeScoreOverWindow_eq hcausal hcandidate, stakeScoreOverWindow_eq hcausal hcanonical,
          OutStakes]
        omega
      · have hle := hwork.le c.sink
        have hcanonical := hwork.mono _ _ hcanonical
        change OutWorks params (t.blueWork c.sink - t.blueWork ancestor)
          (t.blueWork prevSink - t.blueWork ancestor) ↔ _
        unfold OutWorks
        omega
      · rw [OutStakes, min_stakeScoreSinceAncestor]
        rfl
    · exact iff_of_true (boundedReorgAllows_eq_exact hancestor fun _ => Nat.le_of_not_lt hcut)
        fun _ h => absurd h hcut
  · exact iff_of_true (boundedReorgAllows_eq_exact hancestor fun h => absurd h hengaged)
      fun h => absurd h hengaged

def gateTree : BlockTree := { forkTree with blueWork := fun b => min (forkScore b) 100 }

def gateParams : DnsParams :=
  { (default : DnsParams) with
    attestationEpochLengthBlueScore := 2
    attestationLagBlueScore := 1
    stakeScoreWindowBlueScore := 5
    maxReorgHorizonBlocks := 5
    reorgMode := .twoDimensionalDominance }

def gatePrimitives : Primitives :=
  { samplePrimitives with
    decodeAttestationShardPayload := fun
      | [epoch, target, targetDaa] => some
        { version := DNS_PAYLOAD_VERSION_V1
          epoch := epoch.toNat
          targetHash := target.toNat
          targetDaaScore := targetDaa.toNat
          validatorSetCommitment := 0
          attestations :=
            [{ sampleAttestation 7 7 1 target targetDaa with epoch := epoch.toNat }] }
      | _ => none }

def gateBond : StakeBondRecord :=
  { (default : StakeBondRecord) with
    bondOutpoint := ⟨1, 0⟩
    validatorPubkeyHash := 7
    validatorPubkey := List.replicate STAKE_VALIDATOR_PUBKEY_LEN 7
    amount := 100 }

def gateAccepted (b : BlockHash) : List Transaction :=
  if b = 106 then [sampleOverlayTx 1 SUBNETWORK_ID_STAKE_ATTESTATION_SHARD [2, 6, 5]]
  else if b = 9 then [sampleOverlayTx 2 SUBNETWORK_ID_STAKE_ATTESTATION_SHARD [3, 8, 7]]
  else []

def gateState : DnsState where
  selectedChainAnchor := 108
  anchorDaaScore := 8
  workDepth := 1
  stakeDepth := 1000000000
  lastDnsConfirmedAnchor := 107
  lastDnsConfirmedAnchorDaaScore := 7
  rolloutStage := .active
  validatorSetCommitment := 0
  health := .active
  lastEvictedRoundEpoch := 0

theorem workOrdered_gateTree : WorkOrdered gateTree where
  le b := by
    have hmax : 100 ≤ BLUE_WORK_MAX := by decide +kernel
    exact (min_le_right _ _).trans hmax
  mono a b h := min_le_min_right 100 (Forest.rank_le_of_mem_lineage h)

theorem causal_gateAccepted : CausalAttestations gatePrimitives gateTree gateAccepted := by
  intro b att hatt
  unfold gateAccepted at hatt
  split at hatt
  · next hb =>
    subst hb
    revert att
    decide +kernel
  · split at hatt
    · next hb =>
      subst hb
      revert att
      decide +kernel
    · cases hatt

/-- The search from candidate 11 meets block 6 at its sixth block, one too late. Without a bond on
the other side, nothing is credited there and the gate still decides like the exact rule. -/
theorem reorgGate_exact_unopposed :
    ancestorSteps gateTree (forkChange 11).sink 6 = 6 ∧ commonAncestorMaxWalk gateParams = 5 ∧
    boundedReorgAllows gatePrimitives gateParams 0 gateTree gateAccepted (some gateState)
      (forkChange 11) 108 [gateBond] [] = true ∧
    (Engaged gateTree (some gateState) (forkChange 11) →
      commonAncestorMaxWalk gateParams < ancestorSteps gateTree (forkChange 11).sink 6 →
      OutWorks gateParams (gateTree.blueWork (forkChange 11).sink) (gateTree.blueWork 108) →
      (OutStakes gateParams
        (stakeScoreSinceAncestor gatePrimitives gateParams 0 gateTree gateAccepted
            (forkChange 11).sink 6 [gateBond] +
          sharedEpochCredit gatePrimitives gateParams 0 gateTree gateAccepted
            (forkChange 11).sink 6 [gateBond])
        (stakeScoreSinceAncestor gatePrimitives gateParams 0 gateTree gateAccepted 108 6 [] +
          sharedEpochCredit gatePrimitives gateParams 0 gateTree gateAccepted 108 6 []) ↔
      OutStakes gateParams
        (stakeScoreSinceAncestor gatePrimitives gateParams 0 gateTree gateAccepted
          (forkChange 11).sink 6 [gateBond])
        (stakeScoreSinceAncestor gatePrimitives gateParams 0 gateTree gateAccepted 108 6 []))) := by
  refine ⟨by decide +kernel, by decide, by decide +kernel, ?_⟩
  have hancestor : commonAncestor gateTree (forkChange 11).sink 108 = some 6 := by decide +kernel
  have hexact : boundedReorgAllows gatePrimitives gateParams 0 gateTree gateAccepted
      (some gateState) (forkChange 11) 108 [gateBond] [] =
        exactReorgAllows gatePrimitives gateParams 0 gateTree gateAccepted 6 (some gateState)
          (forkChange 11) 108 [gateBond] [] := by decide +kernel
  exact (reorgGate_exact_iff rfl workOrdered_gateTree causal_gateAccepted hancestor).mp hexact

/-- The candidate 11 forks off five blocks below, at block 6. It has more work than sink 108 and one
attested epoch; sink 108 has none since block 6, but its window holds epoch 2, anchored at block 6.
The exact rule lets the candidate through and the gate does not. -/
theorem short_branch_keeps_shared_epoch :
    gateParams.dnsV3ParamsConsistent ∧ commonAncestor gateTree 11 108 = some 6 ∧
    confirmableAnchor gateTree gateParams 108 = some (107, 7) ∧
    exactReorgAllows gatePrimitives gateParams 0 gateTree gateAccepted 6 (some gateState)
      (forkChange 11) 108 [gateBond] [gateBond] = true ∧
    boundedReorgAllows gatePrimitives gateParams 0 gateTree gateAccepted (some gateState)
      (forkChange 11) 108 [gateBond] [gateBond] = false := by
  decide +kernel

end Misaka.Dns
