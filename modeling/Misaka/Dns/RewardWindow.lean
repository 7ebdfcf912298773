import Misaka.Dns.Anchors
import Misaka.Dns.Overlay
import Misaka.Dns.Tally

/-!
# Participation rewards along a selected chain

`validator_reward_outputs_for_block` pays the attestations of a block's body that name the canonical
anchor of their epoch, unless their bond was already rewarded within a bounded look back along the
selected chain. No bond is rewarded twice for one epoch along a whole chain.
-/

namespace Misaka.Dns

open Misaka.Core List

structure ChainEntry extends HeaderRow where
  rewardedKeys : List RewardKey
  qualitySubpool : ℕ
  deriving DecidableEq, Repr

def ChainEntry.contribution (e : ChainEntry) : BlockOverlayContribution :=
  ⟨e.hash, e.daaScore, e.rewardedKeys, e.qualitySubpool⟩

structure PersistedOverlay where
  pruningPoint : BlockHash
  window : List BlockOverlayContribution
  deriving DecidableEq, Repr

def overlayWindowWalkBound (params : DnsParams) : ℕ :=
  min (finalizationDepth params + min (max params.epochLengthBlocks 1 * 2) U64_MAX) U64_MAX

/-- The walk down the chain, and below it the persisted rows. -/
def selectedChainOverlayWindow (persisted : Option PersistedOverlay) (chain : List ChainEntry)
    (anchorDaa walkBound : ℕ) : List BlockOverlayContribution :=
  let walked := (chainWalk chain).takeWhile fun e =>
    decide (persisted.map (·.pruningPoint) ≠ some e.hash ∧ anchorDaa - e.daaScore ≤ walkBound)
  let above := (walked.filter fun e => decide (¬(e.rewardedKeys = [] ∧ e.qualitySubpool = 0))).map
    (·.contribution)
  let below := (persisted.elim [] (·.window)).filter fun c =>
    decide (anchorDaa - c.blockDaaScore ≤ walkBound)
  firstBy (·.blockHash) [] (below ++ above.reverse)

def selectedChainEpochContributions (persisted : Option PersistedOverlay) (chain : List ChainEntry)
    (parentDaa walkBound : ℕ) : List BlockEpochContribution :=
  sortBy (·.blockDaaScore)
    ((selectedChainOverlayWindow persisted chain parentDaa walkBound).map fun c =>
      ⟨c.blockDaaScore, c.rewardedKeys, c.qualitySubpool⟩)

def settlementInput (params : DnsParams) (persisted : Option PersistedOverlay)
    (chain : List ChainEntry) (records : List StakeBondRecord) (daaScore : ℕ) : SettlementInput :=
  let parentDaa := (chain.head?.map (·.daaScore)).getD 0
  ⟨daaScore, parentDaa, selectedChainEpochContributions persisted chain parentDaa
    (overlayWindowWalkBound params), records⟩

section Block

variable (P : Primitives) (params : DnsParams)

def creditableAttestations (chain : List ChainEntry) (txs : List Transaction)
    (bondView : ActiveBondView) (daaScore : ℕ) : List IncludedAttestation :=
  let creditable := canonicalAnchorsInWindow params (chain.map (·.toHeaderRow))
  (attestationsFromAcceptedTxs P txs).filterMap fun att =>
    if params.rewardUniquenessWindowBlocks < daaScore - att.targetDaaScore then none
    else
      match creditable.lookup att.epoch with
      | none => none
      | some anchor =>
        if att.targetHash ≠ anchor.anchorHash ∨ att.targetDaaScore ≠ anchor.anchorDaaScore then none
        else
          (bondView.activeBondAt att.bondOutpoint att.targetDaaScore).map fun bond =>
            ⟨att.bondOutpoint, att.epoch, bond.ownerRewardSpkPayload, bond.amount⟩

def alreadyRewarded (persisted : Option PersistedOverlay) (chain : List ChainEntry)
    (daaScore : ℕ) : List RewardKey :=
  (selectedChainOverlayWindow persisted chain daaScore params.rewardUniquenessWindowBlocks).flatMap
    (·.rewardedKeys)

/-- What `validator_reward_outputs_for_block` returns. -/
structure ValidatorRewards where
  outputs : List TransactionOutput
  rewardedKeys : List RewardKey
  newlyIncludedStake : ℕ
  expectedStake : ℕ
  deriving DecidableEq, Repr

/-- Participation rewards, and the bonus of settled epochs. -/
def validatorRewardOutputsForBlock (dnsParams : Option DnsParams)
    (persisted : Option PersistedOverlay) (chain : List ChainEntry) (txs : List Transaction)
    (bondView : ActiveBondView) (records : List StakeBondRecord) (daaScore validatorPool : ℕ) :
    ValidatorRewards :=
  match dnsParams with
  | none => ⟨[], [], 0, 0⟩
  | some params =>
    if daaScore < params.dnsActivationDaaScore then ⟨[], [], 0, 0⟩
    else
      let attestations := creditableAttestations P params chain txs bondView daaScore
      let already := alreadyRewarded params persisted chain daaScore
      let expectedStake := bondView.totalActiveStakeAt daaScore
      let participationBps := if params.posV2ActivationDaaScore ≤ daaScore then
        params.rewardParams.validatorParticipationBps else 10000
      let paid := validatorParticipationRewardOutputs
        (splitValidatorPool validatorPool participationBps).1 expectedStake attestations already
      { outputs := paid.1 ++ deferredQualityBonusOutputs params
          (settlementInput params persisted chain records daaScore)
        rewardedKeys := paid.2
        newlyIncludedStake := ((firstBy (·.key) already attestations).map (·.stake)).sum
        expectedStake := expectedStake }

end Block

/-- A chain block as the reward rule reads it: its header, body and selected-parent bonds, the
validator pool of its coinbase, and the pruning snapshot held when it is processed. -/
structure RewardBlock extends HeaderRow where
  txs : List Transaction
  bondView : ActiveBondView
  records : List StakeBondRecord
  validatorPool : ℕ
  qualitySubpool : ℕ
  persisted : Option PersistedOverlay

section Chain

variable (P : Primitives) (params : DnsParams)

def RewardBlock.entry (b : RewardBlock) (prior : List ChainEntry) : ChainEntry where
  toHeaderRow := b.toHeaderRow
  rewardedKeys := (validatorRewardOutputsForBlock P (some params) b.persisted prior b.txs
    b.bondView b.records b.daaScore b.validatorPool).rewardedKeys
  qualitySubpool := b.qualitySubpool

def rewardChain : List RewardBlock → List ChainEntry
  | [] => []
  | b :: past => b.entry P params (rewardChain past) :: rewardChain past

/-- Snapshots captured on a chain: none yet, or the window of some chain block as computed there
with an older snapshot. -/
inductive Captured : List ChainEntry → Option PersistedOverlay → Prop
  | none (chain : List ChainEntry) : Captured chain none
  | some (newer older : List ChainEntry) (pruningPoint : ChainEntry)
      {earlier : Option PersistedOverlay} (h : Captured (pruningPoint :: older) earlier) :
      Captured (newer ++ pruningPoint :: older)
        (some ⟨pruningPoint.hash, selectedChainOverlayWindow earlier (pruningPoint :: older)
          pruningPoint.daaScore (overlayWindowWalkBound params)⟩)

def Ascends (rows : List HeaderRow) : Prop :=
  rows.Pairwise fun newer older =>
    older.blueScore < newer.blueScore ∧ older.daaScore ≤ newer.daaScore ∧ older.hash ≠ newer.hash

end Chain

variable {bound anchorDaa : ℕ} {e : ChainEntry} {blocks : List RewardBlock}

section LookBack

variable {params : DnsParams} {chain : List ChainEntry} {persisted : Option PersistedOverlay}

theorem mem_chainWalk {α : Type} {l : List α} {a : α} : a ∈ chainWalk l ↔ a ∈ l := by
  cases l with
  | nil => exact Iff.rfl
  | cons tip rest => simp [chainWalk]

theorem mem_takeWhile_chainWalk {α : Type} {p : α → Bool} {newer older : List α} {a : α}
    (h : ∀ b ∈ newer ++ [a], p b) : a ∈ (chainWalk (newer ++ a :: older)).takeWhile p := by
  have hmem : a ∈ (newer ++ a :: older).takeWhile p := by
    rw [append_cons, takeWhile_append_of_pos h]
    simp
  cases newer with
  | nil =>
    have ha : p a := h a (by simp)
    simp [chainWalk, ha]
  | cons tip rest =>
    have htip : p tip := h tip (by simp)
    rw [cons_append, chainWalk, takeWhile_cons_of_pos htip]
    exact mem_cons_of_mem _ hmem

theorem mem_overlayWindow (hcap : Captured params chain persisted) {c : BlockOverlayContribution}
    (hc : c ∈ selectedChainOverlayWindow persisted chain anchorDaa bound) :
    ∃ e ∈ chain, c = e.contribution := by
  induction hcap generalizing anchorDaa bound with
  | none chain =>
    rcases mem_append.mp ((firstBy_sublist _ _ _).subset hc) with h | h
    · exact (not_mem_nil (mem_of_mem_filter h)).elim
    · obtain ⟨e, he, rfl⟩ := mem_map.mp (mem_reverse.mp h)
      have hwalk := (takeWhile_sublist _).subset (mem_of_mem_filter he)
      exact ⟨e, mem_chainWalk.mp hwalk, rfl⟩
  | some newer older pp hearlier ih =>
    rcases mem_append.mp ((firstBy_sublist _ _ _).subset hc) with h | h
    · obtain ⟨e, he, hce⟩ := ih (mem_of_mem_filter h)
      exact ⟨e, mem_append_right newer he, hce⟩
    · obtain ⟨e, he, rfl⟩ := mem_map.mp (mem_reverse.mp h)
      have hwalk := (takeWhile_sublist _).subset (mem_of_mem_filter he)
      exact ⟨e, mem_chainWalk.mp hwalk, rfl⟩

theorem eq_of_hash_eq (hasc : Ascends (chain.map (·.toHeaderRow))) {e' : ChainEntry}
    (he : e ∈ chain) (he' : e' ∈ chain) (h : e.hash = e'.hash) : e = e' := by
  have hnodup : (chain.map (·.hash)).Nodup :=
    pairwise_map.mpr ((pairwise_map.mp hasc).imp fun hne => hne.2.2.symm)
  exact inj_on_of_nodup_map hnodup he he' h

theorem ascends_of_suffix {chain' : List ChainEntry} (h : chain' <:+ chain)
    (hasc : Ascends (chain.map (·.toHeaderRow))) : Ascends (chain'.map (·.toHeaderRow)) :=
  hasc.sublist (h.sublist.map _)

theorem near_of_newer {newer older : List ChainEntry}
    (hasc : Ascends ((newer ++ e :: older).map (·.toHeaderRow)))
    (hnear : anchorDaa - e.daaScore ≤ bound) :
    ∀ b ∈ newer ++ [e], anchorDaa - b.daaScore ≤ bound := by
  intro b hb
  rcases mem_append.mp hb with hb | hb
  · have hpair := (pairwise_append.mp (pairwise_map.mp hasc)).2.2 b hb e
      mem_cons_self
    exact (Nat.sub_le_sub_left hpair.2.1 anchorDaa).trans hnear
  · rwa [mem_singleton.mp hb]

/-- A rewarded block that the walk reaches, or that the snapshot holds near the anchor, is in the
window: no other block of the chain shares its hash. -/
theorem mem_overlayWindow_of_mem (hcap : Captured params chain persisted)
    (hasc : Ascends (chain.map (·.toHeaderRow))) (he : e ∈ chain) (hkeys : e.rewardedKeys ≠ [])
    (hnear : anchorDaa - e.daaScore ≤ bound)
    (h : e ∈ (chainWalk chain).takeWhile (fun e => decide (persisted.map (·.pruningPoint) ≠
      some e.hash ∧ anchorDaa - e.daaScore ≤ bound)) ∨
      e.contribution ∈ persisted.elim [] (·.window)) :
    e.contribution ∈ selectedChainOverlayWindow persisted chain anchorDaa bound := by
  have hkey : e.hash ∈
      (selectedChainOverlayWindow persisted chain anchorDaa bound).map (·.blockHash) := by
    refine mem_keys_firstBy.mpr ⟨not_mem_nil, mem_map.mpr ⟨e.contribution, ?_, rfl⟩⟩
    rcases h with h | h
    · refine mem_append_right _ (mem_reverse.mpr (mem_map_of_mem ?_))
      exact mem_filter.mpr ⟨h, by simp [hkeys]⟩
    · exact mem_append_left _ (mem_filter.mpr ⟨h, decide_eq_true hnear⟩)
  obtain ⟨c, hc, hhash⟩ := mem_map.mp hkey
  obtain ⟨e', he', rfl⟩ := mem_overlayWindow hcap hc
  rwa [← eq_of_hash_eq hasc he' he hhash]

theorem overlayWindow_covers (hcap : Captured params chain persisted)
    (hasc : Ascends (chain.map (·.toHeaderRow))) (hanchor : ∀ e ∈ chain, e.daaScore ≤ anchorDaa)
    (hbound : bound ≤ overlayWindowWalkBound params) (he : e ∈ chain) (hkeys : e.rewardedKeys ≠ [])
    (hnear : anchorDaa - e.daaScore ≤ bound) :
    e.contribution ∈ selectedChainOverlayWindow persisted chain anchorDaa bound := by
  induction hcap generalizing anchorDaa bound with
  | none chain =>
    refine mem_overlayWindow_of_mem (@Captured.none params _) hasc he hkeys hnear
      (.inl ?_)
    obtain ⟨newer, older, rfl⟩ := append_of_mem he
    exact mem_takeWhile_chainWalk fun b hb =>
      decide_eq_true ⟨Option.some_ne_none _ ∘ Eq.symm, near_of_newer hasc hnear b hb⟩
  | some newer older pp hearlier ih =>
    refine mem_overlayWindow_of_mem (Captured.some newer older pp hearlier) hasc he hkeys hnear ?_
    rcases mem_append.mp he with hmem | hmem
    · -- above the pruning point the walk has not stopped yet
      obtain ⟨newest, between, rfl⟩ := append_of_mem hmem
      have hstop : ∀ b ∈ newest ++ [e], pp.hash ≠ b.hash := by
        intro b hb
        have hb' : b ∈ newest ++ e :: between := by
          rw [append_cons]
          exact mem_append_left _ hb
        exact ((pairwise_append.mp (pairwise_map.mp hasc)).2.2 b hb' pp
          mem_cons_self).2.2
      rw [append_assoc, cons_append] at hasc ⊢
      refine .inl (mem_takeWhile_chainWalk fun b hb => ?_)
      exact decide_eq_true ⟨fun heq => hstop b hb (Option.some.inj heq),
        near_of_newer hasc hnear b hb⟩
    · -- at and below it the captured window has a longer reach
      have hsuffix : pp :: older <:+ newer ++ pp :: older := suffix_append _ _
      have hpp : pp.daaScore ≤ anchorDaa := hanchor pp (hsuffix.subset mem_cons_self)
      refine .inr (ih (ascends_of_suffix hsuffix hasc) ?_ (Nat.le_refl _) hmem ?_)
      · intro b hb
        rcases mem_cons.mp hb with rfl | hb
        · exact Nat.le_refl _
        · have hpair := pairwise_map.mp (ascends_of_suffix hsuffix hasc)
          exact ((pairwise_cons.mp hpair).1 b hb).2.1
      · omega

end LookBack

section Unique

variable {P : Primitives} {params : DnsParams}

/-- What a rewarded key says about the chain below the block: its epoch's cutoff lies below the
tip, the block is near the epoch's anchor, and the key is new. -/
theorem rewarded_key_cases {b : RewardBlock} {prior : List ChainEntry} {key : RewardKey}
    (h : key ∈ (b.entry P params prior).rewardedKeys) :
    ∃ tip row, (prior.map (·.toHeaderRow)).head? = some tip ∧
      params.cutoff key.2 ≤ tip.blueScore ∧
      latestAtMost (·.blueScore) (params.cutoff key.2) (prior.map (·.toHeaderRow)) = some row ∧
      b.daaScore - row.daaScore ≤ params.rewardUniquenessWindowBlocks ∧
      key ∉ alreadyRewarded params b.persisted prior b.daaScore := by
  unfold RewardBlock.entry validatorRewardOutputsForBlock at h
  dsimp only at h
  split at h
  · cases h
  · obtain ⟨hatt, hnew, -⟩ := mem_participationLoop_keys h
    obtain ⟨paid, hpaid, rfl⟩ := mem_map.mp hatt
    obtain ⟨att, -, hsource⟩ := mem_filterMap.mp hpaid
    split at hsource
    · cases hsource
    · next hrecent =>
      split at hsource
      · cases hsource
      · next anchor hlookup =>
        split at hsource
        · cases hsource
        · next hnames =>
          obtain ⟨bond, -, rfl⟩ := Option.map_eq_some_iff.mp hsource
          obtain ⟨-, hdaa⟩ := not_or.mp hnames
          obtain ⟨before, after, hanchors, -⟩ := lookup_eq_some_iff.mp hlookup
          obtain ⟨tip, row, htip, hcut, hrow, -, hrowDaa⟩ := mem_canonicalAnchorsInWindow
            (hanchors ▸ mem_append_right before mem_cons_self)
          refine ⟨tip, row, htip, hcut, hrow, ?_, hnew⟩
          rw [← hrowDaa, ← not_not.mp hdaa]
          exact Nat.le_of_not_lt hrecent

theorem map_toHeaderRow_rewardChain (blocks : List RewardBlock) :
    (rewardChain P params blocks).map (·.toHeaderRow) = blocks.map (·.toHeaderRow) := by
  induction blocks with
  | nil => rfl
  | cons b past ih => exact congrArg (b.toHeaderRow :: ·) ih

theorem mem_rewardChain (h : e ∈ rewardChain P params blocks) :
    ∃ newer, ∃ b : RewardBlock, ∃ past, rewardChain P params blocks =
        newer ++ b.entry P params (rewardChain P params past) :: rewardChain P params past ∧
      e = b.entry P params (rewardChain P params past) := by
  induction blocks with
  | nil => cases h
  | cons b past ih =>
    rcases mem_cons.mp h with rfl | h
    · exact ⟨[], b, past, rfl, rfl⟩
    · obtain ⟨newer, b', past', hchain, he⟩ := ih h
      exact ⟨_ :: newer, b', past', congrArg (_ :: ·) hchain, he⟩

theorem nodup_rewardedKeys (b : RewardBlock) (prior : List ChainEntry) :
    (b.entry P params prior).rewardedKeys.Nodup := by
  unfold RewardBlock.entry validatorRewardOutputsForBlock
  dsimp only
  split
  · exact nodup_nil
  · exact nodup_participationLoop_keys _ _ _

theorem le_overlayWindowWalkBound (hwindow : params.rewardUniquenessWindowBlocks ≤ U64_MAX) :
    params.rewardUniquenessWindowBlocks ≤ overlayWindowWalkBound params := by
  unfold overlayWindowWalkBound finalizationDepth
  omega

theorem rewarded_keys_disjoint {b : RewardBlock} {past : List RewardBlock}
    (hasc : Ascends ((b :: past).map (·.toHeaderRow)))
    (hcap : Captured params (rewardChain P params past) b.persisted)
    (hwindow : params.rewardUniquenessWindowBlocks ≤ U64_MAX) {key : RewardKey}
    (hkey : key ∈ (b.entry P params (rewardChain P params past)).rewardedKeys)
    (he : e ∈ rewardChain P params past) : key ∉ e.rewardedKeys := by
  intro hold
  obtain ⟨-, row, -, -, hrow, hnear, hnew⟩ := rewarded_key_cases hkey
  obtain ⟨hbelow, hascPast⟩ := pairwise_cons.mp hasc
  have hrows := @map_toHeaderRow_rewardChain P params past
  rw [← hrows] at hascPast hbelow
  obtain ⟨newer, b', past', hchain, rfl⟩ := mem_rewardChain he
  obtain ⟨tip', row', htip', hcut', hrow', -, -⟩ := rewarded_key_cases hold
  generalize b'.entry P params (rewardChain P params past') = e at *
  generalize rewardChain P params past' = below at *
  -- everything from the older rewarding block on lies above the epoch's cutoff
  have hsplit := hascPast
  rw [hchain, append_cons, map_append] at hsplit
  have habove := (pairwise_append.mp hsplit).2.2
  have hsame : row = row' := by
    rw [hchain, append_cons, map_append, latestAtMost_append fun r hr =>
      hcut'.trans_lt (habove r hr tip' (mem_of_mem_head? htip')).1, hrow'] at hrow
    exact (Option.some.inj hrow).symm
  -- so both name one anchor, and the older block is at least as near as the anchor
  have hanchor : row'.daaScore ≤ e.daaScore :=
    (habove e.toHeaderRow (by simp) row' (mem_of_find?_eq_some hrow')).2.1
  have hcover := overlayWindow_covers hcap hascPast
    (fun a ha => (hbelow _ (mem_map_of_mem ha)).2.1)
    (le_overlayWindowWalkBound hwindow) he (ne_nil_of_mem hold)
    (show b.daaScore - e.daaScore ≤ params.rewardUniquenessWindowBlocks by
      rw [hsame] at hnear
      omega)
  exact hnew (mem_flatMap.mpr ⟨_, hcover, hold⟩)

/-- No bond is rewarded twice for one epoch: all rewarded keys of a chain are distinct, within each
block and across blocks, whatever the bodies hold. -/
theorem rewarded_keys_nodup (hasc : Ascends (blocks.map (·.toHeaderRow)))
    (hcap : ∀ b past, (b :: past) <:+ blocks →
      Captured params (rewardChain P params past) b.persisted)
    (hwindow : params.rewardUniquenessWindowBlocks ≤ U64_MAX) :
    ((rewardChain P params blocks).flatMap (·.rewardedKeys)).Nodup := by
  induction blocks with
  | nil => exact nodup_nil
  | cons b past ih =>
    rw [rewardChain, flatMap_cons, nodup_append']
    refine ⟨?_, ih (pairwise_cons.mp hasc).2 fun c older h =>
      hcap c older (h.trans (suffix_cons b past)), ?_⟩
    · exact nodup_rewardedKeys b _
    · intro key hkey hmem
      obtain ⟨e, he, hold⟩ := mem_flatMap.mp hmem
      exact rewarded_keys_disjoint hasc (hcap b past suffix_rfl) hwindow hkey he hold

end Unique

def repeatParams : DnsParams :=
  { (default : DnsParams) with
    rewardUniquenessWindowBlocks := 10
    stakeScoreWindowBlueScore := 10
    posV2ActivationDaaScore := 100 }

def repeatBond : StakeBondRecord :=
  { (default : StakeBondRecord) with
    bondOutpoint := ⟨1, 0⟩
    validatorPubkeyHash := 7
    amount := 50 }

def repeatBlock (hash blue : ℕ) (persisted : Option PersistedOverlay) : RewardBlock where
  hash := hash
  blueScore := blue
  daaScore := blue
  txs := [sampleOverlayTx hash SUBNETWORK_ID_STAKE_ATTESTATION_SHARD [7, 7, 1, 9, 0]]
  bondView := ⟨Finmap.singleton ⟨1, 0⟩ repeatBond⟩
  records := [repeatBond]
  validatorPool := 1000
  qualitySubpool := 0
  persisted := persisted

def repeatGenesis : RewardBlock := { repeatBlock 9 0 none with txs := [] }

def repeatSnapshot : PersistedOverlay where
  pruningPoint := 10
  window := [⟨10, 1, [(⟨1, 0⟩, 0)], 0⟩]

/-- Block 10 is rewarded for the attestation; block 11 repeats it with block 10 pruned away, and is
not. -/
theorem rewarded_keys_nodup_repeated_attestation :
    (rewardChain samplePrimitives repeatParams
      [repeatBlock 11 2 (some repeatSnapshot), repeatBlock 10 1 none, repeatGenesis]).flatMap
        (·.rewardedKeys) = [(⟨1, 0⟩, 0)] ∧
    ((rewardChain samplePrimitives repeatParams
      [repeatBlock 11 2 (some repeatSnapshot), repeatBlock 10 1 none, repeatGenesis]).flatMap
        (·.rewardedKeys)).Nodup := by
  refine ⟨by decide, rewarded_keys_nodup ?_ ?_ (by decide)⟩
  · unfold Ascends
    decide
  · intro b past h
    rcases suffix_cons_iff.mp h with h | h
    · obtain ⟨rfl, rfl⟩ := List.cons.inj h
      exact Captured.some [] _ _ (.none _)
    · rcases suffix_cons_iff.mp h with h | h
      · obtain ⟨rfl, rfl⟩ := List.cons.inj h
        exact .none _
      · obtain ⟨rfl, rfl⟩ := List.cons.inj ((suffix_cons_iff.mp h).resolve_right
          fun hnil => by simp at hnil)
        exact .none _

end Misaka.Dns
