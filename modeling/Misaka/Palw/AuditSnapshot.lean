import Misaka.Palw.Attestation
import Misaka.Palw.ProviderChain

/-!
# The committee of a snapshot

A certificate is checked against the view of the block that includes it, with every status taken at
the audit snapshot. Two views of one chain give the same committee as long as what happened between
them leaves every row's status at the snapshot alone and files no bond under an outpoint that the
batch's leaves name.
-/

namespace Misaka.Palw

open Misaka.Core Dns List Table

/-! ## What a committee depends on -/

def PalwProviderBondRecord.contribution (r : PalwProviderBondRecord) :
    Hash64 × TransactionOutpoint × ℕ :=
  (r.ownerPubkeyHash, r.bondOutpoint, r.amountSompi)

theorem isStakeOf_iff_contribution {own : List PalwProviderBondRecord}
    {stake : PalwCredentialStake} :
    IsStakeOf own stake ↔ stake.weight = min ((own.map (·.contribution)).map (·.2.2)).sum U128_MAX ∧
      (∃ c ∈ own.map (·.contribution), c.2.1 = stake.representative) ∧
      ∀ c ∈ own.map (·.contribution), outpointKey stake.representative ≤ outpointKey c.2.1 := by
  have hmap : (own.map (·.contribution)).map (·.2.2) = own.map (·.amountSompi) := by
    rw [map_map]
    rfl
  rw [hmap]
  constructor
  · rintro ⟨hweight, ⟨r, hr, hrep⟩, hleast⟩
    refine ⟨hweight, ⟨r.contribution, mem_map_of_mem hr, hrep⟩, ?_⟩
    rintro c hc
    obtain ⟨q, hq, rfl⟩ := mem_map.mp hc
    exact hleast q hq
  · rintro ⟨hweight, ⟨c, hc, hrep⟩, hleast⟩
    obtain ⟨r, hr, rfl⟩ := mem_map.mp hc
    exact ⟨hweight, ⟨r, hr, hrep⟩, fun q hq => hleast _ (mem_map_of_mem hq)⟩

theorem map_contribution_filter (rows : List PalwProviderBondRecord) (credential : Hash64) :
    (rows.filter (·.ownerPubkeyHash = credential)).map (·.contribution) =
      (rows.map (·.contribution)).filter (·.1 = credential) := by
  rw [filter_map]
  rfl

variable {credentials groups : List Hash64} {r' : PalwProviderBondRecord} {daa : ℕ}
  {cert : PalwBatchCertificateV2}

theorem aggregateProviderCredentialsAt_congr {records records' : List PalwProviderBondRecord}
    {pov : ℕ}
    (h : ((records.filter (eligibleAuditorBond pov credentials groups)).map (·.contribution)).Perm
      ((records'.filter (eligibleAuditorBond pov credentials groups)).map
      (·.contribution))) :
    aggregateProviderCredentialsAt records pov credentials groups =
      aggregateProviderCredentialsAt records' pov credentials groups := by
  have hmem (stake : PalwCredentialStake) :
      stake ∈ aggregateProviderCredentialsAt records pov credentials groups ↔
        stake ∈ aggregateProviderCredentialsAt records' pov credentials groups := by
    have hown := h.filter fun c => decide (c.1 = stake.credential)
    rw [← map_contribution_filter, ← map_contribution_filter] at hown
    rw [mem_aggregateProviderCredentialsAt, mem_aggregateProviderCredentialsAt,
      isStakeOf_iff_contribution, isStakeOf_iff_contribution, (hown.map _).sum_eq]
    simp only [hown.mem_iff]
  have hperm : (aggregateProviderCredentialsAt records pov credentials groups).Perm
      (aggregateProviderCredentialsAt records' pov credentials groups) :=
    (perm_ext_iff_of_nodup nodup_aggregateProviderCredentialsAt.of_map
      nodup_aggregateProviderCredentialsAt.of_map).mpr hmem
  refine hperm.eq_of_pairwise ?_ (pairwise_insertionSort _ _) (pairwise_insertionSort _ _)
  intro a b ha hb hab hba
  exact inj_on_of_nodup_map nodup_aggregateProviderCredentialsAt ha ((hmem b).mpr hb)
    (le_antisymm hab hba)

/-! ## Views that agree at a snapshot -/

def namedBonds (leaves : List PalwPublicLeafV1) : List TransactionOutpoint :=
  leaves.flatMap fun leaf => [leaf.providerABond, leaf.providerBBond]

structure SameAt (snapshot : ℕ) (r r' : PalwProviderBondRecord) : Prop where
  contribution : r'.contribution = r.contribution
  publicKey : r'.ownerPublicKey = r.ownerPublicKey
  group : r'.operatorGroupId = r.operatorGroupId
  status : effectiveProviderBondStatus r' snapshot = effectiveProviderBondStatus r snapshot

/-- The rows of an earlier view live on with their status at the snapshot; a new row is Pending
there and not one the leaves name. -/
structure AgreeAt (snapshot : ℕ) (named : List TransactionOutpoint) (v v' : ProviderBondView) :
    Prop where
  kept : ∀ o r, v.lookup o = some r → ∃ r', v'.lookup o = some r' ∧ SameAt snapshot r r'
  added : ∀ o r', v.lookup o = none → v'.lookup o = some r' →
    o ∉ named ∧ effectiveProviderBondStatus r' snapshot = .pending

variable {snapshot : ℕ} {named : List TransactionOutpoint} {v v' v'' : ProviderBondView}

theorem SameAt.refl (r : PalwProviderBondRecord) : SameAt snapshot r r := ⟨rfl, rfl, rfl, rfl⟩

variable {r : PalwProviderBondRecord} {o : TransactionOutpoint}

theorem SameAt.trans {r'' : PalwProviderBondRecord} (h : SameAt snapshot r r')
    (h' : SameAt snapshot r' r'') : SameAt snapshot r r'' :=
  ⟨h'.contribution.trans h.contribution, h'.publicKey.trans h.publicKey, h'.group.trans h.group,
    h'.status.trans h.status⟩

theorem AgreeAt.refl (v : ProviderBondView) : AgreeAt snapshot named v v where
  kept _ r hr := ⟨r, hr, .refl r⟩
  added o r' hnone hsome := by
    rw [hnone] at hsome
    cases hsome

theorem AgreeAt.trans (h : AgreeAt snapshot named v v') (h' : AgreeAt snapshot named v' v'') :
    AgreeAt snapshot named v v'' where
  kept o r hr := by
    obtain ⟨r', hr', hsame⟩ := h.kept o r hr
    obtain ⟨r'', hr'', hsame'⟩ := h'.kept o r' hr'
    exact ⟨r'', hr'', hsame.trans hsame'⟩
  added o r'' hnone hsome := by
    cases hmid : v'.lookup o with
    | none => exact h'.added o r'' hmid hsome
    | some r' =>
      obtain ⟨hnamed, hstatus⟩ := h.added o r' hnone hmid
      obtain ⟨q, hq, hsame⟩ := h'.kept o r' hmid
      cases Option.some.inj (hsome.symm.trans hq)
      exact ⟨hnamed, hsame.status.trans hstatus⟩

theorem AgreeAt.adjust {f : PalwProviderBondRecord → PalwProviderBondRecord}
    (h : ∀ r, v.lookup o = some r → SameAt snapshot r (f r)) :
    AgreeAt snapshot named v (v.adjust o f) where
  kept o' r hr := by
    rw [lookup_adjust_eq]
    by_cases heq : o' = o
    · subst heq
      exact ⟨f r, by rw [if_pos rfl, hr]; rfl, h r hr⟩
    · exact ⟨r, by rw [if_neg heq, hr], .refl r⟩
  added o' r' hnone hsome := by
    rw [lookup_adjust_eq] at hsome
    split at hsome
    · next heq =>
      rw [← heq, hnone] at hsome
      cases hsome
    · rw [hnone] at hsome
      cases hsome

theorem AgreeAt.insert (hfree : v.lookup o = none) (hnamed : o ∉ named)
    (hstatus : effectiveProviderBondStatus r snapshot = .pending) :
    AgreeAt snapshot named v (v.insert o r) where
  kept o' r' hr' := by
    have hne : o' ≠ o := by
      rintro rfl
      rw [hfree] at hr'
      cases hr'
    exact ⟨r', by rw [lookup_insert_eq, if_neg hne, hr'], .refl r'⟩
  added o' r' hnone hsome := by
    rw [lookup_insert_eq] at hsome
    split at hsome
    · next heq =>
      cases Option.some.inj hsome
      exact ⟨heq ▸ hnamed, hstatus⟩
    · rw [hnone] at hsome
      cases hsome

theorem sameAt_unbond (hnone : r.unbondRequestDaaScore = none) (hlater : snapshot < daa) :
    SameAt snapshot r { r with unbondRequestDaaScore := some daa } where
  contribution := rfl
  publicKey := rfl
  group := rfl
  status := by simp [effectiveProviderBondStatus, hnone, not_le.mpr hlater]

theorem sameAt_slash (hstatus : effectiveProviderBondStatus r snapshot ≠ .slashed)
    (hlater : snapshot < daa) :
    SameAt snapshot r { r with slashedAtDaaScore := some daa } where
  contribution := rfl
  publicKey := rfl
  group := rfl
  status := by
    have hany : r.slashedAtDaaScore.any (· ≤ snapshot) = false := by
      by_contra hany
      exact hstatus (by simp [effectiveProviderBondStatus, Bool.eq_true_of_not_eq_false hany])
    simp only [effectiveProviderBondStatus, Option.any_some, hany,
      decide_eq_false (not_le.mpr hlater)]

/-! ## Committees of views that agree -/

structure SameRound (ctx ctx' : PalwCertificateAttestationCtx) : Prop where
  networkId : ctx'.networkId = ctx.networkId
  povDaaScore : ctx'.povDaaScore = ctx.povDaaScore
  prevSeed : ctx'.prevSeed = ctx.prevSeed
  inclusionEpoch : ctx'.inclusionEpoch = ctx.inclusionEpoch
  inclusionWindowEpochs : ctx'.inclusionWindowEpochs = ctx.inclusionWindowEpochs
  committeeSize : ctx'.committeeSize = ctx.committeeSize
  sampleSize : ctx'.sampleSize = ctx.sampleSize
  quorumNum : ctx'.quorumNum = ctx.quorumNum
  quorumDen : ctx'.quorumDen = ctx.quorumDen

theorem mem_records_iff {ctx : PalwCertificateAttestationCtx} :
    r ∈ ctx.records ↔ ctx.providerBondView.lookup r.bondOutpoint = some r := by
  have hmem : r ∈ ctx.records ↔ r ∈ Table.values ctx.providerBondView := by
    rw [← ctx.lists, Multiset.mem_coe]
  rw [hmem, Table.values, Multiset.mem_map]
  constructor
  · rintro ⟨e, he, rfl⟩
    have hrow : ctx.providerBondView.lookup e.1 = some e.2 := Finmap.lookup_eq_some_iff.mpr he
    rw [ctx.keyed _ _ hrow, hrow]
  · intro h
    exact ⟨_, Finmap.lookup_eq_some_iff.mp h, rfl⟩

theorem nodup_records (ctx : PalwCertificateAttestationCtx) :
    (ctx.records.map (·.bondOutpoint)).Nodup := by
  rw [← Multiset.coe_nodup, ← Multiset.map_coe, ctx.lists, Table.values, Multiset.map_map]
  have hkeys : ctx.providerBondView.entries.map ((·.bondOutpoint) ∘ Sigma.snd) =
      ctx.providerBondView.entries.map Sigma.fst := by
    refine Multiset.map_congr rfl fun e he => ctx.keyed e.1 e.2 ?_
    exact Finmap.lookup_eq_some_iff.mpr he
  rw [hkeys]
  exact Multiset.nodup_keys.mpr ctx.providerBondView.nodupKeys

section Agreement

variable {P : PalwPrimitives} {ctx ctx' : PalwCertificateAttestationCtx}
  {leaves : List PalwPublicLeafV1} {seed batchId : Hash64}

theorem map_filterMap_lookup_eq {α : Type} (f : PalwProviderBondRecord → α)
    (hf : ∀ r r', SameAt snapshot r r' → f r' = f r) (h : AgreeAt snapshot named v v')
    {l : List TransactionOutpoint} (hl : ∀ o ∈ l, o ∈ named) :
    (l.filterMap v'.lookup).map f = (l.filterMap v.lookup).map f := by
  induction l with
  | nil => rfl
  | cons o l ih =>
    have hrest := ih (forall_mem_cons.mp hl).2
    cases ho : v.lookup o with
    | some r =>
      obtain ⟨r', hr', hsame⟩ := h.kept o r ho
      simp only [filterMap_cons, hr', ho, map_cons, hrest, hf r r' hsame]
    | none =>
      have ho' : v'.lookup o = none := by
        cases hsome : v'.lookup o with
        | none => rfl
        | some r' => exact absurd (hl o mem_cons_self) (h.added o r' ho hsome).1
      simp only [filterMap_cons, ho', ho, hrest]

theorem eligible_of_sameAt (h : SameAt snapshot r r') :
    eligibleAuditorBond snapshot credentials groups r' =
      eligibleAuditorBond snapshot credentials groups r := by
  have howner : r'.ownerPubkeyHash = r.ownerPubkeyHash := congrArg (·.1) h.contribution
  rw [eligibleAuditorBond, eligibleAuditorBond, isProviderBondActiveAt, isProviderBondActiveAt,
    h.status, h.group, howner]

theorem perm_contributions (credentials groups : List Hash64)
    (h : AgreeAt snapshot named ctx.providerBondView ctx'.providerBondView) :
    ((ctx'.records.filter (eligibleAuditorBond snapshot credentials groups)).map
        (·.contribution)).Perm
      ((ctx.records.filter (eligibleAuditorBond snapshot credentials groups)).map
        (·.contribution)) := by
  have hnodup (c : PalwCertificateAttestationCtx) :
      ((c.records.filter (eligibleAuditorBond snapshot credentials groups)).map
        (·.contribution)).Nodup := by
    refine List.Nodup.of_map (·.2.1) ?_
    rw [map_map]
    exact (nodup_records c).sublist (filter_sublist.map _)
  refine (perm_ext_iff_of_nodup (hnodup ctx') (hnodup ctx)).mpr fun c => ?_
  simp only [mem_map, mem_filter, mem_records_iff]
  constructor
  · rintro ⟨r', ⟨hr', heligible⟩, rfl⟩
    cases hr : ctx.providerBondView.lookup r'.bondOutpoint with
    | none =>
      -- a row that is new is Pending at the snapshot
      have hstatus := (h.added _ _ hr hr').2
      simp [eligibleAuditorBond, isProviderBondActiveAt, hstatus] at heligible
    | some r =>
      obtain ⟨q, hq, hsame⟩ := h.kept _ _ hr
      cases Option.some.inj (hr'.symm.trans hq)
      refine ⟨r, ⟨?_, (eligible_of_sameAt hsame) ▸ heligible⟩, hsame.contribution.symm⟩
      rw [ctx.keyed _ _ hr, hr]
  · rintro ⟨r, ⟨hr, heligible⟩, rfl⟩
    obtain ⟨r', hr', hsame⟩ := h.kept _ _ hr
    refine ⟨r', ⟨?_, (eligible_of_sameAt hsame).trans heligible⟩, hsame.contribution⟩
    rw [ctx'.keyed _ _ hr', hr']

theorem rederivedCommittee_eq (hround : SameRound ctx ctx')
    (h : AgreeAt ctx.povDaaScore (namedBonds leaves) ctx.providerBondView ctx'.providerBondView) :
    rederivedCommittee P seed batchId ctx' leaves =
      rederivedCommittee P seed batchId ctx leaves := by
  have hcredentials : excludedCredentials ctx'.providerBondView leaves =
      excludedCredentials ctx.providerBondView leaves :=
    map_filterMap_lookup_eq _ (fun _ _ hsame => congrArg (·.1) hsame.contribution) h fun _ ho => ho
  have hgroups : excludedOperatorGroups ctx'.providerBondView leaves =
      excludedOperatorGroups ctx.providerBondView leaves :=
    map_filterMap_lookup_eq _ (fun _ _ hsame => hsame.group) h fun _ ho => ho
  rw [rederivedCommittee, rederivedCommittee, selectWeightedAuditorCommittee,
    selectWeightedAuditorCommittee, hround.povDaaScore, hround.committeeSize, hcredentials, hgroups,
    aggregateProviderCredentialsAt_congr (perm_contributions _ _ h)]

theorem activeKey_eq (o : TransactionOutpoint) (h : AgreeAt snapshot named v v') :
    ((v'.lookup o).filter (isProviderBondActiveAt · snapshot)).map (·.ownerPublicKey) =
      ((v.lookup o).filter (isProviderBondActiveAt · snapshot)).map (·.ownerPublicKey) := by
  cases ho : v.lookup o with
  | some r =>
    obtain ⟨r', hr', hsame⟩ := h.kept o r ho
    rw [hr', Option.filter_some, Option.filter_some, isProviderBondActiveAt, isProviderBondActiveAt,
      hsame.status]
    split
    · rw [Option.map_some, Option.map_some, hsame.publicKey]
    · rfl
  | none =>
    cases ho' : v'.lookup o with
    | none => rfl
    | some r' =>
      have hstatus := (h.added o r' ho ho').2
      simp [Option.filter_some, isProviderBondActiveAt, hstatus]

theorem tallyVote_eq {slate : List PalwCredentialStake} {sampleRoot : Hash64}
    (hround : SameRound ctx ctx')
    (h : AgreeAt ctx.povDaaScore named ctx.providerBondView ctx'.providerBondView) :
    tallyVote P cert ctx' slate sampleRoot = tallyVote P cert ctx slate sampleRoot := by
  funext acc vote
  have hkey := activeKey_eq vote.bondOutpoint h
  rw [tallyVote, tallyVote, hround.networkId, hround.povDaaScore]
  cases hlater : (ctx'.providerBondView.lookup vote.bondOutpoint).filter
      (isProviderBondActiveAt · ctx.povDaaScore) with
  | none =>
    rw [hlater, Option.map_none, eq_comm, Option.map_eq_none_iff] at hkey
    rw [hkey]
  | some record' =>
    rw [hlater, Option.map_some, eq_comm, Option.map_eq_some_iff] at hkey
    obtain ⟨record, hrecord, hpublic⟩ := hkey
    rw [hrecord]
    simp only [Option.elim_some, bind, Except.bind, hpublic]

theorem verifyCertificateAttestation_eq {manifest : PalwBatchManifestV1}
    (hround : SameRound ctx ctx')
    (h : AgreeAt ctx.povDaaScore (namedBonds leaves) ctx.providerBondView ctx'.providerBondView) :
    verifyCertificateAttestation P cert manifest ctx' leaves =
      verifyCertificateAttestation P cert manifest ctx leaves := by
  simp only [verifyCertificateAttestation, rederivedCommittee_eq hround h, tallyVote_eq hround h,
    hround.prevSeed, hround.inclusionEpoch, hround.inclusionWindowEpochs, hround.sampleSize,
    hround.quorumNum, hround.quorumDen]

end Agreement

/-! ## Along a chain -/

/-- A block of mutations that leaves the committee of the snapshot alone: no bond is filed under a
named outpoint, and no bond that was slashed by the snapshot is slashed once more. -/
def KeepsCommittee (snapshot : ℕ) (named : List TransactionOutpoint) (view : ProviderBondView)
    (m : ProviderMutationBlock) : Prop :=
  (∀ o record, PalwProviderBondMutation.insert o record ∈ m.2 → o ∉ named) ∧
    ∀ p daa, PalwProviderBondMutation.slash p daa ∈ m.2 → ∀ r, view.lookup p = some r →
      effectiveProviderBondStatus r snapshot ≠ .slashed

section Chain

variable {P : PalwPrimitives} {V : PalwProcessor} {node node' tip : PalwNode}
  {b : BlockHash × PalwChainBlock} {blocks past : List (BlockHash × PalwChainBlock)}
  {m : ProviderMutationBlock} {mutations : List ProviderMutationBlock}

def ComesAfter (snapshot : ℕ) (named : List TransactionOutpoint) : PalwProviderBondMutation → Prop
  | .insert o record =>
    o ∉ named ∧ effectiveProviderBondStatus record snapshot = .pending
  | .unbond _ daa => snapshot < daa
  | .slash _ _ => False

theorem comesAfter_of_mem {mutation : PalwProviderBondMutation}
    (hmem : mutation ∈ acceptedMutations P V b.2) (hlater : snapshot < b.2.daaScore)
    (hnamed : ∀ o record, PalwProviderBondMutation.insert o record ∈ acceptedMutations P V b.2 →
      o ∉ named) : ComesAfter snapshot named mutation := by
  obtain ⟨tx, -, payload, rfl⟩ | ⟨o, rfl⟩ := mem_providerBondMutations hmem
  · refine ⟨hnamed _ _ hmem, ?_⟩
    simp [effectiveProviderBondStatus, providerBondRecord, not_le.mpr hlater]
  · exact hlater

theorem agreeAt_accepted {hash : BlockHash} {ms : List PalwProviderBondMutation}
    (hms : ∀ mutation ∈ ms, ComesAfter snapshot named mutation)
    (h : ms.foldlM (applyProviderMutation hash) v = .ok v') : AgreeAt snapshot named v v' := by
  induction ms generalizing v with
  | nil =>
    cases h
    exact .refl _
  | cons mutation ms ih =>
    obtain ⟨mid, hmid, hrest⟩ := foldlM_cons_eq_ok.mp h
    refine .trans ?_ (ih (forall_mem_cons.mp hms).2 hrest)
    have hfirst := hms mutation mem_cons_self
    cases mutation with
    | insert o record =>
      obtain ⟨hfree, rfl⟩ := applyProviderInsert_eq_ok.mp hmid
      exact .insert hfree hfirst.1 hfirst.2
    | unbond o daa =>
      obtain ⟨⟨record, hrecord, hnone⟩, rfl⟩ := applyProviderStamp_eq_ok.mp hmid
      refine .adjust fun r hr => ?_
      cases Option.some.inj (hrecord.symm.trans hr)
      exact sameAt_unbond hnone hfirst
    | slash o daa => exact hfirst.elim

theorem agreeAt_slashes {slashed : List TransactionOutpoint} (hlater : snapshot < daa)
    (hslashed : ∀ p ∈ slashed, ∀ r, v.lookup p = some r →
      effectiveProviderBondStatus r snapshot ≠ .slashed) (h : AgreeAt snapshot named v v') :
    AgreeAt snapshot named v (v'.apply (slashed.map fun p => .slash p daa)) := by
  induction slashed generalizing v' with
  | nil => exact h
  | cons p slashed ih =>
    refine ih (forall_mem_cons.mp hslashed).2 (h.trans (.adjust fun r' hr' => ?_))
    refine sameAt_slash ?_ hlater
    cases hr : v.lookup p with
    | none =>
      rw [(h.added p r' hr hr').2]
      decide
    | some r =>
      obtain ⟨q, hq, hsame⟩ := h.kept p r hr
      cases Option.some.inj (hr'.symm.trans hq)
      rw [hsame.status]
      exact hslashed p mem_cons_self r hr

theorem agreeAt_block (hrows : RowsOfChain P node.providers past)
    (hadm : ChainAdmissible P (past ++ b :: blocks))
    (hblock : walkChainBlock P V node b = .ok (m, node')) (hlater : snapshot < b.2.daaScore)
    (hkeeps : KeepsCommittee snapshot named node.providers m) :
    AgreeAt snapshot named node.providers node'.providers := by
  obtain ⟨hauthorized, hadvance, rfl⟩ := walkChainBlock_eq_ok hblock
  rw [providers_advanceNode hadvance]
  unfold KeepsCommittee palwProviderBondMutationsForChainBlock at hkeeps
  unfold palwProviderBondMutationsForChainBlock
  split
  · exact .refl _
  · next hfence =>
    rw [if_neg hfence] at hkeeps
    obtain ⟨hnamed, hslashed⟩ := hkeeps
    obtain ⟨r, hr⟩ := exists_attach_acceptedMutations hrows hadm hfence hauthorized
    have haccepted : AgreeAt snapshot named node.providers r := by
      refine agreeAt_accepted (fun mutation hmem => comesAfter_of_mem hmem hlater ?_) hr
      intro o record hinsert
      exact hnamed o record (mem_append_left _ hinsert)
    have happly : (acceptedMutations P V b.2).foldl ProviderBondView.applyOne node.providers = r :=
      (attach_eq_apply hr).symm
    rw [ProviderBondView.apply, foldl_append, happly]
    refine agreeAt_slashes hlater (fun p hp r₀ hr₀ => ?_) haccepted
    exact hslashed p b.2.daaScore (mem_append_right _ (mem_map_of_mem hp)) r₀ hr₀

theorem agreeAt_walk (hrows : RowsOfChain P node.providers past)
    (hadm : ChainAdmissible P (past ++ blocks))
    (hwalk : walkChain P V node blocks = .ok (mutations, tip))
    (hlater : ∀ b ∈ blocks, snapshot < b.2.daaScore)
    (hkeeps : StepsMeet (fun view m => view.apply m.2) (KeepsCommittee snapshot named)
      node.providers mutations) :
    AgreeAt snapshot named node.providers tip.providers := by
  induction blocks generalizing past node mutations with
  | nil =>
    cases hwalk
    exact .refl _
  | cons b blocks ih =>
    obtain ⟨m, node', rest, hblock, hrest, rfl⟩ := walkChain_cons_eq_ok hwalk
    obtain ⟨-, hadvance, hm⟩ := walkChainBlock_eq_ok hblock
    have hview : node.providers.apply m.2 = node'.providers := by
      rw [providers_advanceNode hadvance, hm]
    refine (agreeAt_block hrows hadm hblock (hlater b mem_cons_self) hkeeps.1).trans ?_
    refine ih (hrows.step hblock) (by rwa [append_assoc]) hrest (forall_mem_cons.mp hlater).2 ?_
    rw [← hview]
    exact hkeeps.2

/-- The committee of a snapshot, and the verdict on every certificate of the batch, do not change
along a chain whose blocks come after the snapshot, file no bond under an outpoint that the leaves
name and slash no bond that was slashed by the snapshot. -/
theorem committee_frozen {common between : List (BlockHash × PalwChainBlock)} {fork : PalwNode}
    {mcommon : List ProviderMutationBlock} {leaves : List PalwPublicLeafV1}
    {ctx ctx' : PalwCertificateAttestationCtx}
    (hcommon : walkChain P V .genesis common = .ok (mcommon, fork))
    (hbetween : walkChain P V fork between = .ok (mutations, tip))
    (hadm : ChainAdmissible P (common ++ between))
    (hview : ctx.providerBondView = fork.providers) (hview' : ctx'.providerBondView = tip.providers)
    (hround : SameRound ctx ctx')
    (hlater : ∀ b ∈ between, ctx.povDaaScore < b.2.daaScore)
    (hkeeps : StepsMeet (fun view m => view.apply m.2)
      (KeepsCommittee ctx.povDaaScore (namedBonds leaves)) fork.providers mutations) :
    (∀ seed batchId, rederivedCommittee P seed batchId ctx' leaves =
      rederivedCommittee P seed batchId ctx leaves) ∧
    ∀ cert manifest, verifyCertificateAttestation P cert manifest ctx' leaves =
      verifyCertificateAttestation P cert manifest ctx leaves := by
  have hrows : RowsOfChain P fork.providers common := by
    have hgenesis : RowsOfChain P PalwNode.genesis.providers [] := by
      intro o record ho
      cases ho
    exact hgenesis.walk hcommon
  have hagree := agreeAt_walk hrows hadm hbetween hlater hkeeps
  rw [← hview, ← hview'] at hagree
  exact ⟨fun _ _ => rederivedCommittee_eq hround hagree,
    fun _ _ => verifyCertificateAttestation_eq hround hagree⟩

end Chain

/-! ## A named bond that comes later -/

def auditorChain : List (BlockHash × PalwChainBlock) :=
  sampleChain [sampleBlock 10 [sampleProviderBondTx 3]]

def auditorRecords : List PalwProviderBondRecord := [sampleProviderRecord 3 10]

def namedBondBlocks : List (BlockHash × PalwChainBlock) :=
  sampleChain [sampleBlock 310 [sampleProviderBondTx 5]]

def auditorLeavesBlocks : List (BlockHash × PalwChainBlock) :=
  sampleChain [sampleBlock 310 [sampleOverlayTx 13 (.fromByte 0x37) [3, 3]]]

def leavingRecords : List PalwProviderBondRecord :=
  [{ sampleProviderRecord 3 10 with unbondRequestDaaScore := some 310 }]

/-- The committee member may ask for its bond back: the certificate is still accepted. -/
theorem committee_frozen_unbond :
    ∃ mcommon fork mutations tip,
      walkChain samplePalwPrimitives sampleProcessor .genesis auditorChain = .ok (mcommon, fork) ∧
      walkChain samplePalwPrimitives sampleProcessor fork auditorLeavesBlocks =
        .ok (mutations, tip) ∧
      tip.providers = (sampleAuditCtx leavingRecords (by decide)).providerBondView ∧
      verifyCertificateAttestation samplePalwPrimitives (sampleCertificate 3) (sampleManifest 6 1 1)
        (sampleAuditCtx leavingRecords (by decide)) [sampleLeaf 6 1 5 6] = .ok () := by
  obtain ⟨⟨mcommon, fork⟩, hcommon, hview, ⟨_, tip⟩, hbetween, hview', rfl⟩ : ∃ common,
      walkChain samplePalwPrimitives sampleProcessor .genesis auditorChain = .ok common ∧
      common.2.providers = (sampleAuditCtx auditorRecords (by decide)).providerBondView ∧
      ∃ between,
        walkChain samplePalwPrimitives sampleProcessor common.2 auditorLeavesBlocks = .ok between ∧
        between.2.providers = (sampleAuditCtx leavingRecords (by decide)).providerBondView ∧
        between.1 = [(310, [.unbond ⟨3, 0⟩ 310])] := by
    decide +kernel
  have hverified : verifyCertificateAttestation samplePalwPrimitives (sampleCertificate 3)
      (sampleManifest 6 1 1) (sampleAuditCtx auditorRecords (by decide)) [sampleLeaf 6 1 5 6] =
        .ok () := by decide +kernel
  have hkeeps : StepsMeet (fun view (m : ProviderMutationBlock) => view.apply m.2)
      (KeepsCommittee 200 (namedBonds [sampleLeaf 6 1 5 6])) fork.providers
      [(310, [.unbond ⟨3, 0⟩ 310])] := by
    simp [StepsMeet, KeepsCommittee]
  refine ⟨mcommon, fork, _, tip, hcommon, hbetween, hview', ?_⟩
  rw [← hverified]
  exact (committee_frozen hcommon hbetween (by decide +kernel) hview.symm hview'.symm
    ⟨rfl, rfl, rfl, rfl, rfl, rfl, rfl, rfl, rfl⟩ (by decide) hkeeps).2 _ _

/-- The same certificate is accepted before the block and refused after it: the new bond puts its
operator group on the list of exclusions. -/
theorem late_bond_changes_committee :
    ∃ mcommon fork mutations tip,
      walkChain samplePalwPrimitives sampleProcessor .genesis auditorChain = .ok (mcommon, fork) ∧
      walkChain samplePalwPrimitives sampleProcessor fork namedBondBlocks = .ok (mutations, tip) ∧
      ChainAdmissible samplePalwPrimitives (auditorChain ++ namedBondBlocks) ∧
      fork.providers = (sampleAuditCtx auditorRecords (by decide)).providerBondView ∧
      tip.providers = (sampleAuditCtx (auditorRecords ++ [sampleProviderRecord 5 310])
        (by decide)).providerBondView ∧
      verifyCertificateAttestation samplePalwPrimitives (sampleCertificate 3) (sampleManifest 6 1 1)
        (sampleAuditCtx auditorRecords (by decide)) [sampleLeaf 6 1 5 6] = .ok () ∧
      verifyCertificateAttestation samplePalwPrimitives (sampleCertificate 3) (sampleManifest 6 1 1)
        (sampleAuditCtx (auditorRecords ++ [sampleProviderRecord 5 310]) (by decide))
        [sampleLeaf 6 1 5 6] = .error .certificateAuditorSetMismatch := by
  obtain ⟨mcommon, fork, hcommon, hview, mutations, tip, hbetween, hview'⟩ : ∃ mcommon fork,
      walkChain samplePalwPrimitives sampleProcessor .genesis auditorChain = .ok (mcommon, fork) ∧
      fork.providers = (sampleAuditCtx auditorRecords (by decide)).providerBondView ∧
      ∃ mutations tip, walkChain samplePalwPrimitives sampleProcessor fork namedBondBlocks =
          .ok (mutations, tip) ∧
        tip.providers = (sampleAuditCtx (auditorRecords ++ [sampleProviderRecord 5 310])
          (by decide)).providerBondView := by
    decide +kernel
  exact ⟨mcommon, fork, mutations, tip, hcommon, hbetween, by decide +kernel, hview, hview',
    by decide +kernel, by decide +kernel⟩

end Misaka.Palw
