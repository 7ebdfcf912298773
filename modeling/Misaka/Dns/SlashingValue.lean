import Misaka.Dns.Slashing

/-!
# Value conservation of slashing

What a block mints, accrues and burns is compared with the bond outputs it removes. Each applied
effect is balanced; the accrual also counts the effects that were skipped because their bond output
is gone, so the books balance exactly when those carry no reserve share.
-/

namespace Misaka.Dns

open Misaka.Core List

def SlashingSideEffect.minted (e : SlashingSideEffect) : ℕ :=
  (e.reporterOutput.map (·.value)).getD 0 + outputsValue e.victimOutputs

def SlashingSideEffect.burned (e : SlashingSideEffect) : ℕ :=
  e.burnedSompi + (e.victimEpochPoolSompi - outputsValue e.victimOutputs)

theorem computeSlashingDistribution_sum (amount reporterBps reserveBps victimBps : ℕ) :
    let d := computeSlashingDistribution amount reporterBps reserveBps victimBps
    d.reporterRewardSompi + d.securityReserveSompi + d.victimEpochPoolSompi + d.burnedSompi =
      amount := by
  simp only [computeSlashingDistribution]
  omega

structure SlashingSideEffect.Balanced (e : SlashingSideEffect) : Prop where
  balanced : e.minted + e.securityReserveSompi + e.burned = e.slashedAmountSompi

theorem sideEffectOf_balanced (reporterBps reserveBps victimBps : ℕ) (ev : ResolvedEvidence) :
    (sideEffectOf reporterBps reserveBps victimBps none ev).Balanced := by
  have hsum := computeSlashingDistribution_sum ev.slashedAmount reporterBps reserveBps victimBps
  refine ⟨?_⟩
  simp only [sideEffectOf, slashingDistributionOutput, Option.map_none, Option.getD_none,
    SlashingSideEffect.minted, SlashingSideEffect.burned, outputsValue_nil] at hsum ⊢
  split
  · simp only [Option.map_some, Option.getD_some]
    omega
  · simp only [Option.map_none, Option.getD_none]
    omega

theorem withVictims_balanced {params : DnsParams} {window : SettlementInput}
    {bondView : ActiveBondView} {e : SlashingSideEffect} (he : e.Balanced)
    (hv : e.victimOutputs = []) : (withVictims params window bondView e).Balanced := by
  unfold withVictims
  split
  · exact he
  · have hpaid (slashedPayload : Option Hash64) :
        outputsValue (slashedEpochVictimOutputs params window e.slashedEpoch slashedPayload
          e.victimEpochPoolSompi) ≤ e.victimEpochPoolSompi :=
      outputsValue_victimCompensationOutputs_le _ _
    have hbal := he.balanced
    refine ⟨?_⟩
    simp only [SlashingSideEffect.minted, SlashingSideEffect.burned, hv, outputsValue_nil] at hbal ⊢
    have := hpaid ((bondView.get e.bondOutpoint).map (·.ownerRewardSpkPayload))
    omega

variable {s' : UtxoState} {diff : UtxoDiff} {effects : List SlashingSideEffect}
  {t t' : TransactionOutpoint → Prop}

section Apply

variable {view : UtxoView} {mintDaa : ℕ} {s : UtxoState} {e : SlashingSideEffect}

def mintsValue (ms : List (TransactionOutpoint × TransactionOutput)) : ℕ :=
  outputsValue (ms.map Prod.snd)

theorem mintsValue_mints (e : SlashingSideEffect) : mintsValue e.mints = e.minted := by
  unfold mintsValue SlashingSideEffect.mints SlashingSideEffect.minted
  rw [map_append, outputsValue_append, map_map, map_map]
  congr 1
  · cases e.reporterOutput <;> rfl
  · congr 1
    exact zipIdx_map_fst 0 e.victimOutputs

theorem nodup_mints (e : SlashingSideEffect) : (e.mints.map Prod.fst).Nodup := by
  unfold SlashingSideEffect.mints
  rw [map_append, map_map, map_map]
  have hvictims : List.map (Prod.fst ∘ fun v : TransactionOutput × ℕ =>
      ((⟨e.slashingTxId, 2 + v.2⟩ : TransactionOutpoint), v.1)) e.victimOutputs.zipIdx =
      (List.range' 0 e.victimOutputs.length).map fun i => ⟨e.slashingTxId, 2 + i⟩ := by
    rw [← zipIdx_map_snd, map_map]
    rfl
  rw [hvictims]
  refine nodup_append.mpr ⟨?_, ?_, ?_⟩
  · cases e.reporterOutput <;> simp
  · refine List.Nodup.map (fun i j hij => ?_) nodup_range'
    have : 2 + i = 2 + j := congrArg TransactionOutpoint.index hij
    omega
  · rintro o ho o' ho' rfl
    -- index 0 belongs to the reporter, the victims start at 2
    obtain ⟨out, -, rfl⟩ := mem_map.mp ho
    obtain ⟨i, -, hi⟩ := mem_map.mp ho'
    have : 2 + i = 0 := congrArg TransactionOutpoint.index hi
    omega

theorem transactionId_of_mem_mints {m : TransactionOutpoint × TransactionOutput}
    (hm : m ∈ e.mints) : m.1.transactionId = e.slashingTxId := by
  rcases mem_append.mp hm with hm | hm
  all_goals
    obtain ⟨_, -, rfl⟩ := mem_map.mp hm
    rfl

/-- What one or more edits did: the value they minted and removed, and the only outpoints they
touched. -/
structure Changes (view : UtxoView) (s s' : UtxoState) (touched : TransactionOutpoint → Prop)
    (minted removed : ℕ) : Prop where
  added_eq : ∃ es, s'.multisetHash.added = s.multisetHash.added + es ∧ entriesValue es = minted
  removed_eq : ∃ es, s'.multisetHash.removed = s.multisetHash.removed + es ∧
    entriesValue es = removed
  compose_eq : ∀ o, ¬touched o →
    compose view s'.mergesetDiff o = compose view s.mergesetDiff o
  add_eq : ∀ o, ¬touched o → s'.mergesetDiff.add.lookup o = s.mergesetDiff.add.lookup o

theorem Changes.refl (view : UtxoView) (s : UtxoState) : Changes view s s (fun _ => False) 0 0 :=
  ⟨⟨0, (add_zero _).symm, rfl⟩, ⟨0, (add_zero _).symm, rfl⟩, fun _ _ => rfl, fun _ _ => rfl⟩

theorem Changes.trans {s s'' : UtxoState} {m m' r r' : ℕ} (h : Changes view s s' t m r)
    (h' : Changes view s' s'' t' m' r') :
    Changes view s s'' (fun o => t o ∨ t' o) (m + m') (r + r') := by
  obtain ⟨es, hes, rfl⟩ := h.added_eq
  obtain ⟨es', hes', rfl⟩ := h'.added_eq
  obtain ⟨rs, hrs, rfl⟩ := h.removed_eq
  obtain ⟨rs', hrs', rfl⟩ := h'.removed_eq
  refine ⟨⟨es + es', ?_, entriesValue_add _ _⟩, ⟨rs + rs', ?_, entriesValue_add _ _⟩, ?_, ?_⟩
  · rw [hes', hes, add_assoc]
  · rw [hrs', hrs, add_assoc]
  · intro o ho
    rw [h'.compose_eq o fun ht => ho (.inr ht), h.compose_eq o fun ht => ho (.inl ht)]
  · intro o ho
    rw [h'.add_eq o fun ht => ho (.inr ht), h.add_eq o fun ht => ho (.inl ht)]

theorem Changes.mono {s : UtxoState} {m r : ℕ} (h : Changes view s s' t m r)
    (ht : ∀ o, t o → t' o) : Changes view s s' t' m r :=
  ⟨h.added_eq, h.removed_eq, fun o ho => h.compose_eq o fun hto => ho (ht o hto),
    fun o ho => h.add_eq o fun hto => ho (ht o hto)⟩

theorem mintUtxo_ok {o : TransactionOutpoint} (out : TransactionOutput)
    (hfree : s.mergesetDiff.add.lookup o = none) :
    ∃ s', mintUtxo mintDaa s o out = .ok s' ∧ Changes view s s' (· = o) out.value 0 := by
  obtain ⟨diff, hdiff, hedit⟩ := @UtxoDiff.addEntry_of_free view s.mergesetDiff o
    ⟨out.value, out.scriptPublicKey, mintDaa, false⟩ hfree
  refine ⟨_, bind_eq_ok.mpr ⟨diff, hdiff, rfl⟩, ?_⟩
  exact ⟨⟨_, rfl, entriesValue_singleton _⟩, ⟨0, (add_zero _).symm, rfl⟩, hedit.compose_eq,
    hedit.add_eq⟩

theorem mints_ok {ms : List (TransactionOutpoint × TransactionOutput)}
    (hnodup : (ms.map Prod.fst).Nodup)
    (hfree : ∀ m ∈ ms, s.mergesetDiff.add.lookup m.1 = none) :
    ∃ s', ms.foldlM (fun s m => mintUtxo mintDaa s m.1 m.2) s = .ok s' ∧
      Changes view s s' (· ∈ ms.map Prod.fst) (mintsValue ms) 0 := by
  induction ms generalizing s with
  | nil => exact ⟨s, rfl, (Changes.refl view s).mono fun _ => False.elim⟩
  | cons m ms ih =>
    rw [map_cons, nodup_cons] at hnodup
    obtain ⟨s₁, hs₁, hch⟩ := @mintUtxo_ok view mintDaa s m.1 m.2 (hfree m mem_cons_self)
    have hfree' : ∀ m' ∈ ms, s₁.mergesetDiff.add.lookup m'.1 = none := by
      intro m' hm'
      rw [hch.add_eq m'.1 fun heq => hnodup.1 (heq ▸ mem_map_of_mem hm')]
      exact hfree m' (mem_cons_of_mem m hm')
    obtain ⟨s', hs', hch'⟩ := ih hnodup.2 hfree'
    refine ⟨s', foldlM_cons_eq_ok.mpr ⟨s₁, hs₁, hs'⟩, ?_⟩
    exact (hch.trans hch').mono fun o ho => by simpa using ho

theorem applySlashingEffect_live {entry : UtxoEntry}
    (hlive : compose view s.mergesetDiff e.bondOutpoint = some entry)
    (hbond : e.bondOutpoint.transactionId ≠ e.slashingTxId)
    (hfree : ∀ i, s.mergesetDiff.add.lookup ⟨e.slashingTxId, i⟩ = none) :
    ∃ s', applySlashingEffect view mintDaa s e = .ok s' ∧
      Changes view s s' (fun o => o = e.bondOutpoint ∨ o.transactionId = e.slashingTxId)
        e.minted entry.amount := by
  obtain ⟨diff, hdiff, hedit⟩ := UtxoDiff.removeEntry_of_compose hlive
  have hremoved : Changes view s ⟨diff, s.multisetHash.removeUtxo e.bondOutpoint entry⟩
      (· = e.bondOutpoint) 0 entry.amount :=
    ⟨⟨0, (add_zero _).symm, rfl⟩, ⟨_, rfl, entriesValue_singleton _⟩, hedit.compose_eq,
      hedit.add_eq⟩
  have hmint : ∀ m ∈ e.mints, diff.add.lookup m.1 = none := by
    intro m hm
    have hid := transactionId_of_mem_mints hm
    rw [hedit.add_eq m.1 fun heq => hbond (heq ▸ hid)]
    have := hfree m.1.index
    rwa [← hid] at this
  obtain ⟨s', hs', hch⟩ := @mints_ok view mintDaa
    ⟨diff, s.multisetHash.removeUtxo e.bondOutpoint entry⟩ e.mints (nodup_mints e) hmint
  refine ⟨s', ?_, ?_⟩
  · unfold applySlashingEffect
    rw [hlive]
    exact bind_eq_ok.mpr ⟨diff, hdiff, hs'⟩
  · have h := hremoved.trans hch
    rw [mintsValue_mints, Nat.zero_add, Nat.add_zero] at h
    refine h.mono fun o ho => ho.imp_right fun hmem => ?_
    obtain ⟨m, hm, rfl⟩ := mem_map.mp hmem
    exact transactionId_of_mem_mints hm

structure EffectsSeparate (effects : List SlashingSideEffect) : Prop where
  bonds_nodup : (effects.map (·.bondOutpoint)).Nodup
  txs_nodup : (effects.map (·.slashingTxId)).Nodup
  bond_ne_tx : ∀ e ∈ effects, ∀ e' ∈ effects, e.bondOutpoint.transactionId ≠ e'.slashingTxId

def liveEffects (view : UtxoView) (diff : UtxoDiff) (effects : List SlashingSideEffect) :
    List SlashingSideEffect :=
  effects.filter fun e => (compose view diff e.bondOutpoint).isSome

theorem applySlashingEffectsToState_ok {effects : List SlashingSideEffect}
    (hsep : EffectsSeparate effects)
    (hfree : ∀ e ∈ effects, ∀ i, s.mergesetDiff.add.lookup ⟨e.slashingTxId, i⟩ = none)
    (hlock : ∀ e ∈ effects, ∀ entry, compose view s.mergesetDiff e.bondOutpoint = some entry →
      entry.amount = e.slashedAmountSompi) :
    ∃ s' touched, applySlashingEffectsToState effects view mintDaa s = .ok s' ∧
      Changes view s s' touched
        ((liveEffects view s.mergesetDiff effects).map (·.minted)).sum
        ((liveEffects view s.mergesetDiff effects).map (·.slashedAmountSompi)).sum := by
  induction effects generalizing s with
  | nil => exact ⟨s, _, rfl, Changes.refl view s⟩
  | cons e es ih =>
    have hbonds := nodup_cons.mp hsep.bonds_nodup
    have htxs := nodup_cons.mp hsep.txs_nodup
    have hne := hsep.bond_ne_tx
    simp only [forall_mem_cons] at hfree hlock hne
    have hsep' : EffectsSeparate es := ⟨hbonds.2, htxs.2, fun a ha => (hne.2 a ha).2⟩
    cases hlive : compose view s.mergesetDiff e.bondOutpoint with
    | none =>
      obtain ⟨s', touched, hs', hch⟩ := ih hsep' hfree.2 hlock.2
      have hskip : applySlashingEffect view mintDaa s e = .ok s := by
        unfold applySlashingEffect
        rw [hlive]
      have hfilter : liveEffects view s.mergesetDiff (e :: es) =
          liveEffects view s.mergesetDiff es := filter_cons_of_neg (by simp [hlive])
      rw [hfilter]
      exact ⟨s', touched, foldlM_cons_eq_ok.mpr ⟨s, hskip, hs'⟩, hch⟩
    | some entry =>
      obtain ⟨s₁, hs₁, hch₁⟩ := @applySlashingEffect_live view mintDaa s e entry hlive
        hne.1.1 hfree.1
      -- the other effects see the same view of their bonds and mint outpoints
      have hview : ∀ a ∈ es, compose view s₁.mergesetDiff a.bondOutpoint =
          compose view s.mergesetDiff a.bondOutpoint := by
        intro a ha
        refine hch₁.compose_eq _ fun htouched => ?_
        rcases htouched with heq | heq
        · exact hbonds.1 (mem_map.mpr ⟨a, ha, heq⟩)
        · exact (hne.2 a ha).1 heq
      have hfree₁ : ∀ a ∈ es, ∀ i, s₁.mergesetDiff.add.lookup ⟨a.slashingTxId, i⟩ = none := by
        intro a ha i
        rw [hch₁.add_eq _ fun htouched => ?_]
        · exact hfree.2 a ha i
        · rcases htouched with heq | heq
          · exact hne.1.2 a ha (congrArg TransactionOutpoint.transactionId heq.symm)
          · exact htxs.1 (mem_map.mpr ⟨a, ha, heq⟩)
      obtain ⟨s', touched, hs', hch⟩ := ih hsep' hfree₁ fun a ha entry' h' =>
        hlock.2 a ha entry' (hview a ha ▸ h')
      have hfilter : liveEffects view s.mergesetDiff (e :: es) =
          e :: liveEffects view s₁.mergesetDiff es := by
        unfold liveEffects
        rw [filter_cons_of_pos (by simp [hlive])]
        exact congrArg (e :: ·) (filter_congr fun a ha => by rw [hview a ha])
      rw [hfilter, map_cons, map_cons, sum_cons, sum_cons, ← hlock.1 entry hlive]
      exact ⟨s', _, foldlM_cons_eq_ok.mpr ⟨s₁, hs₁, hs'⟩, hch₁.trans hch⟩

end Apply

section Balance

variable {P : Primitives} {params : DnsParams} {window : SettlementInput}
  {accepted : List Transaction} {bondView : ActiveBondView} {view : UtxoView} {daa : ℕ}
  {s : UtxoState}

def DnsParams.reserveShare (params : DnsParams) (daa amount : ℕ) : ℕ :=
  (computeSlashingDistribution amount params.rewardParams.slashingReporterRewardBps
    (params.slashingShares daa).1 (params.slashingShares daa).2).securityReserveSompi

theorem resolveEvidence_eq_some {tx : Transaction} {r : ResolvedEvidence} :
    resolveEvidence P bondView daa tx = some r ↔
      ∃ ev bond, slashingEvidenceOf P tx = some ev ∧ bondView.get ev.bondOutpoint = some bond ∧
        (effectiveBondStatus bond daa).isSlashable ∧
        r = ⟨ev.bondOutpoint, bond.amount, ev.reporterRewardSpkPayload, P.transactionId tx,
          ev.attestationA.epoch⟩ := by
  rw [resolveEvidence]
  cases slashingEvidenceOf P tx with
  | none => simp
  | some ev =>
    cases hbond : bondView.get ev.bondOutpoint with
    | none => simp [hbond]
    | some bond => simp [hbond, @eq_comm _ r]

theorem mem_slashingEffects {e : SlashingSideEffect}
    (he : e ∈ slashingEffects P params window accepted bondView daa) :
    ∃ tx ∈ accepted, ∃ ev bond, slashingEvidenceOf P tx = some ev ∧
      bondView.get e.bondOutpoint = some bond ∧ (effectiveBondStatus bond daa).isSlashable ∧
      e.bondOutpoint = ev.bondOutpoint ∧ e.slashedAmountSompi = bond.amount ∧
      e.slashingTxId = P.transactionId tx ∧
      e.securityReserveSompi = params.reserveShare daa bond.amount ∧ e.Balanced ∧
      ∃ r, (accepted.filterMap (resolveEvidence P bondView daa)).find?
        (·.bondOutpoint = e.bondOutpoint) = some r ∧ e.slashingTxId = r.slashingTxId := by
  obtain ⟨e₀, he₀, rfl⟩ := mem_map.mp he
  obtain ⟨r, hr, rfl⟩ := mem_map.mp he₀
  have hbal := @withVictims_balanced params window bondView _
    (sideEffectOf_balanced params.rewardParams.slashingReporterRewardBps
      (params.slashingShares daa).1 (params.slashingShares daa).2 r) rfl
  obtain ⟨tx, htx, hres⟩ := mem_filterMap.mp ((firstBy_sublist _ _ _).subset hr)
  have hfirst := find?_of_mem_firstBy hr
  obtain ⟨ev, bond, hev, hget, hstatus, rfl⟩ := resolveEvidence_eq_some.mp hres
  refine ⟨tx, htx, ev, bond, hev, ?_⟩
  unfold withVictims at hbal ⊢
  split at hbal
  · rw [if_pos ‹_›]
    exact ⟨hget, hstatus, rfl, rfl, rfl, rfl, hbal, _, hfirst, rfl⟩
  · rw [if_neg ‹_›]
    exact ⟨hget, hstatus, rfl, rfl, rfl, rfl, hbal, _, hfirst, rfl⟩

theorem map_slashingEffects {α : Type} {f : SlashingSideEffect → α} {g : ResolvedEvidence → α}
    (h : ∀ r, f (withVictims params window bondView
      (sideEffectOf params.rewardParams.slashingReporterRewardBps (params.slashingShares daa).1
        (params.slashingShares daa).2 none r)) = g r) :
    (slashingEffects P params window accepted bondView daa).map f =
      (firstBy (·.bondOutpoint) []
        (accepted.filterMap (resolveEvidence P bondView daa))).map g := by
  unfold slashingEffects resolveSlashingSideEffects slashingSideEffectsFromEvidence
  rw [map_map, map_map]
  exact map_congr_left fun r _ => h r

theorem effectsSeparate_slashingEffects (hids : (accepted.map P.transactionId).Nodup)
    (hbond : ∀ tx ∈ accepted, (slashingEvidenceOf P tx).isSome → ∀ o, (bondView.get o).isSome →
      o.transactionId ≠ P.transactionId tx) :
    EffectsSeparate (slashingEffects P params window accepted bondView daa) := by
  have hvictims (e : SlashingSideEffect) :
      (withVictims params window bondView e).bondOutpoint = e.bondOutpoint ∧
        (withVictims params window bondView e).slashingTxId = e.slashingTxId := by
    unfold withVictims
    split <;> exact ⟨rfl, rfl⟩
  refine ⟨?_, ?_, ?_⟩
  · rw [map_slashingEffects fun r => (hvictims _).1]
    exact nodup_keys_firstBy _ _ _
  · rw [map_slashingEffects fun r => (hvictims _).2]
    refine (hids.sublist ?_).sublist ((firstBy_sublist _ _ _).map _)
    refine map_filterMap_sublist (fun tx r hr => ?_) accepted
    obtain ⟨ev, bond, -, -, -, rfl⟩ := resolveEvidence_eq_some.mp hr
    rfl
  · intro e he e' he'
    obtain ⟨-, -, -, bond, -, hget, -⟩ := mem_slashingEffects he
    obtain ⟨tx, hmem, ev, -, hev, -, -, -, -, htx, -⟩ := mem_slashingEffects he'
    rw [htx]
    exact hbond tx hmem (by simp [hev]) _ (by simp [hget])

theorem reserve_skipped_iff :
    (∀ e ∈ slashingEffects P params window accepted bondView daa,
      compose view diff e.bondOutpoint = none → e.securityReserveSompi = 0) ↔
    ∀ tx ∈ accepted, ∀ ev bond, slashingEvidenceOf P tx = some ev →
      bondView.get ev.bondOutpoint = some bond → (effectiveBondStatus bond daa).isSlashable →
      compose view diff ev.bondOutpoint = none → params.reserveShare daa bond.amount = 0 := by
  constructor
  · intro h tx htx ev bond hev hbond hstatus hgone
    -- some effect concerns the same bond, and the share only depends on the bond
    have hkey : ev.bondOutpoint ∈ (slashingEffects P params window accepted bondView daa).map
        (·.bondOutpoint) := by
      rw [map_slashingEffects (g := (·.bondOutpoint)) fun r => by
        unfold withVictims
        split <;> rfl]
      refine mem_keys_firstBy.mpr ⟨not_mem_nil, mem_map.mpr ⟨_, mem_filterMap.mpr
        ⟨tx, htx, resolveEvidence_eq_some.mpr ⟨ev, bond, hev, hbond, hstatus, rfl⟩⟩, rfl⟩⟩
    obtain ⟨e, he, ho⟩ := mem_map.mp hkey
    obtain ⟨-, -, -, bond', -, hbond', -, -, -, -, hshare, -⟩ := mem_slashingEffects he
    rw [ho, hbond] at hbond'
    cases hbond'
    rw [← hshare]
    exact h e he (by rw [ho, hgone])
  · intro h e he hgone
    obtain ⟨tx, htx, ev, bond, hev, hbond, hstatus, ho, -, -, hshare, -⟩ := mem_slashingEffects he
    rw [ho] at hbond hgone
    exact hshare.trans (h tx htx ev bond hev hbond hstatus hgone)

def blockBurned (P : Primitives) (params : DnsParams) (window : SettlementInput)
    (accepted : List Transaction) (bondView : ActiveBondView) (view : UtxoView) (daa : ℕ)
    (diff : UtxoDiff) : ℕ :=
  if daa < params.dnsActivationDaaScore then 0
  else ((liveEffects view diff (slashingEffects P params window accepted bondView daa)).map
    (·.burned)).sum

theorem balance_iff (hbal : ∀ e ∈ effects, e.Balanced) (p : SlashingSideEffect → Bool)
    (hfit : ((effects.filter p).map (·.slashedAmountSompi)).sum < U64_MAX) :
    ((effects.filter p).map (·.minted)).sum +
        min (effects.map (·.securityReserveSompi)).sum U64_MAX +
        ((effects.filter p).map (·.burned)).sum =
      ((effects.filter p).map (·.slashedAmountSompi)).sum ↔
    ∀ e ∈ effects, p e = false → e.securityReserveSompi = 0 := by
  have hlive : ((effects.filter p).map (·.minted)).sum +
      ((effects.filter p).map (·.securityReserveSompi)).sum +
      ((effects.filter p).map (·.burned)).sum =
      ((effects.filter p).map (·.slashedAmountSompi)).sum := by
    rw [← sum_map_add, ← sum_map_add]
    exact congrArg List.sum (map_congr_left fun e he =>
      (hbal e (mem_of_mem_filter he)).balanced)
  have hsplit : (effects.map (·.securityReserveSompi)).sum =
      ((effects.filter p).map (·.securityReserveSompi)).sum +
      ((effects.filter fun e => !p e).map (·.securityReserveSompi)).sum := by
    rw [← sum_append, ← map_append]
    exact ((filter_append_perm p effects).map _).sum_eq.symm
  have hskipped : ((effects.filter fun e => !p e).map (·.securityReserveSompi)).sum = 0 ↔
      ∀ e ∈ effects, p e = false → e.securityReserveSompi = 0 := by
    rw [sum_eq_zero_iff]
    simp only [mem_map, mem_filter, Bool.not_eq_true', forall_exists_index, and_imp]
    exact ⟨fun h e he hp => h _ e he hp rfl, fun h x e he hp hx => hx ▸ h e he hp⟩
  rw [← hskipped, hsplit]
  omega

theorem liveEffects_value
    (hlock : ∀ e ∈ effects, ∀ entry, compose view diff e.bondOutpoint = some entry →
      entry.amount = e.slashedAmountSompi) :
    (liveEffects view diff effects).map (·.slashedAmountSompi) =
      ((effects.map (·.bondOutpoint)).filterMap (compose view diff)).map (·.amount) := by
  induction effects with
  | nil => rfl
  | cons e es ih =>
    rw [forall_mem_cons] at hlock
    have ih := ih hlock.2
    unfold liveEffects at ih ⊢
    cases hlive : compose view diff e.bondOutpoint with
    | none =>
      rw [filter_cons_of_neg (by simp [hlive]), ih, map_cons,
        filterMap_cons_none hlive]
    | some entry =>
      rw [filter_cons_of_pos (by simp [hlive]), map_cons, ih, map_cons,
        filterMap_cons_some hlive, map_cons, hlock.1 entry hlive]

/-- Slashing returns, and it conserves value exactly when no skipped effect has a reserve share:
minted outputs, reserve accrual and burn then add up to the bond outputs removed. -/
theorem slashing_conserves_iff (hids : (accepted.map P.transactionId).Nodup)
    (hfree : ∀ tx ∈ accepted, (slashingEvidenceOf P tx).isSome →
      ∀ i, s.mergesetDiff.add.lookup ⟨P.transactionId tx, i⟩ = none)
    (hbond : ∀ tx ∈ accepted, (slashingEvidenceOf P tx).isSome → ∀ o, (bondView.get o).isSome →
      o.transactionId ≠ P.transactionId tx)
    (hlock : ∀ o bond entry, bondView.get o = some bond →
      compose view s.mergesetDiff o = some entry → entry.amount = bond.amount)
    (hsupply : SupplyFits (compose view s.mergesetDiff)) :
    ∃ s' accrual minted removed,
      applySlashingSideEffects P (some params) window accepted bondView view daa s =
        .ok (s', accrual) ∧
      s'.multisetHash.added = s.multisetHash.added + minted ∧
      s'.multisetHash.removed = s.multisetHash.removed + removed ∧
      (entriesValue minted + accrual +
          blockBurned P params window accepted bondView view daa s.mergesetDiff =
        entriesValue removed ↔
      (params.dnsActivationDaaScore ≤ daa → ∀ tx ∈ accepted, ∀ ev bond,
        slashingEvidenceOf P tx = some ev → bondView.get ev.bondOutpoint = some bond →
        (effectiveBondStatus bond daa).isSlashable →
        compose view s.mergesetDiff ev.bondOutpoint = none →
        params.reserveShare daa bond.amount = 0)) := by
  unfold applySlashingSideEffects blockBurned
  dsimp only
  by_cases hact : daa < params.dnsActivationDaaScore
  · rw [if_pos hact, if_pos hact]
    refine ⟨s, 0, 0, 0, rfl, (add_zero _).symm, (add_zero _).symm, ?_⟩
    exact ⟨fun _ hle => absurd hle (by omega), fun _ => rfl⟩
  · rw [if_neg hact, if_neg hact]
    have hmint : ∀ e ∈ slashingEffects P params window accepted bondView daa, ∀ i,
        s.mergesetDiff.add.lookup ⟨e.slashingTxId, i⟩ = none := by
      intro e he i
      obtain ⟨tx, hmem, ev, -, hev, -, -, -, -, htx, -⟩ := mem_slashingEffects he
      rw [htx]
      exact hfree tx hmem (by simp [hev]) i
    have hvalue : ∀ e ∈ slashingEffects P params window accepted bondView daa, ∀ entry,
        compose view s.mergesetDiff e.bondOutpoint = some entry →
        entry.amount = e.slashedAmountSompi := by
      intro e he entry hentry
      obtain ⟨-, -, -, bond, -, hget, -, -, hamount, -⟩ := mem_slashingEffects he
      rw [hamount]
      exact hlock _ bond entry hget hentry
    have hsep : EffectsSeparate (slashingEffects P params window accepted bondView daa) :=
      effectsSeparate_slashingEffects hids hbond
    have hfit := hsupply _ hsep.bonds_nodup
    rw [← liveEffects_value hvalue] at hfit
    obtain ⟨s', touched, hs', hch⟩ := @applySlashingEffectsToState_ok view daa s _ hsep hmint hvalue
    obtain ⟨minted, hadded, hmintedValue⟩ := hch.added_eq
    obtain ⟨removed, hremoved, hremovedValue⟩ := hch.removed_eq
    refine ⟨s', _, minted, removed, bind_eq_ok.mpr ⟨s', hs', rfl⟩, hadded, hremoved, ?_⟩
    have hbal : ∀ e ∈ slashingEffects P params window accepted bondView daa, e.Balanced := by
      intro e he
      obtain ⟨-, -, -, -, -, -, -, -, -, -, -, h, -⟩ := mem_slashingEffects he
      exact h
    rw [satSum_eq, hmintedValue, hremovedValue, liveEffects, balance_iff hbal _ hfit]
    simp only [Option.isSome_eq_false_iff, Option.isNone_iff_eq_none]
    rw [reserve_skipped_iff]
    exact ⟨fun h _ => h, fun h => h (Nat.le_of_not_lt hact)⟩

def slashingParams : DnsParams :=
  { (default : DnsParams) with
    evidenceWindowBlocks := 20
    rewardParams := { (default : RewardParams) with
      slashingReporterRewardBps := 1000
      securityReserveBps := 3000 } }

def unbondingBond : StakeBondRecord :=
  { (default : StakeBondRecord) with
    bondOutpoint := ⟨1, 0⟩
    validatorPubkeyHash := 7
    validatorPubkey := List.replicate STAKE_VALIDATOR_PUBKEY_LEN 7
    amount := 100
    unbondRequestDaaScore := some 10 }

def unbondingView : ActiveBondView := ⟨Finmap.singleton ⟨1, 0⟩ unbondingBond⟩

def emptyWindow : SettlementInput := ⟨50, 49, [], []⟩

def freshState : UtxoState := ⟨⟨∅, ∅⟩, .empty⟩

theorem slashing_accrues_for_spent_bond :
    checkSlashingEvidenceGenuine samplePrimitives (some slashingParams) 0
      [sampleEvidenceTx 3 7 7 1 40] unbondingView 50 = .ok () ∧
    applySlashingSideEffects samplePrimitives (some slashingParams) emptyWindow
      [sampleEvidenceTx 3 7 7 1 40] unbondingView (fun _ => none) 50 freshState =
        .ok (freshState, 30) ∧
    blockBurned samplePrimitives slashingParams emptyWindow [sampleEvidenceTx 3 7 7 1 40]
      unbondingView (fun _ => none) 50 freshState.mergesetDiff = 0 :=
  ⟨by decide +kernel, rfl, rfl⟩

def stakedView : UtxoView := fun o => if o = ⟨1, 0⟩ then some ⟨100, ⟨0, []⟩, 5, false⟩ else none

theorem slashing_conserves_iff_live_bond :
    ∃ s' accrual minted removed,
      applySlashingSideEffects samplePrimitives (some slashingParams) emptyWindow
        [sampleEvidenceTx 3 7 7 1 40] unbondingView stakedView 50 freshState =
          .ok (s', accrual) ∧
      s'.multisetHash.added = freshState.multisetHash.added + minted ∧
      s'.multisetHash.removed = freshState.multisetHash.removed + removed ∧
      entriesValue minted + accrual + blockBurned samplePrimitives slashingParams emptyWindow
        [sampleEvidenceTx 3 7 7 1 40] unbondingView stakedView 50 freshState.mergesetDiff =
      entriesValue removed := by
  have hget {o : TransactionOutpoint} {bond : StakeBondRecord}
      (h : unbondingView.get o = some bond) : o = ⟨1, 0⟩ ∧ bond = unbondingBond := by
    by_cases ho : o = ⟨1, 0⟩
    · subst ho
      exact ⟨rfl, (Option.some.inj h).symm⟩
    · have hnone : unbondingView.get o = none :=
        Finmap.lookup_eq_none.mpr fun hmem => ho ((Finmap.mem_singleton _ _ _).mp hmem)
      rw [hnone] at h
      cases h
  obtain ⟨s', accrual, minted, removed, hrun, hadd, hrem, hiff⟩ :=
    @slashing_conserves_iff samplePrimitives slashingParams emptyWindow
      [sampleEvidenceTx 3 7 7 1 40] unbondingView stakedView 50 freshState (by simp)
      (fun _ _ _ _ => rfl)
      (by
        intro tx htx _ o ho
        obtain ⟨bond, hbond⟩ := Option.isSome_iff_exists.mp ho
        rw [(hget hbond).1, mem_singleton.mp htx]
        decide)
      (by
        intro o bond entry hbond hentry
        obtain ⟨rfl, rfl⟩ := hget hbond
        cases hentry
        rfl)
      (@supplyFits_of_single _ ⟨1, 0⟩ _ rfl
        (fun o ho => by simp [freshState, stakedView, compose, ho]) (by decide))
  refine ⟨s', accrual, minted, removed, hrun, hadd, hrem, hiff.mpr ?_⟩
  intro _ tx htx ev bond hev hbond _ hgone
  obtain ⟨ho, -⟩ := hget hbond
  rw [ho] at hgone
  cases hgone
end Balance

end Misaka.Dns
