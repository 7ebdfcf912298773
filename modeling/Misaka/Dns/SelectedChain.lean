import Misaka.Core.Run
import Misaka.Dns.Authorization

/-!
# The bond registry along a selected chain

A chain block is checked on its own body, but it mutates the registry by what it accepts: the body
of its selected parent and of every other block it merges. `ValidChain` is what the validity rules
guarantee about such a chain.
-/

namespace Misaka.Dns

open Misaka.Core List Finmap Table

structure MergedBody where
  body : List Transaction
  accepted : List Transaction

/-- A selected-chain block: its own body, what it accepts out of its selected parent's body, and
the other blocks of its mergeset. -/
structure ChainBlock where
  hash : BlockHash
  daaScore : ℕ
  body : List Transaction
  fromSelectedParent : List Transaction
  merged : List MergedBody

namespace ChainBlock

def accepted (b : ChainBlock) : List Transaction :=
  b.fromSelectedParent ++ b.merged.flatMap (·.accepted)

variable (P : Primitives) (params : DnsParams)

def mutations (b : ChainBlock) : MutationBlock :=
  AcceptedBlock.mutations P params.minBondAmountSompi params.unbondingPeriodBlocks
    ⟨b.hash, b.daaScore, b.accepted⟩

def stampTargets (kind : StampKind) (b : ChainBlock) : List TransactionOutpoint :=
  b.accepted.filterMap (stampTarget P kind)

end ChainBlock

variable (P : Primitives) (params : DnsParams) (genesisHash : BlockHash)

def viewAfter (chain : List ChainBlock) : ActiveBondView :=
  chain.foldl (fun view b => view.apply (b.mutations P params).2) .new

def tipDaaScore (chain : List ChainBlock) : ℕ := (chain.getLast?.map (·.daaScore)).getD 0

def tipBody (chain : List ChainBlock) : List Transaction := (chain.getLast?.map (·.body)).getD []

def tipTargets (kind : StampKind) (chain : List ChainBlock) : List TransactionOutpoint :=
  (chain.getLast?.map (·.stampTargets P kind)).getD []

@[mk_iff]
structure ValidBlock (chain : List ChainBlock) (b : ChainBlock) : Prop where
  daaScore_le : tipDaaScore chain ≤ b.daaScore
  /-- Out of the selected parent only its body is accepted. -/
  fromSelectedParent_sublist : b.fromSelectedParent.Sublist (tipBody chain)
  merged_sublist : ∀ m ∈ b.merged, m.accepted.Sublist m.body
  /-- Accepting a transaction spends its inputs, so it happens once. -/
  accepted_once : ((chain ++ [b]).flatMap fun c => c.accepted.map P.transactionId).Nodup
  body_stateless : ∀ tx ∈ b.body, validateDnsOverlayTx P tx = .ok ()
  merged_stateless : ∀ m ∈ b.merged, ∀ tx ∈ m.body, validateDnsOverlayTx P tx = .ok ()
  slashing_ok : checkSlashingEvidenceGenuine P (some params) genesisHash b.body
    (viewAfter P params chain) b.daaScore = .ok ()
  unbond_ok : checkUnbondRequestAuthorized P (some params) genesisHash b.body
    (viewAfter P params chain) b.daaScore = .ok ()

inductive ValidChain : List ChainBlock → Prop
  | nil : ValidChain []
  | snoc {chain : List ChainBlock} {b : ChainBlock} : ValidChain chain →
      ValidBlock P params genesisHash chain b → ValidChain (chain ++ [b])

/-- What the validity rules leave open: the stamps asked for by merged bodies are authorized at the
accepting block, and those accepted from the selected parent's body were checked there and are not
also written by the parent itself. -/
structure AcceptsAuthorized (chain : List ChainBlock) (b : ChainBlock) : Prop where
  merged : ∀ m ∈ b.merged, ∀ tx ∈ m.accepted, ∀ kind,
    stampAuthorized P genesisHash params (viewAfter P params chain) b.daaScore kind tx
  parent : ∀ tx ∈ b.fromSelectedParent, ∀ kind o, stampTarget P kind tx = some o →
    params.dnsActivationDaaScore ≤ tipDaaScore chain ∧ o ∉ tipTargets P kind chain

/-- A list of mutations applies when it inserts new rows and stamps existing unstamped rows, each
at most once. -/
structure Applicable (r : BondRegistry) (ms : List BondMutation) : Prop where
  insert_nodup : (ms.filterMap BondMutation.inserted).Nodup
  insert_fresh : ∀ o ∈ ms.filterMap BondMutation.inserted, r.lookup o = none
  stamp_nodup : ∀ kind, ((ms.filterMap (BondMutation.stamped kind)).map Prod.fst).Nodup
  stamp_free : ∀ kind, ∀ o ∈ (ms.filterMap (BondMutation.stamped kind)).map Prod.fst,
    ∃ rec, r.lookup o = some rec ∧ rec.stamp kind = none

variable {kind : StampKind} {rec : StakeBondRecord}

section Apply

variable {blk : BlockHash} {r r' : BondRegistry} {m : BondMutation} {ms : List BondMutation}
  {o : TransactionOutpoint}

theorem applyMutation_lookup_none (h : applyMutation blk r m = .ok r')
    (hm : m.inserted ≠ some o) (ho : r.lookup o = none) : r'.lookup o = none := by
  cases m with
  | insert o' rec =>
    obtain ⟨-, rfl⟩ := applyInsert_eq_ok.mp h
    rw [lookup_insert_of_ne r fun heq => hm (congrArg some heq.symm), ho]
  | slash o' d | unbond o' d =>
    obtain ⟨⟨rec, hrec, -⟩, rfl⟩ := applyStamp_eq_ok.mp h
    have hne : o ≠ o' := by
      rintro rfl
      simp [ho] at hrec
    rw [lookup_adjust_of_ne r _ hne, ho]

theorem applyStamp_stamp {kind' : StampKind} {o' : TransactionOutpoint} {d : ℕ}
    (h : applyStamp kind' blk o' d r = .ok r') (hne : ¬(kind = kind' ∧ o = o'))
    (ho : r.lookup o = some rec) :
    ∃ rec', r'.lookup o = some rec' ∧ rec'.stamp kind = rec.stamp kind := by
  obtain ⟨-, rfl⟩ := applyStamp_eq_ok.mp h
  by_cases hoo : o = o'
  · refine ⟨rec.setStamp kind' (some d) d, ?_,
      stamp_setStamp_of_ne rec (fun hk => hne ⟨hk, hoo⟩) _ _⟩
    rw [lookup_adjust_eq, if_pos hoo, ← hoo, ho, Option.map_some]
  · exact ⟨rec, by rw [lookup_adjust_of_ne r _ hoo, ho], rfl⟩

theorem applyMutation_stamp (h : applyMutation blk r m = .ok r')
    (hm : (m.stamped kind).map Prod.fst ≠ some o) (ho : r.lookup o = some rec) :
    ∃ rec', r'.lookup o = some rec' ∧ rec'.stamp kind = rec.stamp kind := by
  cases m with
  | insert o' rec' =>
    obtain ⟨hnone, rfl⟩ := applyInsert_eq_ok.mp h
    have hne : o ≠ o' := by
      rintro rfl
      simp [ho] at hnone
    exact ⟨rec, by rw [lookup_insert_of_ne r hne, ho], rfl⟩
  | slash o' d | unbond o' d =>
    refine applyStamp_stamp h ?_ ho
    rintro ⟨rfl, rfl⟩
    exact hm rfl

theorem Applicable.head (h : Applicable r (m :: ms)) :
    ∃ r', applyMutation blk r m = .ok r' ∧ Applicable r' ms := by
  -- once the head goes through, rows and stamps of the other mutations are where they were
  have hsub := sublist_cons_self m ms
  have htail {q : BondRegistry} (hq : applyMutation blk r m = .ok q) : Applicable q ms := by
    refine ⟨h.insert_nodup.sublist (hsub.filterMap _), fun o ho => ?_,
      fun kind => (h.stamp_nodup kind).sublist ((hsub.filterMap _).map _), fun kind o ho => ?_⟩
    · refine applyMutation_lookup_none hq (fun heq => ?_)
        (h.insert_fresh o ((hsub.filterMap _).subset ho))
      have hnd := h.insert_nodup
      rw [filterMap_cons, heq] at hnd
      exact (nodup_cons.mp hnd).1 ho
    · obtain ⟨rec, hrec, hnone⟩ := h.stamp_free kind o (((hsub.filterMap _).map _).subset ho)
      have hne : (m.stamped kind).map Prod.fst ≠ some o := by
        intro heq
        obtain ⟨e, he, rfl⟩ := Option.map_eq_some_iff.mp heq
        have hnd := h.stamp_nodup kind
        rw [filterMap_cons, he] at hnd
        exact (nodup_cons.mp hnd).1 ho
      obtain ⟨rec', hrec', hstamp⟩ := applyMutation_stamp hq hne hrec
      exact ⟨rec', hrec', hstamp.trans hnone⟩
  suffices ∃ q, applyMutation blk r m = .ok q from this.imp fun q hq => ⟨hq, htail hq⟩
  cases m with
  | insert o rec =>
    exact ⟨_, applyInsert_eq_ok.mpr ⟨h.insert_fresh o (by simp [BondMutation.inserted]), rfl⟩⟩
  | slash o d | unbond o d =>
    exact ⟨_, applyStamp_eq_ok.mpr ⟨h.stamp_free _ o (by simp [BondMutation.stamped]), rfl⟩⟩

theorem Applicable.attach (h : Applicable r ms) : ∃ r', attachBlock r (blk, ms) = .ok r' := by
  induction ms generalizing r with
  | nil => exact ⟨r, rfl⟩
  | cons m ms ih =>
    obtain ⟨q, hq, hms⟩ := @Applicable.head blk _ _ _ h
    obtain ⟨r', hr'⟩ := ih hms
    exact ⟨r', foldlM_cons_eq_ok.mpr ⟨q, hq, hr'⟩⟩

theorem attachBlock_lookup_none (h : attachBlock r (blk, ms) = .ok r')
    (hms : o ∉ ms.filterMap BondMutation.inserted) (ho : r.lookup o = none) :
    r'.lookup o = none := by
  refine foldlM_induction (I := fun q => q.lookup o = none) ?_ ho h
  intro q m q' hm hq hq'
  exact applyMutation_lookup_none hq' (fun heq => hms (mem_filterMap.mpr ⟨m, hm, heq⟩)) hq

theorem attachBlock_stamp (h : attachBlock r (blk, ms) = .ok r')
    (hms : o ∉ (ms.filterMap (BondMutation.stamped kind)).map Prod.fst)
    (ho : r.lookup o = some rec) :
    ∃ rec', r'.lookup o = some rec' ∧ rec'.stamp kind = rec.stamp kind := by
  refine foldlM_induction
    (I := fun q => ∃ rec', q.lookup o = some rec' ∧ rec'.stamp kind = rec.stamp kind)
    ?_ ⟨rec, ho, rfl⟩ h
  rintro q m q' hm ⟨rec', hrec', hstamp⟩ hq'
  have hne : (m.stamped kind).map Prod.fst ≠ some o := by
    intro heq
    obtain ⟨e, he, rfl⟩ := Option.map_eq_some_iff.mp heq
    exact hms (mem_map.mpr ⟨e, mem_filterMap.mpr ⟨m, hm, he⟩, rfl⟩)
  obtain ⟨rec'', hrec'', hstamp'⟩ := applyMutation_stamp hq' hne hrec'
  exact ⟨rec'', hrec'', hstamp'.trans hstamp⟩

end Apply

def BondRegistry.StampsLe (r : BondRegistry) (daa : ℕ) : Prop :=
  ∀ o rec kind d, r.lookup o = some rec → rec.stamp kind = some d → d ≤ daa

variable {P params genesisHash}

variable {minBond : ℕ} {tx : Transaction}

theorem stampsLe_applyMutation {blk : BlockHash} {r r' : BondRegistry} {daa floor : ℕ}
    {txs : List Transaction} {m : BondMutation}
    (hm : m ∈ bondMutationsFromAcceptedTxs P txs daa minBond floor) (hr : r.StampsLe daa)
    (h : applyMutation blk r m = .ok r') : r'.StampsLe daa := by
  have hstamp (k : StampKind) (o' : TransactionOutpoint) :
      BondRegistry.StampsLe (r.adjust o' (·.setStamp k (some daa) daa)) daa := by
    intro o rec kind d ho hd
    rw [lookup_adjust_eq] at ho
    split at ho
    · obtain ⟨rec', hrec', rfl⟩ := Option.map_eq_some_iff.mp ho
      by_cases hk : kind = k
      · subst hk
        rw [stamp_setStamp] at hd
        exact (Option.some.inj hd).ge
      · rw [stamp_setStamp_of_ne rec' hk] at hd
        exact hr o' rec' kind d hrec' hd
    · exact hr o rec kind d ho hd
  obtain ⟨tx, sS, sU, hof⟩ := exists_of_mem_bondMutationsLoop hm
  obtain ⟨payload, rfl⟩ | ⟨o, rfl⟩ | ⟨o, rfl⟩ := bondMutationOf_cases m hof
  · obtain ⟨-, rfl⟩ := applyInsert_eq_ok.mp h
    intro o rec kind d ho hd
    rw [lookup_insert_eq] at ho
    split at ho
    · -- a new row carries no stamp
      cases ho
      cases kind <;> cases hd
    · exact hr o rec kind d ho hd
  · obtain ⟨-, rfl⟩ := applyStamp_eq_ok.mp h
    exact hstamp .slash o
  · obtain ⟨-, rfl⟩ := applyStamp_eq_ok.mp h
    exact hstamp .unbond o

def insertTargets (P : Primitives) (params : DnsParams) (chain : List ChainBlock) :
    List TransactionOutpoint :=
  (chain.flatMap (·.accepted)).filterMap (insertTarget P params.minBondAmountSompi)

theorem transactionId_of_insertTarget {o : TransactionOutpoint}
    (h : insertTarget P minBond tx = some o) : o.transactionId = P.transactionId tx := by
  unfold insertTarget at h
  split at h
  · cases h
  · split at h
    · cases h
    · rw [← Option.some.inj h]

theorem ValidBlock.insertTargets_nodup {chain : List ChainBlock} {b : ChainBlock}
    (h : ValidBlock P params genesisHash chain b) :
    (insertTargets P params (chain ++ [b])).Nodup := by
  refine List.Nodup.of_map (·.transactionId) (List.Nodup.sublist
    (map_filterMap_sublist (fun _ _ => transactionId_of_insertTarget) _) ?_)
  rw [map_flatMap]
  exact h.accepted_once

theorem inserted_mutations (b : ChainBlock) :
    (b.mutations P params).2.filterMap BondMutation.inserted =
      b.accepted.filterMap (insertTarget P params.minBondAmountSompi) :=
  inserted_bondMutationsLoop b.accepted

theorem stamped_mutations (kind : StampKind) (b : ChainBlock) :
    ((b.mutations P params).2.filterMap (BondMutation.stamped kind)).map Prod.fst =
      firstBy id [] (b.stampTargets P kind) := by
  have h := @stamped_bondMutationsLoop P b.daaScore params.minBondAmountSompi
    params.unbondingPeriodBlocks [] [] kind b.accepted
  have hseen : seenBonds [] [] kind = [] := by cases kind <;> rfl
  rw [hseen] at h
  rw [ChainBlock.mutations, AcceptedBlock.mutations, bondMutationsFromAcceptedTxs, h, map_map]
  exact map_id _

structure RegistryInvariant (P : Primitives) (params : DnsParams) (chain : List ChainBlock)
    (r : BondRegistry) : Prop where
  attached : (chain.map (·.mutations P params)).foldlM attachBlock ∅ = .ok r
  /-- The in-memory view agrees. -/
  view_eq : r.stamps = (viewAfter P params chain).bonds.stamps
  stamps_le : r.StampsLe (tipDaaScore chain)
  rows_inserted : ∀ o rec, r.lookup o = some rec → o ∈ insertTargets P params chain
  /-- What the tip's own body asks to stamp is still unstamped, unless the tip stamps it. -/
  body_free : params.dnsActivationDaaScore ≤ tipDaaScore chain → ∀ tx ∈ tipBody chain,
    ∀ kind o, stampTarget P kind tx = some o → o ∉ tipTargets P kind chain →
    ∃ rec, r.lookup o = some rec ∧ rec.stamp kind = none

theorem registryInvariant_nil : RegistryInvariant P params [] ∅ where
  attached := rfl
  view_eq := rfl
  stamps_le := fun _ _ _ _ ho => nomatch ho
  rows_inserted := fun _ _ ho => nomatch ho
  body_free := nofun

section Step

variable {chain : List ChainBlock} {b : ChainBlock} {r : BondRegistry}

@[simp] theorem tipDaaScore_snoc : tipDaaScore (chain ++ [b]) = b.daaScore := by
  simp [tipDaaScore]

@[simp] theorem tipBody_snoc : tipBody (chain ++ [b]) = b.body := by
  simp [tipBody]

@[simp] theorem tipTargets_snoc (kind : StampKind) :
    tipTargets P kind (chain ++ [b]) = b.stampTargets P kind := by
  simp [tipTargets]

theorem viewAfter_snoc : viewAfter P params (chain ++ [b]) =
    (viewAfter P params chain).apply (b.mutations P params).2 := by
  simp [viewAfter]

theorem RegistryInvariant.free_of_stampAuthorized (inv : RegistryInvariant P params chain r)
    {daa : ℕ} (hdaa : tipDaaScore chain ≤ daa) {o : TransactionOutpoint}
    (hauth : stampAuthorized P genesisHash params (viewAfter P params chain) daa kind tx)
    (ho : stampTarget P kind tx = some o) :
    ∃ rec, r.lookup o = some rec ∧ rec.stamp kind = none := by
  obtain ⟨bond, hbond, hlater⟩ := exists_bond_of_stampAuthorized hauth ho
  obtain ⟨rec, hrec, hstamps⟩ := lookup_some_of_stamps_eq inv.view_eq.symm hbond
  refine ⟨rec, hrec, ?_⟩
  cases hd : rec.stamp kind with
  | none => rfl
  | some d =>
    -- the stamp is in the past of the tip, where the rule would have seen it
    have hle := inv.stamps_le o rec kind d hrec hd
    have hbd : bond.stamp kind = some d := by
      rw [← stamp_stamps, ← hstamps, stamp_stamps, hd]
    exact absurd (hlater d hbd) (by omega)

theorem ValidBlock.stampAuthorized_of_mem (h : ValidBlock P params genesisHash chain b)
    (hact : params.dnsActivationDaaScore ≤ b.daaScore) (htx : tx ∈ b.body) (kind : StampKind) :
    stampAuthorized P genesisHash params (viewAfter P params chain) b.daaScore kind tx := by
  cases kind with
  | slash => exact (checkSlashingEvidenceGenuine_eq_ok hact).mp h.slashing_ok tx htx
  | unbond => exact (checkUnbondRequestAuthorized_eq_ok hact).mp h.unbond_ok tx htx

section Invariant

variable (inv : RegistryInvariant P params chain r) (hb : ValidBlock P params genesisHash chain b)
  (hacc : AcceptsAuthorized P params genesisHash chain b)

include inv hb hacc

theorem RegistryInvariant.free_of_mem_stampTargets {o : TransactionOutpoint}
    (ho : o ∈ b.stampTargets P kind) : ∃ rec, r.lookup o = some rec ∧ rec.stamp kind = none := by
  obtain ⟨tx, htx, htarget⟩ := mem_filterMap.mp ho
  rcases mem_append.mp htx with hparent | hmerged
  · -- checked in the parent's body one block earlier
    obtain ⟨hact, hfresh⟩ := hacc.parent tx hparent kind o htarget
    exact inv.body_free hact tx (hb.fromSelectedParent_sublist.subset hparent) kind o htarget hfresh
  · obtain ⟨m, hm, hmem⟩ := mem_flatMap.mp hmerged
    exact inv.free_of_stampAuthorized hb.daaScore_le (hacc.merged m hm tx hmem kind) htarget

theorem RegistryInvariant.applicable : Applicable r (b.mutations P params).2 := by
  have hnodup := hb.insertTargets_nodup
  rw [insertTargets, flatMap_append, filterMap_append, flatMap_singleton] at hnodup
  obtain ⟨-, hnew, hdisj⟩ := nodup_append.mp hnodup
  refine ⟨?_, ?_, ?_, ?_⟩
  · rwa [inserted_mutations]
  · intro o ho
    rw [inserted_mutations] at ho
    exact Option.eq_none_iff_forall_ne_some.mpr fun rec hrec =>
      hdisj o (inv.rows_inserted o rec hrec) o ho rfl
  · intro kind
    rw [stamped_mutations]
    simpa using nodup_keys_firstBy id [] (b.stampTargets P kind)
  · intro kind o ho
    rw [stamped_mutations] at ho
    exact inv.free_of_mem_stampTargets hb hacc ((firstBy_sublist id [] _).subset ho)

theorem RegistryInvariant.snoc : ∃ r', RegistryInvariant P params (chain ++ [b]) r' := by
  obtain ⟨r', hr'⟩ := @Applicable.attach b.hash _ _ (inv.applicable hb hacc)
  refine ⟨r', ⟨?_, ?_, ?_, ?_, ?_⟩⟩
  · rw [map_append]
    exact foldlM_append_eq_ok.mpr ⟨r, inv.attached, foldlM_cons_eq_ok.mpr ⟨r', hr', rfl⟩⟩
  · rw [viewAfter_snoc]
    exact apply_of_attachBlock inv.view_eq hr'
  · rw [tipDaaScore_snoc]
    refine foldlM_induction (I := (BondRegistry.StampsLe · b.daaScore)) ?_ ?_ hr'
    · intro q m q' hm hq hq'
      exact stampsLe_applyMutation hm hq hq'
    · intro o rec kind d ho hd
      exact (inv.stamps_le o rec kind d ho hd).trans hb.daaScore_le
  · intro o rec ho
    rw [insertTargets, flatMap_append, filterMap_append, mem_append,
      flatMap_singleton]
    by_contra hout
    obtain ⟨hold, hnew⟩ := not_or.mp hout
    have hnone : r.lookup o = none := Option.eq_none_iff_forall_ne_some.mpr fun rec' hrec' =>
      hold (inv.rows_inserted o rec' hrec')
    rw [← inserted_mutations] at hnew
    rw [attachBlock_lookup_none hr' hnew hnone] at ho
    cases ho
  · intro hact tx htx kind o htarget hfresh
    rw [tipDaaScore_snoc] at hact
    rw [tipBody_snoc] at htx
    rw [tipTargets_snoc] at hfresh
    obtain ⟨rec, hrec, hnone⟩ := inv.free_of_stampAuthorized hb.daaScore_le
      (hb.stampAuthorized_of_mem hact htx kind) htarget
    have hkeep : o ∉ ((b.mutations P params).2.filterMap (BondMutation.stamped kind)).map
        Prod.fst := by
      rw [stamped_mutations]
      exact fun hmem => hfresh ((firstBy_sublist id [] _).subset hmem)
    obtain ⟨rec', hrec', hstamp⟩ := attachBlock_stamp hr' hkeep hrec
    exact ⟨rec', hrec', hstamp.trans hnone⟩

end Invariant

end Step

def AlwaysAuthorized (P : Primitives) (params : DnsParams) (genesisHash : BlockHash)
    (chain : List ChainBlock) : Prop :=
  ∀ past b, past ++ [b] <+: chain → AcceptsAuthorized P params genesisHash past b

/-- No fail-stop: along a valid chain whose blocks accept only authorized stamps, the registry
reconciles without error. -/
theorem reconcile_ok_of_alwaysAuthorized {chain : List ChainBlock}
    (hchain : ValidChain P params genesisHash chain)
    (hauth : AlwaysAuthorized P params genesisHash chain) :
    ∃ r touched,
      reconcileDnsBondRegistry ∅ [] (chain.map (·.mutations P params)) = .ok (r, touched) := by
  have hinv : ∃ r, RegistryInvariant P params chain r := by
    induction hchain with
    | nil => exact ⟨∅, registryInvariant_nil⟩
    | @snoc chain b _ hb ih =>
      obtain ⟨r, inv⟩ := ih fun past c hpast => hauth past c (hpast.trans (prefix_append _ _))
      exact inv.snoc hb (hauth chain b (prefix_rfl))
  obtain ⟨r, inv⟩ := hinv
  exact ⟨r, _, reconcile_eq_ok.mpr ⟨⟨∅, rfl, inv.attached⟩, rfl⟩⟩

theorem AlwaysAuthorized.nil : AlwaysAuthorized P params genesisHash [] := by
  intro past b h
  simp at h

theorem AlwaysAuthorized.snoc {chain : List ChainBlock} {b : ChainBlock}
    (hchain : AlwaysAuthorized P params genesisHash chain)
    (hb : AcceptsAuthorized P params genesisHash chain b) :
    AlwaysAuthorized P params genesisHash (chain ++ [b]) := by
  intro past c h
  rcases prefix_concat_iff.mp h with heq | hpre
  · obtain ⟨rfl, hc⟩ := append_inj' heq rfl
    obtain rfl : c = b := by simpa using hc
    exact hb
  · exact hchain past c hpre

instance {chain : List ChainBlock} {b : ChainBlock} :
    Decidable (ValidBlock P params genesisHash chain b) :=
  decidable_of_iff' _ (validBlock_iff P params genesisHash chain b)

/-- A listed chain is valid if each block is valid over those listed before it. -/
theorem ValidChain.of_stepsMeet {blocks : List ChainBlock}
    (h : StepsMeet (fun chain b => chain ++ [b]) (ValidBlock P params genesisHash) [] blocks) :
    ValidChain P params genesisHash blocks := by
  have hvalid := h.invariant (I := ValidChain P params genesisHash) (fun _ _ => .snoc) .nil
  simpa [← flatMap_def] using hvalid

def sampleParams : DnsParams := { (default : DnsParams) with evidenceWindowBlocks := 10 }

def equivocationChain : List ChainBlock :=
  [⟨1, 1, [sampleBondTx 1 7 100], [], []⟩,
    ⟨2, 2, [], [sampleBondTx 1 7 100], []⟩,
    ⟨3, 3, [sampleEvidenceTx 3 7 7 1 2], [], []⟩,
    ⟨4, 4, [sampleEvidenceTx 4 7 7 1 2], [sampleEvidenceTx 3 7 7 1 2], []⟩]

def replayBlock : ChainBlock := ⟨5, 5, [], [sampleEvidenceTx 4 7 7 1 2], []⟩

/-- Both evidences pass the rules of the blocks that carry them, and accepting the second one stops
the node. -/
theorem reconcile_error_of_replayed_evidence :
    ValidChain samplePrimitives sampleParams 0 (equivocationChain ++ [replayBlock]) ∧
    reconcileDnsBondRegistry ∅ []
        ((equivocationChain ++ [replayBlock]).map (·.mutations samplePrimitives sampleParams)) =
      .error (.applyStampTwice .slash ⟨1, 0⟩ 5 4) :=
  ⟨.of_stepsMeet (by decide +kernel), rfl⟩

/-- Without the replay every block meets the condition. -/
theorem reconcile_ok_of_alwaysAuthorized_one_evidence :
    ∃ r touched,
      reconcileDnsBondRegistry ∅ []
        (equivocationChain.map (·.mutations samplePrimitives sampleParams)) = .ok (r, touched) := by
  have hnone (chain : List ChainBlock) (b : ChainBlock) (hb : b.merged = [])
      (hp : ∀ tx ∈ b.fromSelectedParent, ∀ kind o, stampTarget samplePrimitives kind tx = some o →
        o ∉ tipTargets samplePrimitives kind chain) :
      AcceptsAuthorized samplePrimitives sampleParams 0 chain b :=
    ⟨by simp [hb], fun tx htx kind o ho => ⟨Nat.zero_le _, hp tx htx kind o ho⟩⟩
  have hauth : AlwaysAuthorized samplePrimitives sampleParams 0 equivocationChain := by
    refine .snoc (.snoc (.snoc (.snoc .nil ?_) ?_) ?_) ?_
    · exact hnone _ _ rfl (by simp)
    · refine hnone _ _ rfl fun tx htx kind o ho => ?_
      cases kind <;> exact not_mem_nil
    · exact hnone _ _ rfl (by simp)
    · refine hnone _ _ rfl fun tx htx kind o ho => ?_
      cases kind <;> exact not_mem_nil
  exact reconcile_ok_of_alwaysAuthorized (.of_stepsMeet (by decide +kernel)) hauth

end Misaka.Dns
