import Misaka.Ghostdag.ComponentWork

/-!
# Single use of PALW tickets

A replica-lane block spends a ticket, named by its nullifier. Coloring makes a merged block red when
its nullifier is in the window kept for the selected parent, and the window forgets a nullifier once
it is older than the retention.
-/

namespace Misaka.Ghostdag

open Misaka.Core List

/-! ## Lookups in the window -/

def BlockHeader.spendsAt (h : BlockHeader) (nullifier : Hash64) : Option ℕ :=
  if h.powAlgoId = POW_ALGO_ID_PALW_REPLICA ∧ h.palwTicketNullifier = nullifier then
    some h.daaScore
  else none

namespace PalwActiveNullifierSet

variable (s : PalwActiveNullifierSet) (nullifier key : Hash64)

theorem contains_eq : s.contains key = (s.seen.lookup key).isSome := rfl

theorem lookup_insert (daa : ℕ) : (s.insert nullifier daa).1.seen.lookup key =
    (s.seen.lookup key).or (if nullifier = key then some daa else none) := by
  unfold insert
  split
  · next hcontains =>
    cases hkey : s.seen.lookup key with
    | some d => rw [Option.some_or]
    | none =>
      rw [Option.none_or, if_neg]
      rintro rfl
      rw [contains_eq, hkey] at hcontains
      cases hcontains
  · next hcontains =>
    by_cases heq : nullifier = key
    · subst heq
      rw [contains_eq, Bool.not_eq_true, Option.isSome_eq_false_iff, Option.isNone_iff_eq_none]
        at hcontains
      simp [hcontains]
    · simp [AList.lookup_insert_ne (Ne.symm heq), heq]

theorem lookup_insertTicket (header : BlockHeader) :
    (s.insertTicket header).seen.lookup key =
      (s.seen.lookup key).or (header.spendsAt key) := by
  unfold insertTicket BlockHeader.palwTicket BlockHeader.spendsAt
  by_cases halgo : header.powAlgoId = POW_ALGO_ID_PALW_REPLICA
  · simp only [halgo, if_true, true_and]
    exact s.lookup_insert _ _ _
  · simp [halgo]

theorem lookup_foldl_insertTicket (blocks : List BlockEntry) :
    (blocks.foldl (fun s e => s.insertTicket e.header) s).seen.lookup key =
      (s.seen.lookup key).or (blocks.findSome? fun e => e.header.spendsAt key) := by
  induction blocks generalizing s with
  | nil => simp
  | cons e blocks ih =>
    rw [foldl_cons, ih, lookup_insertTicket, List.findSome?_cons, Option.or_assoc]
    cases e.header.spendsAt key <;> rfl

theorem lookup_foldl_insert (entries : List (Σ _ : Hash64, ℕ)) :
    (entries.foldl (fun s entry => (s.insert entry.1 entry.2).1) s).seen.lookup key =
      (s.seen.lookup key).or (entries.dlookup key) := by
  induction entries generalizing s with
  | nil => simp
  | cons entry entries ih =>
    obtain ⟨k, d⟩ := entry
    rw [foldl_cons, ih, lookup_insert, Option.or_assoc]
    by_cases heq : k = key
    · subst heq
      simp
    · simp [heq, dlookup_cons_ne entries ⟨k, d⟩ (Ne.symm heq)]

theorem lookup_new_mergeFrom : (new.mergeFrom s).seen.lookup key = s.seen.lookup key := by
  rw [mergeFrom, lookup_foldl_insert]
  rfl

theorem lookup_pruneBelow_eq_some {floor d : ℕ} :
    (s.pruneBelow floor).seen.lookup key = some d ↔ s.seen.lookup key = some d ∧ floor ≤ d := by
  have hmem (t : AList fun _ : Hash64 => ℕ) : t.lookup key = some d ↔ ⟨key, d⟩ ∈ t.entries :=
    AList.mem_lookup_iff
  rw [hmem, hmem]
  simp [pruneBelow]

end PalwActiveNullifierSet

/-! ## Tickets of one coloring -/

variable {daa : ℕ} {x y : BlockEntry} {m : GhostdagManager} {data : GhostdagData}

theorem BlockHeader.palwTicket_of_spendsAt {h : BlockHeader} {nullifier : Hash64}
    (hspends : h.spendsAt nullifier = some daa) : h.palwTicket = some (nullifier, daa) := by
  obtain ⟨⟨halgo, rfl⟩, hdaa⟩ := Option.ite_none_right_eq_some.mp hspends
  cases hdaa
  exact if_pos halgo

def DistinctTickets (blocks : List BlockEntry) : Prop :=
  blocks.Pairwise fun x y => ∀ nullifier, x.header.spendsAt nullifier ≠ none →
    y.header.spendsAt nullifier = none

variable {blocks sources : List BlockEntry} {e : BlockEntry} {b : BlockInput}

theorem DistinctTickets.findSome?_eq (h : DistinctTickets blocks) (hx : x ∈ blocks)
    {nullifier : Hash64} (hspends : x.header.spendsAt nullifier = some daa) :
    (blocks.findSome? fun e => e.header.spendsAt nullifier) = some daa := by
  induction blocks with
  | nil => cases hx
  | cons y blocks ih =>
    rw [DistinctTickets, pairwise_cons] at h
    rcases mem_cons.mp hx with rfl | hx
    · rw [List.findSome?_cons, hspends]
    · have hnone : y.header.spendsAt nullifier = none := by
        by_contra hne
        rw [h.1 x hx nullifier hne] at hspends
        cases hspends
      rw [List.findSome?_cons, hnone]
      exact ih h.2 hx

/-- The state of the coloring loop while the lane is active: the merged blues spend distinct tickets
outside the seed, and the set holds the seed and their tickets. -/
structure MergedTickets (dag : Dag) (parent : BlockEntry) (mergeset : List BlockHash)
    (seed : PalwActiveNullifierSet) (s : GhostdagData × PalwActiveNullifierSet)
    (merged : List BlockEntry) : Prop where
  blues_eq : s.1.mergesetBlues = parent.hash :: merged.map BlockEntry.hash
  found : ∀ y ∈ merged, dag.find? y.hash = some y ∧ y.hash ∈ mergeset
  unspent : ∀ y ∈ merged, ∀ nullifier, y.header.spendsAt nullifier ≠ none →
    seed.seen.lookup nullifier = none
  distinct : DistinctTickets merged
  lookup_eq : ∀ nullifier, s.2.seen.lookup nullifier =
    (seed.seen.lookup nullifier).or (merged.findSome? fun e => e.header.spendsAt nullifier)

theorem MergedTickets.step {dag : Dag} {parent : BlockEntry} {mergeset : List BlockHash}
    {seed : PalwActiveNullifierSet} {s s' : GhostdagData × PalwActiveNullifierSet}
    {merged : List BlockEntry} {candidate : BlockHash}
    (h : MergedTickets dag parent mergeset seed s merged) (hcandidate : candidate ∈ mergeset)
    (hstep : m.colorCandidate dag true s candidate = .ok s') :
    ∃ merged', MergedTickets dag parent mergeset seed s' merged' := by
  rcases GhostdagManager.colorCandidate_eq_ok hstep with
    rfl | ⟨size, sizes, e, he, hdata, ⟨hfalse, -⟩ | ⟨-, hset, hunspent⟩⟩
  · exact ⟨merged, h.blues_eq, h.found, h.unspent, h.distinct, h.lookup_eq⟩
  · cases hfalse
  · obtain ⟨-, rfl⟩ := Dag.find?_eq_some he
    have hfree (nullifier : Hash64) (hspends : e.header.spendsAt nullifier ≠ none) :
        seed.seen.lookup nullifier = none ∧
          ∀ x ∈ merged, x.header.spendsAt nullifier = none := by
      obtain ⟨daa, hdaa⟩ := Option.ne_none_iff_exists'.mp hspends
      have hcontains := hunspent _ (BlockHeader.palwTicket_of_spendsAt hdaa)
      rw [PalwActiveNullifierSet.contains_eq, Option.isSome_eq_false_iff,
        Option.isNone_iff_eq_none, h.lookup_eq, Option.or_eq_none_iff] at hcontains
      exact ⟨hcontains.1, List.findSome?_eq_none_iff.mp hcontains.2⟩
    refine ⟨merged ++ [e], ?_, ?_, ?_, ?_, ?_⟩
    · simp [hdata, GhostdagData.addBlue, h.blues_eq]
    · exact forall_mem_append.mpr ⟨h.found, forall_mem_singleton.mpr ⟨he, hcandidate⟩⟩
    · refine forall_mem_append.mpr ⟨h.unspent, forall_mem_singleton.mpr ?_⟩
      exact fun nullifier hspends => (hfree nullifier hspends).1
    · refine pairwise_append.mpr ⟨h.distinct, pairwise_singleton _ _, ?_⟩
      intro x hx y hy nullifier hspends
      rw [mem_singleton.mp hy]
      by_contra hne
      exact hspends ((hfree nullifier hne).2 x hx)
    · intro nullifier
      rw [hset, PalwActiveNullifierSet.lookup_insertTicket, h.lookup_eq, Option.or_assoc,
        List.findSome?_append]
      congr 2
      simp

theorem filterMap_find?_map_hash {dag : Dag} (h : ∀ y ∈ blocks, dag.find? y.hash = some y) :
    (blocks.map BlockEntry.hash).filterMap dag.find? = blocks := by
  induction blocks with
  | nil => rfl
  | cons y blocks ih =>
    rw [map_cons, filterMap_cons, h y mem_cons_self,
      ih (forall_mem_cons.mp h).2]

/-- The merged blues of an active coloring spend distinct tickets, none of them held by the selected
parent's window or spent by the selected parent. -/
theorem GhostdagManager.Colors.mergedTickets {dag : Dag} {parents mergeset : List BlockHash}
    {parent : BlockEntry} (h : Colors m dag parents data parent mergeset sources)
    (hactive : m.palwActive dag parents = true) :
    ∃ window merged, m.selectedParentWindow parent = .ok window ∧ sources = parent :: merged ∧
      (∀ y ∈ merged, dag.find? y.hash = some y ∧ y.hash ∈ mergeset) ∧ DistinctTickets merged ∧
      ∀ y ∈ merged, ∀ nullifier, y.header.spendsAt nullifier ≠ none →
        window.seen.lookup nullifier = none ∧ parent.header.spendsAt nullifier = none := by
  obtain ⟨seed, s, hseed, hs, -, hblues, -⟩ := h.colored
  rw [hactive] at hseed hs
  obtain ⟨window, hwindow, hseed⟩ := bind_eq_ok.mp hseed
  obtain ⟨merged, hmerged⟩ := foldlM_induction
    (I := fun s => ∃ merged, MergedTickets dag parent mergeset seed s merged)
    (fun s c s' hc hi hstep => hi.choose_spec.step hc hstep)
    ⟨[], rfl, by simp, by simp, .nil, by simp⟩ hs
  refine ⟨window, merged, hwindow, ?_, hmerged.found, hmerged.distinct, ?_⟩
  · have hfilter := filterMap_find?_map_hash fun y hy => (hmerged.found y hy).1
    rw [← filterMap_find?_eq h.sources_eq, hblues, hmerged.blues_eq, filterMap_cons, h.found,
      hfilter]
  · intro y hy nullifier hspends
    have hnone := hmerged.unspent y hy nullifier hspends
    rwa [← Except.ok.inj hseed, PalwActiveNullifierSet.lookup_insertTicket,
      PalwActiveNullifierSet.lookup_new_mergeFrom, Option.or_eq_none_iff] at hnone

/-! ## The blue past -/

def bluePast (dag : Dag) (block : BlockHash) : List BlockEntry :=
  chainFold (fun older e past => blueSources older e ++ past) [] dag block

def HeaderProcessor.sharesTicket (p : HeaderProcessor) (x y : BlockEntry) : Bool :=
  x.header.powAlgoId = POW_ALGO_ID_PALW_REPLICA && y.header.powAlgoId = POW_ALGO_ID_PALW_REPLICA &&
    x.header.palwTicketNullifier = y.header.palwTicketNullifier &&
    x.header.daaScore ≤ y.header.daaScore + p.palwNullifierRetentionDaa &&
    y.header.daaScore ≤ x.header.daaScore + p.palwNullifierRetentionDaa

def HeaderProcessor.CreditedOnce (p : HeaderProcessor) (dag : Dag) (block : BlockHash) : Prop :=
  ∀ x ∈ bluePast dag block, ∀ y ∈ bluePast dag block, x ≠ y → p.sharesTicket x y = false

/-- A header builds on an unspent selected parent, and a merged block that repeats a ticket of the
selected parent's blue past repeats one still inside the selected parent's window. -/
def HeaderProcessor.ticketsInWindow (p : HeaderProcessor) (dag : Dag) (b : BlockInput) : Bool :=
  match findSelectedParent dag b.parents with
  | .error _ => false
  | .ok selected => (dag.find? selected).any fun parent =>
    ((bluePast dag selected).all fun x => !p.sharesTicket x parent) &&
    match orderedMergesetWithoutSelectedParent dag selected b.parents with
    | .error _ => false
    | .ok mergeset => (mergeset.filterMap dag.find?).all fun y =>
      (bluePast dag selected).all fun x => !p.sharesTicket x y ||
        parent.header.daaScore ≤ x.header.daaScore + p.palwNullifierRetentionDaa

theorem HeaderProcessor.sharesTicket_iff {p : HeaderProcessor} :
    p.sharesTicket x y = true ↔ ∃ nullifier,
      x.header.spendsAt nullifier = some x.header.daaScore ∧
      y.header.spendsAt nullifier = some y.header.daaScore ∧
      x.header.daaScore ≤ y.header.daaScore + p.palwNullifierRetentionDaa ∧
      y.header.daaScore ≤ x.header.daaScore + p.palwNullifierRetentionDaa := by
  simp only [sharesTicket, BlockHeader.spendsAt, Bool.and_eq_true, decide_eq_true_eq,
    Option.ite_none_right_eq_some, and_true]
  constructor
  · rintro ⟨⟨⟨⟨hx, hy⟩, heq⟩, hxy⟩, hyx⟩
    exact ⟨_, ⟨hx, rfl⟩, ⟨hy, heq.symm⟩, hxy, hyx⟩
  · rintro ⟨_, ⟨hx, rfl⟩, ⟨hy, heq⟩, hxy, hyx⟩
    exact ⟨⟨⟨⟨hx, hy⟩, heq.symm⟩, hxy⟩, hyx⟩

theorem HeaderProcessor.sharesTicket_comm (p : HeaderProcessor) (x y : BlockEntry) :
    p.sharesTicket x y = p.sharesTicket y x := by
  rw [Bool.eq_iff_iff, sharesTicket_iff, sharesTicket_iff]
  exact exists_congr fun _ => by tauto

theorem BlockHeader.eq_daaScore_of_spendsAt {h : BlockHeader} {nullifier : Hash64}
    (hspends : h.spendsAt nullifier = some daa) : daa = h.daaScore :=
  (Option.some.inj (Option.ite_none_right_eq_some.mp hspends).2).symm

def BlockEntry.window (e : BlockEntry) : PalwActiveNullifierSet := e.activeNullifiers.getD .new

/-- The invariant of a stored block: its blue past credits no ticket twice, and its window knows
exactly the tickets of its blue past that are not older than the retention. -/
structure TicketsTracked (p : HeaderProcessor) (dag : Dag) (e : BlockEntry) : Prop where
  once : p.CreditedOnce dag e.hash
  covered : ∀ x ∈ bluePast dag e.hash, ∀ nullifier daa, x.header.spendsAt nullifier = some daa →
    e.header.daaScore ≤ daa + p.palwNullifierRetentionDaa →
    ∃ seen, e.window.seen.lookup nullifier = some seen ∧ daa ≤ seen
  owned : ∀ nullifier daa, e.window.seen.lookup nullifier = some daa →
    e.header.daaScore ≤ daa + p.palwNullifierRetentionDaa ∧
      ∃ x ∈ bluePast dag e.hash, x.header.spendsAt nullifier = some daa

/-! ## One insertion -/

structure FreshTickets (p : HeaderProcessor) (past : List BlockEntry) (parent : BlockEntry)
    (merged : List BlockEntry) : Prop where
  parent_unspent : ∀ x ∈ past, p.sharesTicket x parent = false
  in_window : ∀ y ∈ merged, ∀ x ∈ past, p.sharesTicket x y = true →
    parent.header.daaScore ≤ x.header.daaScore + p.palwNullifierRetentionDaa
  distinct : DistinctTickets merged
  unspent : ∀ y ∈ merged, ∀ nullifier, y.header.spendsAt nullifier ≠ none →
    parent.window.seen.lookup nullifier = none ∧ parent.header.spendsAt nullifier = none

section Insertion

variable {p : HeaderProcessor} {dag : Dag} {parent : BlockEntry} {merged : List BlockEntry}

theorem FreshTickets.merged_once (h : FreshTickets p (bluePast dag parent.hash) parent merged)
    (hx : x ∈ merged) (hy : y ∈ merged) (hne : x ≠ y) : p.sharesTicket x y = false := by
  have hsymm : Std.Symm fun x y : BlockEntry => ∀ nullifier,
      x.header.spendsAt nullifier ≠ none → y.header.spendsAt nullifier = none := by
    refine ⟨fun x y hxy nullifier hspends => ?_⟩
    by_contra hne
    exact hspends (hxy nullifier hne)
  have hdistinct := h.distinct.forall hx hy hne
  by_contra hshares
  rw [Bool.not_eq_false, HeaderProcessor.sharesTicket_iff] at hshares
  obtain ⟨nullifier, hspends, hspends', -⟩ := hshares
  rw [hdistinct nullifier (by simp [hspends])] at hspends'
  cases hspends'

theorem lookup_blues (nullifier : Hash64) :
    ((parent :: merged).foldl (fun s e => s.insertTicket e.header) parent.window).seen.lookup
      nullifier = (parent.window.seen.lookup nullifier).or
        ((parent.header.spendsAt nullifier).or
          (merged.findSome? fun e => e.header.spendsAt nullifier)) := by
  rw [PalwActiveNullifierSet.lookup_foldl_insertTicket, List.findSome?_cons]
  cases parent.header.spendsAt nullifier <;> rfl

theorem TicketsTracked.owned_blues (hparent : TicketsTracked p dag parent) {nullifier : Hash64}
    (hlookup : ((parent :: merged).foldl (fun s e => s.insertTicket e.header)
      parent.window).seen.lookup nullifier = some daa) :
    ∃ x ∈ (parent :: merged) ++ bluePast dag parent.hash,
      x.header.spendsAt nullifier = some daa := by
  rw [lookup_blues, Option.or_eq_some_iff, Option.or_eq_some_iff] at hlookup
  rcases hlookup with hwindow | ⟨-, hspends | ⟨-, hmerged⟩⟩
  · obtain ⟨-, x, hx, hspends⟩ := hparent.owned nullifier daa hwindow
    exact ⟨x, mem_append_right _ hx, hspends⟩
  · exact ⟨parent, by simp, hspends⟩
  · obtain ⟨x, hx, hspends⟩ := exists_of_findSome?_eq_some hmerged
    exact ⟨x, by simp [hx], hspends⟩

variable (h : FreshTickets p (bluePast dag parent.hash) parent merged)
  (hparent : TicketsTracked p dag parent)

include h hparent

theorem FreshTickets.merged_unspent (hy : y ∈ merged)
    (hx : x = parent ∨ x ∈ bluePast dag parent.hash) : p.sharesTicket x y = false := by
  by_contra hshares
  rw [Bool.not_eq_false] at hshares
  obtain ⟨nullifier, hspends, hspends', -⟩ := HeaderProcessor.sharesTicket_iff.mp hshares
  obtain ⟨hwindow, hnone⟩ := h.unspent y hy nullifier (by simp [hspends'])
  rcases hx with rfl | hx
  · rw [hnone] at hspends
    cases hspends
  · -- the selected parent's window still holds the ticket
    obtain ⟨seen, hseen, -⟩ := hparent.covered x hx nullifier _ hspends
      (h.in_window y hy x hx hshares)
    rw [hwindow] at hseen
    cases hseen

theorem FreshTickets.once (hx : x ∈ (parent :: merged) ++ bluePast dag parent.hash)
    (hy : y ∈ (parent :: merged) ++ bluePast dag parent.hash) (hne : x ≠ y) :
    p.sharesTicket x y = false := by
  simp only [cons_append, mem_cons, mem_append] at hx hy
  rcases hx with rfl | hx | hx <;> rcases hy with rfl | hy | hy
  · exact absurd rfl hne
  · exact h.merged_unspent hparent hy (.inl rfl)
  · rw [p.sharesTicket_comm]
    exact h.parent_unspent y hy
  · rw [p.sharesTicket_comm]
    exact h.merged_unspent hparent hx (.inl rfl)
  · exact h.merged_once hx hy hne
  · rw [p.sharesTicket_comm]
    exact h.merged_unspent hparent hx (.inr hy)
  · exact h.parent_unspent x hx
  · exact h.merged_unspent hparent hy (.inr hx)
  · exact hparent.once x hx y hy hne

theorem FreshTickets.covered {daaScore : ℕ} (hdaa : parent.header.daaScore ≤ daaScore)
    (hx : x ∈ (parent :: merged) ++ bluePast dag parent.hash) {nullifier : Hash64}
    (hspends : x.header.spendsAt nullifier = some daa)
    (hrecent : daaScore ≤ daa + p.palwNullifierRetentionDaa) :
    ∃ seen, ((parent :: merged).foldl (fun s e => s.insertTicket e.header)
      parent.window).seen.lookup nullifier = some seen ∧ daa ≤ seen := by
  rw [lookup_blues]
  simp only [cons_append, mem_cons, mem_append] at hx
  rcases hx with rfl | hx | hx
  · cases hwindow : x.window.seen.lookup nullifier with
    | none => exact ⟨daa, by rw [Option.none_or, hspends, Option.some_or], le_rfl⟩
    | some seen =>
      -- an older spender of the selected parent's ticket lies above the retention
      refine ⟨seen, Option.some_or, ?_⟩
      obtain ⟨hseen, z, hz, hzspends⟩ := hparent.owned nullifier seen hwindow
      have hshares := h.parent_unspent z hz
      rw [← Bool.not_eq_true, HeaderProcessor.sharesTicket_iff] at hshares
      have hx := BlockHeader.eq_daaScore_of_spendsAt hspends
      have hz := BlockHeader.eq_daaScore_of_spendsAt hzspends
      by_contra hlt
      exact hshares ⟨nullifier, hz ▸ hzspends, hx ▸ hspends, by omega, by omega⟩
  · obtain ⟨hwindow, hnone⟩ := h.unspent x hx nullifier (by simp [hspends])
    rw [hwindow, hnone, Option.none_or, Option.none_or]
    exact ⟨daa, h.distinct.findSome?_eq hx hspends, le_rfl⟩
  · obtain ⟨seen, hseen, hle⟩ := hparent.covered x hx nullifier daa hspends (hdaa.trans hrecent)
    exact ⟨seen, by rw [hseen, Option.some_or], hle⟩

theorem FreshTickets.tracked (hdaa : parent.header.daaScore ≤ e.header.daaScore)
    (hselected : e.data.selectedParent = parent.hash)
    (hsources : blueSources dag e = parent :: merged)
    (hwindow : e.window = ((parent :: merged).foldl (fun s e => s.insertTicket e.header)
      parent.window).pruneBelow (e.header.daaScore - p.palwNullifierRetentionDaa)) :
    TicketsTracked p (e :: dag) e := by
  have hpast : bluePast (e :: dag) e.hash = (parent :: merged) ++ bluePast dag parent.hash := by
    rw [bluePast, chainFold_cons_self, hsources, hselected]
    rfl
  refine ⟨fun x hx y hy hne => ?_, fun x hx nullifier daa hspends hrecent => ?_,
    fun nullifier daa hlookup => ?_⟩
  · rw [hpast] at hx hy
    exact h.once hparent hx hy hne
  · rw [hpast] at hx
    obtain ⟨seen, hseen, hle⟩ := h.covered hparent hdaa hx hspends hrecent
    rw [hwindow]
    exact ⟨seen, (PalwActiveNullifierSet.lookup_pruneBelow_eq_some _ _).mpr ⟨hseen, by omega⟩, hle⟩
  · rw [hwindow, PalwActiveNullifierSet.lookup_pruneBelow_eq_some] at hlookup
    rw [hpast]
    exact ⟨by omega, hparent.owned_blues hlookup.1⟩

end Insertion

/-! ## Runs -/

theorem Built.activeNullifiers_genesis {p : HeaderProcessor} {admitted : Dag → BlockInput → Prop}
    {dag : Dag} (h : Built p admitted dag) (he : e ∈ dag) (hgenesis : e.hash = p.genesisHash) :
    e.activeNullifiers = none := by
  induction h with
  | genesis =>
    rw [mem_singleton.mp he]
    rfl
  | add hdag _ _ _ hprocess ih =>
    obtain ⟨data, window, -, hwindow, rfl⟩ := HeaderProcessor.processHeader_eq_ok hprocess
    rcases mem_cons.mp he with rfl | he
    · rw [HeaderProcessor.nullifierWindow, if_neg fun hcond => hcond.2 hgenesis] at hwindow
      exact (Except.ok.inj hwindow).symm
    · exact ih he

theorem GhostdagManager.selectedParentWindow_eq {parent : BlockEntry}
    {window : PalwActiveNullifierSet} (hactive : m.palwActivationDaaScore ≤ parent.header.daaScore)
    (hgenesis : parent.hash = m.genesisHash → parent.activeNullifiers = none)
    (h : m.selectedParentWindow parent = .ok window) : window = parent.window := by
  unfold selectedParentWindow at h
  split at h
  · split at h
    · next hsome =>
      cases h
      rw [BlockEntry.window, hsome]
      rfl
    · cases h
  · next hcond =>
    cases h
    rw [BlockEntry.window, hgenesis (by tauto)]
    rfl

theorem HeaderProcessor.nullifierWindow_eq {p : HeaderProcessor} {dag : Dag} {parent : BlockEntry}
    {window : PalwActiveNullifierSet} {stored : Option PalwActiveNullifierSet}
    (hactive : p.palwActivationDaaScore ≤ b.header.daaScore) (hgenesis : b.hash ≠ p.genesisHash)
    (hparent : dag.find? data.selectedParent = some parent)
    (hwindow : p.selectedParentWindow parent = .ok window)
    (hsources : data.mergesetBlues.mapM dag.get = .ok sources)
    (h : p.nullifierWindow dag b data = .ok stored) :
    stored = some ((sources.foldl (fun s e => s.insertTicket e.header) window).pruneBelow
      (b.header.daaScore - p.palwNullifierRetentionDaa)) := by
  rw [nullifierWindow, if_pos ⟨hactive, hgenesis⟩] at h
  obtain ⟨parent', hparent', h⟩ := bind_eq_ok.mp h
  cases hparent.symm.trans (Dag.get_eq_ok.mp hparent')
  obtain ⟨window', hwindow', h⟩ := bind_eq_ok.mp h
  cases hwindow.symm.trans hwindow'
  obtain ⟨sources', hsources', h⟩ := bind_eq_ok.mp h
  cases hsources.symm.trans hsources'
  exact (Except.ok.inj h).symm

theorem HeaderProcessor.daaScore_le_of_check {p : HeaderProcessor} {dag : Dag} {parent : BlockEntry}
    (hdata : p.ghostdag dag b.parents = .ok data)
    (hparent : dag.find? data.selectedParent = some parent) (h : p.checkDaaScore dag b = true) :
    parent.header.daaScore ≤ b.header.daaScore := by
  simp only [checkDaaScore, hdata, decide_eq_true_eq, calcDaaScore, hparent, Option.elim_some] at h
  omega

theorem GhostdagManager.Colors.freshTickets {p : HeaderProcessor} {dag : Dag} {parent : BlockEntry}
    {mergeset : List BlockHash} {merged : List BlockEntry}
    (h : Colors p.toGhostdagManager dag b.parents data parent mergeset (parent :: merged))
    (hfound : ∀ y ∈ merged, dag.find? y.hash = some y ∧ y.hash ∈ mergeset)
    (hdistinct : DistinctTickets merged)
    (hunspent : ∀ y ∈ merged, ∀ nullifier, y.header.spendsAt nullifier ≠ none →
      parent.window.seen.lookup nullifier = none ∧ parent.header.spendsAt nullifier = none)
    (hcheck : p.ticketsInWindow dag b = true) :
    FreshTickets p (bluePast dag parent.hash) parent merged := by
  simp only [HeaderProcessor.ticketsInWindow, h.selected, h.found, h.mergeset_eq, Option.any_some,
    Bool.and_eq_true, all_eq_true, Bool.not_eq_true', Bool.or_eq_true, decide_eq_true_eq]
    at hcheck
  refine ⟨hcheck.1, fun y hy x hx hshares => ?_, hdistinct, hunspent⟩
  have hmem : y ∈ mergeset.filterMap dag.find? :=
    mem_filterMap.mpr ⟨y.hash, (hfound y hy).2, (hfound y hy).1⟩
  rcases hcheck.2 y hmem x hx with hfalse | hle
  · rw [hshares] at hfalse
    cases hfalse
  · exact hle

theorem bluePast_cons_of_ne {block : BlockHash} (h : e.hash ≠ block) (dag : Dag) :
    bluePast (e :: dag) block = bluePast dag block :=
  chainFold_cons_of_ne _ _ h dag

theorem TicketsTracked.cons {p : HeaderProcessor} {dag : Dag} {e x : BlockEntry}
    (h : TicketsTracked p dag x) (hne : e.hash ≠ x.hash) : TicketsTracked p (e :: dag) x := by
  obtain ⟨honce, hcovered, howned⟩ := h
  rw [HeaderProcessor.CreditedOnce] at honce
  rw [← bluePast_cons_of_ne hne dag] at honce hcovered howned
  exact ⟨honce, hcovered, howned⟩

theorem Built.ticketsTracked {p : HeaderProcessor} {dag : Dag}
    (h : Built p (fun dag b => p.checkDaaScore dag b ∧ p.ticketsInWindow dag b) dag)
    (hactive : ∀ e ∈ dag, p.palwActivationDaaScore ≤ e.header.daaScore) :
    ∀ e ∈ dag, TicketsTracked p dag e := by
  induction h with
  | @genesis header =>
    intro e he
    rw [mem_singleton.mp he]
    have hpast : bluePast [genesisEntry p header] (genesisEntry p header).hash = [] := by
      rw [bluePast, chainFold_cons_self]
      rfl
    refine ⟨?_, ?_, fun nullifier daa hlookup => nomatch hlookup⟩
    · simp [HeaderProcessor.CreditedOnce, hpast]
    · simp [hpast]
  | @add dag dag' b hdag horigin hfresh hadmitted hprocess ih =>
    have hbuilt := hdag.add horigin hfresh hadmitted hprocess
    obtain ⟨data, stored, hdata, hstored, rfl⟩ := HeaderProcessor.processHeader_eq_ok hprocess
    have hold := ih (forall_mem_cons.mp hactive).2
    intro e he
    rcases mem_cons.mp he with rfl | he
    · obtain ⟨parent, mergeset, sources, hcolors⟩ := hdag.colors hdata
      obtain ⟨hmem, -⟩ := Dag.find?_eq_some hcolors.found
      have hparentActive := hactive parent (mem_cons_of_mem _ hmem)
      have hlane : p.palwActive dag b.parents = true := by
        refine any_eq_true.mpr ⟨parent.hash, (findSelectedParent_eq_ok hcolors.selected).1, ?_⟩
        simpa [hcolors.found] using hparentActive
      obtain ⟨window, merged, hwindow, rfl, hfound, hdistinct, hunspent⟩ :=
        hcolors.mergedTickets hlane
      obtain rfl := GhostdagManager.selectedParentWindow_eq hparentActive
        (hdag.activeNullifiers_genesis hmem) hwindow
      have hselected := hcolors.blues_eq.1
      have hgenesis : b.hash ≠ p.genesisHash := by
        obtain ⟨g, hg, heq⟩ := hdag.exists_genesis
        exact fun hb => hfresh g hg (heq.trans hb.symm)
      have hparent : dag.find? data.selectedParent = some parent := hselected ▸ hcolors.found
      have hrow := HeaderProcessor.nullifierWindow_eq (hactive _ mem_cons_self) hgenesis
        hparent hwindow hcolors.sources_eq hstored
      refine (hcolors.freshTickets hfound hdistinct hunspent hadmitted.2).tracked (hold parent hmem)
        (HeaderProcessor.daaScore_le_of_check hdata hparent hadmitted.1) hselected
        (filterMap_find?_eq hcolors.sources_eq) ?_
      rw [BlockEntry.window, hrow]
      rfl
    · exact (hold e he).cons (hbuilt.hash_ne_of_mem he)

/-- **Single use.** In every DAG processed with the lane active, whose headers have checked DAA
scores and tickets inside the window, no ticket is credited twice in the blue past of any block. -/
theorem ticket_creditedOnce {p : HeaderProcessor} {dag : Dag}
    (hdag : Built p (fun dag b => p.checkDaaScore dag b ∧ p.ticketsInWindow dag b) dag)
    (hactive : ∀ e ∈ dag, p.palwActivationDaaScore ≤ e.header.daaScore) (block : BlockHash) :
    p.CreditedOnce dag block := by
  cases hfind : dag.find? block with
  | none =>
    have hpast : bluePast dag block = [] := chainFold_of_find?_eq_none _ _ hfind
    simp [HeaderProcessor.CreditedOnce, hpast]
  | some e =>
    obtain ⟨he, rfl⟩ := Dag.find?_eq_some hfind
    exact (hdag.ticketsTracked hactive e he).once

/-- Two replica blocks with tickets of their own. -/
theorem ticket_creditedOnce_sample : ∃ dag, Built (sampleProcessor 1)
    (fun dag b => (sampleProcessor 1).checkDaaScore dag b ∧
      (sampleProcessor 1).ticketsInWindow dag b) dag ∧
    (∀ e ∈ dag, 0 ≤ e.header.daaScore) ∧
    (bluePast dag 4).map BlockEntry.hash = [3, 2, 1] ∧
    (sampleProcessor 1).CreditedOnce dag 4 := by
  obtain ⟨dag, hdag, hpast⟩ : ∃ dag, Built (sampleProcessor 1) (fun dag b =>
      (sampleProcessor 1).checkDaaScore dag b ∧ (sampleProcessor 1).ticketsInWindow dag b) dag ∧
      (bluePast dag 4).map BlockEntry.hash = [3, 2, 1] :=
    exists_built_sampleDag (fun dag b => (sampleProcessor 1).checkDaaScore dag b &&
      (sampleProcessor 1).ticketsInWindow dag b) [⟨2, [1], replicaHeader 0 7⟩,
      ⟨3, [2], replicaHeader 1 8⟩, ⟨4, [3], hashHeader 2⟩] (fun _ _ => (Bool.and_eq_true _ _).mp)
      (by decide +kernel)
  exact ⟨dag, hdag, fun _ _ => Nat.zero_le _, hpast,
    ticket_creditedOnce hdag (fun _ _ => Nat.zero_le _) 4⟩

/-- A block that repeats its selected parent's ticket is itself selected, so both are credited; and
a repeated ticket is credited again when its first use has left the window of a selected parent that
is ahead of the merged block. -/
theorem ticket_credited_twice :
    (∃ dag, Built (sampleProcessor 1)
      (fun dag b => (sampleProcessor 1).checkDaaScore dag b) dag ∧
      ¬ (sampleProcessor 1).CreditedOnce dag 4) ∧
    ∃ dag, Built (sampleProcessor 1)
      (fun dag b => (sampleProcessor 1).checkDaaScore dag b) dag ∧
      ¬ (sampleProcessor 1).CreditedOnce dag 7 := by
  have htwice (inputs : List BlockInput) (block : BlockHash) (h : ∃ dag,
      sampleDag 1 (sampleProcessor 1).checkDaaScore inputs = .ok dag ∧ ∃ x ∈ bluePast dag block,
        ∃ y ∈ bluePast dag block, x.hash ≠ y.hash ∧ (sampleProcessor 1).sharesTicket x y) :
      ∃ dag, Built (sampleProcessor 1) (fun dag b => (sampleProcessor 1).checkDaaScore dag b) dag ∧
        ¬ (sampleProcessor 1).CreditedOnce dag block := by
    obtain ⟨dag, hdag, x, hx, y, hy, hne, hshares⟩ :=
      exists_built_sampleDag _ inputs (fun _ _ h => h) h
    refine ⟨dag, hdag, fun honce => ?_⟩
    rw [honce x hx y hy fun heq => hne (congrArg BlockEntry.hash heq)] at hshares
    cases hshares
  exact ⟨htwice [⟨2, [1], replicaHeader 0 7⟩, ⟨3, [2], replicaHeader 1 7⟩, ⟨4, [3], hashHeader 2⟩] 4
      (by decide +kernel),
    htwice [⟨2, [1], replicaHeader 0 7⟩, ⟨3, [2], hashHeader 1⟩, ⟨4, [3], hashHeader 2⟩,
      ⟨5, [4], hashHeader 3⟩, ⟨6, [2], replicaHeader 1 7⟩, ⟨7, [5, 6], hashHeader 5⟩] 7
      (by decide +kernel)⟩

end Misaka.Ghostdag
