import Misaka.Dns.Registry

/-!
# The registry along reorganizations

Successive selected-chain changes rewrite the persisted rows in place. Because every mutation is
reversible up to the cached status, and the status is refreshed at each new sink, the rows after
any number of changes are those of the current chain alone.
-/

namespace Misaka.Dns

open Misaka.Core List Table

variable {r r' : BondRegistry} {o : TransactionOutpoint} {blocks : List MutationBlock}

variable {b : BlockHash} {m : BondMutation} {removed added : List MutationBlock}
  {touched : Finset TransactionOutpoint}

theorem applyMutation_frame (ho : o ≠ m.outpoint) (h : applyMutation b r m = .ok r') :
    r'.lookup o = r.lookup o := by
  cases m with
  | insert o' rec =>
    obtain ⟨-, rfl⟩ := applyInsert_eq_ok.mp h
    exact Finmap.lookup_insert_of_ne r ho
  | slash o' d | unbond o' d =>
    obtain ⟨-, rfl⟩ := applyStamp_eq_ok.mp h
    exact lookup_adjust_of_ne r _ ho

theorem revertMutation_frame (ho : o ≠ m.outpoint) (h : revertMutation b r m = .ok r') :
    r'.lookup o = r.lookup o := by
  cases m with
  | insert o' rec =>
    obtain ⟨-, rfl⟩ := revertInsert_eq_ok.mp h
    exact Finmap.lookup_erase_ne ho
  | slash o' d | unbond o' d =>
    obtain ⟨-, rfl⟩ := revertStamp_eq_ok.mp h
    exact lookup_adjust_of_ne r _ ho

theorem ne_outpoint_of_notMem_touchedBy (ho : o ∉ touchedBy blocks) {b : MutationBlock}
    (hb : b ∈ blocks) (hm : m ∈ b.2) : o ≠ m.outpoint := by
  rintro rfl
  apply ho
  simp only [touchedBy, mem_toFinset, mem_flatMap, mem_map]
  exact ⟨b, hb, m, hm, rfl⟩

theorem lookup_of_foldlM {α ε : Type} {f : BondRegistry → α → Except ε BondRegistry} {l : List α}
    (hf : ∀ a ∈ l, ∀ q q', f q a = .ok q' → q'.lookup o = q.lookup o)
    (h : l.foldlM f r = .ok r') : r'.lookup o = r.lookup o := by
  refine foldlM_induction (I := fun q => q.lookup o = r.lookup o) ?_ rfl h
  intro q a q' ha hq hq'
  rw [hf a ha q q' hq', hq]

theorem attachBlocks_frame (ho : o ∉ touchedBy blocks) (h : blocks.foldlM attachBlock r = .ok r') :
    r'.lookup o = r.lookup o := by
  refine lookup_of_foldlM (fun b hb q q' hq => ?_) h
  refine lookup_of_foldlM (fun m hm p p' hp => ?_) hq
  exact applyMutation_frame (ne_outpoint_of_notMem_touchedBy ho hb hm) hp

theorem detachBlocks_frame (ho : o ∉ touchedBy blocks) (h : blocks.foldlM detachBlock r = .ok r') :
    r'.lookup o = r.lookup o := by
  refine lookup_of_foldlM (fun b hb q q' hq => ?_) h
  refine lookup_of_foldlM (fun m hm p p' hp => ?_) hq
  exact revertMutation_frame (ne_outpoint_of_notMem_touchedBy ho hb (mem_reverse.mp hm)) hp

theorem reconcile_eq_ok {store : BondRegistry} :
    reconcileDnsBondRegistry store removed added = .ok (r, touched) ↔
      (∃ mid, removed.foldlM detachBlock store = .ok mid ∧ added.foldlM attachBlock mid = .ok r) ∧
        touched = touchedBy removed ∪ touchedBy added := by
  unfold reconcileDnsBondRegistry
  rw [bind_eq_ok]
  constructor
  · rintro ⟨mid, hmid, h⟩
    obtain ⟨r', hr', h⟩ := bind_eq_ok.mp h
    cases h
    exact ⟨⟨mid, hmid, hr'⟩, rfl⟩
  · rintro ⟨⟨mid, hmid, hr⟩, rfl⟩
    exact ⟨mid, hmid, bind_eq_ok.mpr ⟨r, hr, rfl⟩⟩

theorem stage_eq_canonicalRows {store : BondRegistry} {d : ℕ}
    (h : reconcileDnsBondRegistry store removed added = .ok (r, touched)) :
    stageDnsBondMutations store removed added d = .ok (canonicalRows r d) := by
  unfold stageDnsBondMutations
  rw [h]
  change Except.ok _ = Except.ok _
  congr 1
  obtain ⟨⟨mid, hmid, hr⟩, rfl⟩ := reconcile_eq_ok.mp h
  apply Finmap.ext_lookup
  intro o
  rw [lookup_overwrite]
  split
  · rfl
  · next ho =>
    simp only [Finset.mem_union, not_or] at ho
    obtain ⟨⟨hrem, hadd⟩, hmoved⟩ := ho
    have hframe : r.lookup o = store.lookup o :=
      (attachBlocks_frame hadd hr).trans (detachBlocks_frame hrem hmid)
    rw [canonicalRows, lookup_mapVal, ← hframe]
    cases hrow : r.lookup o with
    | none => rfl
    | some rec =>
      -- an unmoved row already carries its effective status
      have hstatus : rec.status = effectiveBondStatus rec d := by
        by_contra hne
        apply hmoved
        rw [Finset.mem_filter, Finmap.mem_keys, hrow]
        exact ⟨Finmap.mem_of_lookup_eq_some hrow, by simpa using hne⟩
      simp only [Option.map_some, StakeBondRecord.withStatusAt, ← hstatus]

/-- One selected-chain change: the blocks kept up to the fork, those detached and those attached,
each list from ancestor to tip. -/
structure ChainChange where
  kept : List MutationBlock
  detached : List MutationBlock
  attached : List MutationBlock
  sinkDaaScore : ℕ

/-- Apply a change to the persisted rows; `ChainPath.removed` runs tip to ancestor. -/
def stageChange (store : BondRegistry) (c : ChainChange) : Except RegistryError BondRegistry :=
  stageDnsBondMutations store c.detached.reverse c.attached c.sinkDaaScore

/-- Changes that follow one another from the rows `base`: each leaves the chain the previous one
led to, for a chain that attaches to `base` without error. -/
inductive ChainHistory (base : BondRegistry) : List MutationBlock → List ChainChange → Prop
  | nil : ChainHistory base [] []
  | snoc {chain : List MutationBlock} {changes : List ChainChange} {c : ChainChange}
      {direct : BondRegistry} : ChainHistory base chain changes →
      chain = c.kept ++ c.detached →
      (c.kept ++ c.attached).foldlM attachBlock base = .ok direct →
      ChainHistory base (c.kept ++ c.attached) (changes ++ [c])

theorem reconcile_change {base tip store direct : BondRegistry} {c : ChainChange}
    (hold : (c.kept ++ c.detached).foldlM attachBlock base = .ok tip)
    (hstore : store.stamps = tip.stamps)
    (hnew : (c.kept ++ c.attached).foldlM attachBlock base = .ok direct) :
    ∃ r touched, reconcileDnsBondRegistry store c.detached.reverse c.attached = .ok (r, touched) ∧
      r.stamps = direct.stamps := by
  obtain ⟨fork, hfork, htip⟩ := foldlM_append_eq_ok.mp hold
  obtain ⟨fork', hfork', hdirect⟩ := foldlM_append_eq_ok.mp hnew
  obtain rfl : fork = fork' := by simpa [hfork] using hfork'
  obtain ⟨mid, r, hmid, hr, hstamps⟩ := block_reversible.reorg htip hstore hdirect
  exact ⟨r, _, reconcile_eq_ok.mpr ⟨⟨mid, hmid, hr⟩, rfl⟩, hstamps⟩

theorem ChainHistory.stamps_eq {base : BondRegistry} {chain : List MutationBlock}
    {changes : List ChainChange} (h : ChainHistory base chain changes) :
    ∃ store direct, changes.foldlM stageChange base = .ok store ∧
      chain.foldlM attachBlock base = .ok direct ∧ store.stamps = direct.stamps := by
  induction h with
  | nil => exact ⟨base, base, rfl, rfl, rfl⟩
  | @snoc chain changes c direct _ hchain hdirect ih =>
    obtain ⟨store, old, hstore, hold, hstamps⟩ := ih
    rw [hchain] at hold
    obtain ⟨r, touched, hr, hrstamps⟩ := reconcile_change hold hstamps hdirect
    refine ⟨canonicalRows r c.sinkDaaScore, direct, ?_, hdirect, ?_⟩
    · exact foldlM_append_eq_ok.mpr ⟨store, hstore,
        foldlM_cons_eq_ok.mpr ⟨_, stage_eq_canonicalRows hr, rfl⟩⟩
    · rw [stamps_canonicalRows, hrstamps]

/-- Reorganizations leave no trace: after any number of selected-chain changes, reconciling the
last one and canonicalizing gives exactly the rows of the new chain applied directly, and these
are the rows persisted. -/
theorem reconcile_path_independent {base direct : BondRegistry} {chain : List MutationBlock}
    {changes : List ChainChange} {c : ChainChange}
    (hist : ChainHistory base chain (changes ++ [c]))
    (hdirect : chain.foldlM attachBlock base = .ok direct) :
    ∃ store r touched, changes.foldlM stageChange base = .ok store ∧
      reconcileDnsBondRegistry store c.detached.reverse c.attached = .ok (r, touched) ∧
      (canonicalizeDnsBondStatuses r c.sinkDaaScore).1 =
        (canonicalizeDnsBondStatuses direct c.sinkDaaScore).1 ∧
      (changes ++ [c]).foldlM stageChange base =
        .ok (canonicalizeDnsBondStatuses direct c.sinkDaaScore).1 := by
  generalize hall : changes ++ [c] = all at hist
  cases hist with
  | nil => simp at hall
  | @snoc old changes' c' direct' hold hchain hdirect' =>
    obtain ⟨rfl, hc⟩ := append_inj' hall rfl
    obtain rfl : c = c' := by simpa using hc
    obtain rfl : direct = direct' := by simpa [hdirect] using hdirect'
    obtain ⟨store, tip, hstore, htip, hstamps⟩ := hold.stamps_eq
    rw [hchain] at htip
    obtain ⟨r, touched, hr, hrstamps⟩ := reconcile_change htip hstamps hdirect
    have hrows := canonicalRows_eq_of_stamps_eq hrstamps c.sinkDaaScore
    refine ⟨store, r, touched, hstore, hr, hrows, ?_⟩
    refine foldlM_append_eq_ok.mpr ⟨store, hstore, foldlM_cons_eq_ok.mpr ⟨_, ?_, rfl⟩⟩
    exact (stage_eq_canonicalRows hr).trans (congrArg _ hrows)

def bondBlock (block : BlockHash) (daa : ℕ) : MutationBlock :=
  (block, [.insert ⟨block, 0⟩ (acceptedBondRecord default ⟨block, 0⟩ daa 0)])

/-- Attach blocks 1 and 2, then replace block 2 by block 3, which slashes the bond of block 1. -/
theorem reconcile_path_independent_replacing_branch :
    ∃ store r touched,
      [(⟨[], [], [bondBlock 1 5, bondBlock 2 6], 6⟩ : ChainChange)].foldlM stageChange ∅ =
        .ok store ∧
      reconcileDnsBondRegistry store [bondBlock 2 6] [(3, [.slash ⟨1, 0⟩ 9])] = .ok (r, touched) ∧
      (canonicalizeDnsBondStatuses r 9).1 = (canonicalizeDnsBondStatuses
        (Table.adjust ⟨1, 0⟩ (·.setStamp .slash (some 9) 9)
          (Finmap.insert ⟨1, 0⟩ (acceptedBondRecord default ⟨1, 0⟩ 5 0) ∅)) 9).1 ∧
      [(⟨[], [], [bondBlock 1 5, bondBlock 2 6], 6⟩ : ChainChange),
        ⟨[bondBlock 1 5], [bondBlock 2 6], [(3, [.slash ⟨1, 0⟩ 9])], 9⟩].foldlM stageChange ∅ =
        .ok (canonicalizeDnsBondStatuses
          (Table.adjust ⟨1, 0⟩ (·.setStamp .slash (some 9) 9)
            (Finmap.insert ⟨1, 0⟩ (acceptedBondRecord default ⟨1, 0⟩ 5 0) ∅)) 9).1 :=
  @reconcile_path_independent ∅ _ _ [⟨[], [], [bondBlock 1 5, bondBlock 2 6], 6⟩]
    ⟨[bondBlock 1 5], [bondBlock 2 6], [(3, [.slash ⟨1, 0⟩ 9])], 9⟩
    (.snoc (@ChainHistory.snoc ∅ [] [] _ _ .nil rfl rfl) rfl rfl) rfl

end Misaka.Dns
