import Misaka.Ghostdag.ComponentWork

/-!
# Blue work as a topological order

`sort_blocks` orders blocks by blue work, ties by hash, and the coloring relies on that order being
topological. A block whose selected parent adds neither hash work nor creditable compute work may
have exactly its parent's blue work.
-/

namespace Misaka.Ghostdag

open Misaka.Core List

variable {e parent : BlockEntry} {blocks : List BlockHash}

theorem ExactSums.blueWork_lt_iff {m : GhostdagManager} {older : Dag}
    (h : ExactSums m older e parent) (hparent : WorkBounded parent.data) :
    parent.data.blueWork < e.data.blueWork ↔
      0 < m.hashDelta older e (blueSources older e) ∨
        (0 < m.computeDelta older e (blueSources older e) ∧
          parent.data.blueComputeWork < 4 * parent.data.blueHashWork) := by
  have hcapped := hparent.capped
  have hhash := h.hash_eq
  have hcompute := h.compute_eq
  rw [hparent.effective, h.effective_eq]
  omega

def HeaderProcessor.selectedParentAddsWork (p : HeaderProcessor) (dag : Dag) (b : BlockInput) :
    Bool :=
  match findSelectedParent dag b.parents with
  | .error _ => false
  | .ok selected => (dag.find? selected).any fun parent =>
    0 < GhostdagManager.hashWorkOf (p.palwActive dag b.parents) parent.header ||
      (0 < p.computeWorkOf (p.palwActive dag b.parents) parent.header &&
        0 < computeHeadroom parent.data.blueHashWork parent.data.blueComputeWork
          COMPUTE_TO_HASH_CAP)

theorem lt_of_computeHeadroom_pos {hashWork computeWork : ℕ}
    (h : 0 < computeHeadroom hashWork computeWork COMPUTE_TO_HASH_CAP) :
    computeWork < 4 * hashWork := by
  rw [computeHeadroom, computeWorkCap, blueMulOrMax_eq_min] at h
  have hcap : COMPUTE_TO_HASH_CAP = 4 := rfl
  rw [hcap] at h
  omega

variable {p : HeaderProcessor} {dag : Dag}

theorem GhostdagManager.Colors.blueWork_lt {mergeset : List BlockHash} {sources : List BlockEntry}
    (h : Colors p.toGhostdagManager dag e.parents e.data parent mergeset sources)
    (hparent : WorkBounded parent.data)
    (hadds : p.selectedParentAddsWork dag ⟨e.hash, e.parents, e.header⟩) {q : BlockHash}
    (hq : q ∈ e.parents) : ∃ x, dag.find? q = some x ∧ x.data.blueWork < e.data.blueWork := by
  obtain ⟨hexact, -⟩ := h.exactSums hparent
  obtain ⟨rest, hrest⟩ := h.sources_eq_cons
  have hsources : blueSources dag e = parent :: rest := by
    rw [← hrest]
    exact filterMap_find?_eq h.sources_eq
  have hlt : parent.data.blueWork < e.data.blueWork := by
    rw [hexact.blueWork_lt_iff hparent, hsources, hashDelta, computeDelta, map_cons, sum_cons,
      map_cons, sum_cons]
    simp only [HeaderProcessor.selectedParentAddsWork, h.selected, h.found, Option.any_some,
      Bool.or_eq_true, Bool.and_eq_true, decide_eq_true_eq] at hadds
    rcases hadds with hhash | ⟨hcompute, hheadroom⟩
    · exact .inl (Nat.add_pos_left hhash _)
    · exact .inr ⟨Nat.add_pos_left hcompute _, lt_of_computeHeadroom_pos hheadroom⟩
  -- no parent exceeds the selected one
  obtain ⟨-, selected, hselected, hmax⟩ := findSelectedParent_eq_ok h.selected
  obtain ⟨x, hx, hle⟩ := hmax q hq
  rw [h.found] at hselected
  cases hselected
  refine ⟨x, hx, lt_of_le_of_lt ?_ hlt⟩
  rcases Prod.Lex.toLex_le_toLex.mp hle with hle | ⟨heq, -⟩
  · exact hle.le
  · exact heq.le

def ParentsBelow (dag : Dag) : Prop :=
  ∀ e ∈ dag, ∀ q ∈ e.parents, ∃ x, dag.find? q = some x ∧ x.data.blueWork < e.data.blueWork

theorem Built.parentsBelow (h : Built p (fun dag b => p.selectedParentAddsWork dag b) dag) :
    ParentsBelow dag := by
  induction h with
  | genesis =>
    intro e he q hq
    rw [mem_singleton.mp he] at hq
    cases hq
  | add hdag horigin hfresh hadmitted hprocess ih =>
    have hbuilt := hdag.add horigin hfresh hadmitted hprocess
    obtain ⟨data, window, hdata, -, rfl⟩ := HeaderProcessor.processHeader_eq_ok hprocess
    obtain ⟨parent, mergeset, sources, hcolors⟩ := hdag.colors hdata
    have hparent := hdag.workBounded parent (Dag.find?_eq_some hcolors.found).1
    intro e he q hq
    obtain ⟨x, hx, hlt⟩ : ∃ x, Dag.find? _ q = some x ∧ x.data.blueWork < e.data.blueWork := by
      rcases mem_cons.mp he with rfl | he
      · exact hcolors.blueWork_lt hparent hadmitted hq
      · exact ih e he q hq
    exact ⟨x, hbuilt.find?_cons_of_find? hx, hlt⟩

theorem Built.blueWork_lt_of_isDagAncestorOf
    (h : Built p (fun dag b => p.selectedParentAddsWork dag b) dag) {a b : BlockHash}
    (hb : b ∈ dag.map BlockEntry.hash) (hab : dag.isDagAncestorOf a b) :
    ∃ x y, dag.find? a = some x ∧ dag.find? b = some y ∧
      (a = b ∨ x.data.blueWork < y.data.blueWork) := by
  refine h.parents_induction (Q := fun b => dag.isDagAncestorOf a b → ∃ x y, dag.find? a = some x ∧
    dag.find? b = some y ∧ (a = b ∨ x.data.blueWork < y.data.blueWork)) (fun e he ih hae => ?_) b hb
    hab
  have hfind := h.find?_of_mem he
  rcases (h.isDagAncestorOf_iff he).mp hae with rfl | ⟨q, hq, haq⟩
  · exact ⟨e, e, hfind, hfind, .inl rfl⟩
  · -- an ancestor of a parent: the parent lies strictly between
    obtain ⟨x, y, hx, hy, hxy⟩ := ih q hq haq
    obtain ⟨z, hz, hlt⟩ := h.parentsBelow e he q hq
    cases hy.symm.trans hz
    refine ⟨x, e, hx, hfind, .inr ?_⟩
    rcases hxy with rfl | hxy
    · cases hx.symm.trans hy
      exact hlt
    · exact hxy.trans hlt

theorem map_snd_of_sortableBlocks {keyed : List (ℕ ×ₗ BlockHash)}
    (h : blocks.mapM (sortableBlock dag) = .ok keyed) :
    keyed.map (fun s => (ofLex s).2) = blocks := by
  rw [mapM_eq_ok] at h
  induction h with
  | nil => rfl
  | cons hkey _ ih =>
    obtain ⟨e, -, rfl⟩ := sortableBlock_eq_ok.mp hkey
    rw [map_cons, ih]
    rfl

theorem Built.sortBlocks_topological (h : Built p (fun dag b => p.selectedParentAddsWork dag b) dag)
    (hblocks : ∀ b ∈ blocks, ∃ e, dag.find? b = some e) :
    ∃ sorted, sortBlocks dag blocks = .ok sorted ∧ sorted.Perm blocks ∧
      sorted.Pairwise fun a b => dag.isDagAncestorOf b a → b = a := by
  obtain ⟨keyed, hkeyed⟩ : ∃ keyed, blocks.mapM (sortableBlock dag) = .ok keyed := by
    refine exists_mapM_eq_ok fun b hb => ?_
    obtain ⟨e, he⟩ := hblocks b hb
    exact ⟨_, sortableBlock_eq_ok.mpr ⟨e, he, rfl⟩⟩
  refine ⟨_, bind_eq_ok.mpr ⟨keyed, hkeyed, rfl⟩, ?_, ?_⟩
  · have hperm := (perm_insertionSort (· ≤ ·) keyed).map fun s => (ofLex s).2
    rwa [map_snd_of_sortableBlocks hkeyed] at hperm
  · rw [pairwise_map]
    refine (pairwise_insertionSort (· ≤ ·) keyed).imp_of_mem fun hs ht hle hancestor => ?_
    obtain ⟨a, -, ha⟩ := exists_source_of_mapM hkeyed ((mem_insertionSort _).mp hs)
    obtain ⟨b, -, hb⟩ := exists_source_of_mapM hkeyed ((mem_insertionSort _).mp ht)
    obtain ⟨x, hx, rfl⟩ := sortableBlock_eq_ok.mp ha
    obtain ⟨y, hy, rfl⟩ := sortableBlock_eq_ok.mp hb
    obtain ⟨hmem, rfl⟩ := Dag.find?_eq_some hx
    obtain ⟨y', x', hy', hx', heq | hlt⟩ :=
      h.blueWork_lt_of_isDagAncestorOf (mem_map_of_mem hmem) hancestor
    · exact heq
    · -- the ancestor has less blue work than the block sorted before it
      cases hy.symm.trans hy'
      cases hx.symm.trans hx'
      have hkey := Prod.Lex.toLex_le_toLex.mp hle
      omega

/-- **Topological order.** In every DAG whose headers each have a selected parent that adds work,
blue work grows strictly from parent to child and `sort_blocks` is a linear extension of the
ancestor relation. -/
theorem blueWork_topological {p : HeaderProcessor} {dag : Dag}
    (hdag : Built p (fun dag b => p.selectedParentAddsWork dag b) dag) :
    (∀ e ∈ dag, ∀ q ∈ e.parents, ∃ x, dag.find? q = some x ∧
      x.data.blueWork < e.data.blueWork) ∧
    ∀ blocks : List BlockHash, (∀ b ∈ blocks, ∃ e, dag.find? b = some e) →
      ∃ sorted, sortBlocks dag blocks = .ok sorted ∧ sorted.Perm blocks ∧
        sorted.Pairwise fun a b => dag.isDagAncestorOf b a → b = a :=
  ⟨hdag.parentsBelow, fun _ => hdag.sortBlocks_topological⟩

/-- A replica block between hash blocks with a positive compute scale. -/
theorem blueWork_sample : ∃ dag, Built (sampleProcessor 1)
    (fun dag b => (sampleProcessor 1).selectedParentAddsWork dag b) dag ∧
    dag.map BlockEntry.hash = [3, 2, 1] ∧ ∀ e ∈ dag, ∀ q ∈ e.parents, ∃ x, dag.find? q = some x ∧
      x.data.blueWork < e.data.blueWork := by
  obtain ⟨dag, hdag, hhashes⟩ : ∃ dag, Built (sampleProcessor 1)
      (fun dag b => (sampleProcessor 1).selectedParentAddsWork dag b) dag ∧
      dag.map BlockEntry.hash = [3, 2, 1] :=
    exists_built_sampleDag (sampleProcessor 1).selectedParentAddsWork
      [⟨2, [1], replicaHeader 0 7⟩, ⟨3, [2], hashHeader 1⟩] (fun _ _ h => h) (by decide +kernel)
  exact ⟨dag, hdag, hhashes, (blueWork_topological hdag).1⟩

/-- With compute scale zero a replica block adds no work: the child 5 of the replica block 9 has
the same blue work, and the mergeset of a block with parents 8 and 5 is sorted child first. -/
theorem child_sorted_before_parent : ∃ dag, Built (sampleProcessor 0)
    (fun dag b => (sampleProcessor 0).checkDaaScore dag b) dag ∧
    (∃ e ∈ dag, ∃ x ∈ dag, x.hash ∈ e.parents ∧ ¬ x.data.blueWork < e.data.blueWork) ∧
    findSelectedParent dag [8, 5] = .ok 8 ∧
    orderedMergesetWithoutSelectedParent dag 8 [8, 5] = .ok [5, 9] ∧ dag.isDagAncestorOf 9 5 := by
  refine exists_built_sampleDag (sampleProcessor 0).checkDaaScore [⟨9, [1], replicaHeader 0 7⟩,
    ⟨5, [9], hashHeader 1⟩, ⟨8, [1], hashHeader 0⟩] (fun _ _ h => h) ?_
  decide +kernel

end Misaka.Ghostdag
