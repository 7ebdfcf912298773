import Misaka.Chain.Transaction
import Misaka.Core.Lineage

/-!
# Merge depth roots and finality points

`consensus/src/processes/block_depth.rs` over the tree of selected parents, ranked by blue score.
`ORIGIN` is not a block: it is `none`, both as the selected parent of genesis and as a result.
-/

namespace Misaka.Pruning

open Misaka.Core Forest List

/-- The blocks under their selected parents, ranked by blue score. -/
structure SelectedTree extends Forest BlockHash where
  genesisHash : BlockHash
  parent_eq_none : ∀ {b}, parent b = none ↔ b = genesisHash
  rank_genesis : rank genesisHash = 0

namespace SelectedTree

variable (t : SelectedTree)

/-- `forward_chain_iterator` with both ends. -/
def forwardChainIterator (low high : BlockHash) : List BlockHash := low :: t.pathAbove low high

/-- The loop over the chain: the last block before one that reaches the required blue score. -/
def lastBelow (requiredBlueScore : ℕ) : BlockHash → List BlockHash → BlockHash
  | current, [] => current
  | current, chainBlock :: rest =>
    if requiredBlueScore ≤ t.rank chainBlock then current
    else lastBelow requiredBlueScore chainBlock rest

/-- `calculate_block_at_depth` with the depth and the store column of the depth type. -/
def calculateBlockAtDepth (depth : ℕ) (stored : BlockHash → Option BlockHash)
    (block pruningPoint : BlockHash) : Option BlockHash :=
  match t.parent block with
  | none => none
  | some selectedParent =>
    if t.rank block < depth then some t.genesisHash
    else if t.rank block < t.rank pruningPoint + depth then none
    else if pruningPoint ∉ t.lineage selectedParent then none
    else
      let current := (stored selectedParent).getD pruningPoint
      some (t.lastBelow (t.rank block - depth) current
        (t.forwardChainIterator current selectedParent))

/-- The node that pruned at `pruningPoint` has stored the computed point of every chain block. -/
def Records (depth : ℕ) (stored : BlockHash → Option BlockHash) (block pruningPoint : BlockHash) :
    Prop :=
  ∀ b ∈ t.lineage block, stored b = t.calculateBlockAtDepth depth stored b pruningPoint

/-- The highest chain block whose blue score is below that of `block` minus the depth. -/
def blockAtDepth (depth : ℕ) (block : BlockHash) : BlockHash :=
  ((t.lineage block).find? fun b => t.rank b < t.rank block - depth).getD t.genesisHash

/-- The pruning point lies exactly at the depth, and the selected parent is too high for genesis. -/
def StopsAtPruningPoint (depth : ℕ) (block pruningPoint : BlockHash) : Prop :=
  t.rank block = t.rank pruningPoint + depth ∧ pruningPoint ≠ t.genesisHash ∧
    ∃ parent ∈ t.parent block, depth ≤ t.rank parent

variable {t} {depth : ℕ} {stored : BlockHash → Option BlockHash} {block pp r : BlockHash}

theorem genesis_mem_lineage (b : BlockHash) : t.genesisHash ∈ t.lineage b := by
  induction b using t.induction_parent with
  | h b ih =>
    cases hp : t.parent b with
    | none =>
      rw [← t.parent_eq_none.mp hp]
      exact self_mem_lineage b
    | some p => exact mem_lineage_trans (parent_mem_lineage hp) (ih p hp)

theorem lineage_genesis : t.lineage t.genesisHash = [t.genesisHash] := by
  rw [lineage_eq, t.parent_eq_none.mpr rfl]
  rfl

theorem eq_genesis_of_mem {b : BlockHash} (h : b ∈ t.lineage t.genesisHash) :
    b = t.genesisHash := by
  rw [lineage_genesis] at h
  exact mem_singleton.mp h

theorem lastBelow_eq {required : ℕ} (current : BlockHash) {chain : List BlockHash}
    (hchain : chain.Pairwise fun x y => t.rank x < t.rank y) :
    t.lastBelow required current chain =
      (chain.reverse.find? fun b => t.rank b < required).getD current := by
  induction chain generalizing current with
  | nil => rfl
  | cons b chain ih =>
    obtain ⟨hb, hchain⟩ := pairwise_cons.mp hchain
    rw [lastBelow, reverse_cons, find?_append]
    split
    · next hle =>
      have hnone : chain.reverse.find? (fun b => t.rank b < required) = none := by
        refine find?_eq_none.mpr fun x hx => ?_
        have := hb x (mem_reverse.mp hx)
        simp only [decide_eq_true_eq]
        omega
      simp [hnone, hle]
    · next hlt =>
      rw [ih b hchain]
      cases chain.reverse.find? fun b => t.rank b < required <;> simp [Nat.lt_of_not_le hlt]

/-- From a block below the required blue score the loop reaches the highest one that is. -/
theorem lastBelow_forward {required : ℕ} {current parent : BlockHash}
    (hcurrent : current ∈ t.lineage parent)
    (hbelow : t.rank current < required ∨ current = t.genesisHash) :
    t.lastBelow required current (t.forwardChainIterator current parent) =
      ((t.lineage parent).find? fun b => t.rank b < required).getD t.genesisHash := by
  have hsplit := lineage_eq_pathAbove hcurrent
  have hchain :
      (current :: t.pathAbove current parent).Pairwise fun x y => t.rank x < t.rank y := by
    have hsorted := t.pairwise_rank_lineage parent
    rw [hsplit, lineage_eq current, append_cons] at hsorted
    simpa using pairwise_reverse.mpr (pairwise_append.mp hsorted).1
  rw [forwardChainIterator, lastBelow_eq current hchain, reverse_cons, hsplit, find?_append,
    find?_append]
  cases (t.pathAbove current parent).reverse.find? fun b => t.rank b < required with
  | some b => rfl
  | none =>
    by_cases hlt : t.rank current < required
    · simp [hlt, lineage_eq current]
    · obtain rfl := hbelow.resolve_left hlt
      simp [hlt, lineage_genesis]

theorem calculateBlockAtDepth_eq_some
    (h : t.calculateBlockAtDepth depth stored block pp = some r) :
    ∃ parent, t.parent block = some parent ∧ (t.rank block < depth ∧ r = t.genesisHash ∨
      t.rank pp + depth ≤ t.rank block ∧ pp ∈ t.lineage parent ∧
        r = t.lastBelow (t.rank block - depth) ((stored parent).getD pp)
          (t.forwardChainIterator ((stored parent).getD pp) parent)) := by
  unfold calculateBlockAtDepth at h
  split at h
  · cases h
  · next parent hparent =>
    refine ⟨parent, hparent, ?_⟩
    split_ifs at h with hshort hnear hchain
    · exact .inl ⟨hshort, (Option.some.inj h).symm⟩
    · exact .inr ⟨Nat.le_of_not_lt hnear, hchain, (Option.some.inj h).symm⟩

theorem calculateBlockAtDepth_of_near (hdeep : depth ≤ t.rank block)
    (hnear : t.rank block < t.rank pp + depth) :
    t.calculateBlockAtDepth depth stored block pp = none := by
  unfold calculateBlockAtDepth
  split
  · rfl
  · simp [hdeep.not_gt, hnear]

theorem calculateBlockAtDepth_of_short (hne : block ≠ t.genesisHash)
    (hshort : t.rank block < depth) :
    t.calculateBlockAtDepth depth stored block pp = some t.genesisHash := by
  unfold calculateBlockAtDepth
  split
  · next hnone => exact absurd (t.parent_eq_none.mp hnone) hne
  · simp [hshort]

theorem blockAtDepth_spec : t.blockAtDepth depth block ∈ t.lineage block ∧
    (t.blockAtDepth depth block = t.genesisHash ∨
      t.rank (t.blockAtDepth depth block) + depth < t.rank block) := by
  unfold blockAtDepth
  cases hfind : (t.lineage block).find? fun b => t.rank b < t.rank block - depth with
  | none => exact ⟨genesis_mem_lineage block, .inl rfl⟩
  | some b =>
    have hlt := find?_some hfind
    simp only [decide_eq_true_eq] at hlt
    refine ⟨mem_of_find?_eq_some hfind, .inr ?_⟩
    simp only [Option.getD_some]
    omega

/-- One computation from a stored point that is deep enough: the block at the depth, or the pruning
point where the computation restarts there. -/
theorem calculateBlockAtDepth_step
    (hstored : ∀ parent ∈ t.parent block, ∀ c ∈ stored parent,
      c ∈ t.lineage parent ∧ (c = t.genesisHash ∨ t.rank c + depth ≤ t.rank parent))
    (h : t.calculateBlockAtDepth depth stored block pp = some r) :
    r = t.blockAtDepth depth block ∨
      r = pp ∧ t.rank block = t.rank pp + depth ∧ pp ≠ t.genesisHash ∧
        ∃ parent ∈ t.parent block, pp ∈ t.lineage parent ∧ stored parent = none := by
  obtain ⟨parent, hparent, ⟨hshort, rfl⟩ | ⟨hdeep, hchain, rfl⟩⟩ := calculateBlockAtDepth_eq_some h
  · refine .inl ?_
    simp [blockAtDepth, Nat.sub_eq_zero_of_le hshort.le, find?_eq_none.mpr]
  · have hat : t.blockAtDepth depth block = ((t.lineage parent).find? fun b =>
        t.rank b < t.rank block - depth).getD t.genesisHash := by
      simp [blockAtDepth, lineage_of_parent hparent]
    have hrank := t.rank_lt hparent
    rw [hat]
    cases hc : stored parent with
    | some c =>
      obtain ⟨hmem, hc⟩ := hstored parent hparent c hc
      exact .inl (lastBelow_forward hmem (hc.symm.imp_left fun hle => by
        simp only [Option.getD_some]
        omega))
    | none =>
      by_cases hbelow : t.rank pp < t.rank block - depth ∨ pp = t.genesisHash
      · exact .inl (lastBelow_forward hchain hbelow)
      · rw [not_or] at hbelow
        refine .inr ⟨?_, by omega, hbelow.2, parent, hparent, hchain, hc⟩
        simp [forwardChainIterator, lastBelow, Nat.le_of_not_lt hbelow.1]

namespace Records

theorem deep (hrecords : t.Records depth stored block pp) {b c : BlockHash}
    (hb : b ∈ t.lineage block) (hc : stored b = some c) :
    c ∈ t.lineage b ∧ (c = t.genesisHash ∨ t.rank c + depth ≤ t.rank b) := by
  induction b using t.induction_parent generalizing c with
  | h b ih =>
    rw [hrecords b hb] at hc
    have hstored := fun parent (hparent : parent ∈ t.parent b) c hc =>
      ih parent hparent (mem_lineage_trans hb (parent_mem_lineage hparent)) hc (c := c)
    rcases calculateBlockAtDepth_step hstored hc with
      rfl | ⟨rfl, hrank, -, parent, hparent, hchain, -⟩
    · exact blockAtDepth_spec.imp_right (·.imp_right le_of_lt)
    · exact ⟨mem_lineage_trans (parent_mem_lineage hparent) hchain, .inr hrank.ge⟩

theorem calculateBlockAtDepth_eq (hrecords : t.Records depth stored block pp)
    (h : t.calculateBlockAtDepth depth stored block pp = some r) :
    t.StopsAtPruningPoint depth block pp ∧ r = pp ∨
      ¬ t.StopsAtPruningPoint depth block pp ∧ r = t.blockAtDepth depth block := by
  by_cases hstops : t.StopsAtPruningPoint depth block pp
  · refine .inl ⟨hstops, ?_⟩
    obtain ⟨hrank, hne, parent, hparent, hparentDeep⟩ := hstops
    obtain ⟨parent', hparent', ⟨hshort, -⟩ | ⟨-, -, rfl⟩⟩ := calculateBlockAtDepth_eq_some h
    · omega
    · cases Option.some.inj (hparent.symm.trans hparent')
      have hlt := t.rank_lt hparent
      have hnone : stored parent = none := by
        rw [hrecords parent (parent_mem_lineage hparent)]
        exact calculateBlockAtDepth_of_near hparentDeep (by omega)
      simp [hnone, forwardChainIterator, lastBelow, hrank]
  · refine .inr ⟨hstops, ?_⟩
    rcases calculateBlockAtDepth_step (fun parent hparent c hc =>
        hrecords.deep (parent_mem_lineage hparent) hc) h with
      rfl | ⟨-, hrank, hne, parent, hparent, hchain, hnone⟩
    · rfl
    · refine absurd ⟨hrank, hne, parent, hparent, ?_⟩ hstops
      by_contra hshort
      have hparentNe : parent ≠ t.genesisHash := by
        rintro rfl
        exact hne (eq_genesis_of_mem hchain)
      rw [hrecords parent (parent_mem_lineage hparent),
        calculateBlockAtDepth_of_short hparentNe (Nat.lt_of_not_le hshort)] at hnone
      cases hnone

end Records

theorem calculateBlockAtDepth_agree_iff {stored' : BlockHash → Option BlockHash}
    {pp' r' : BlockHash} (hrecords : t.Records depth stored block pp)
    (hrecords' : t.Records depth stored' block pp')
    (h : t.calculateBlockAtDepth depth stored block pp = some r)
    (h' : t.calculateBlockAtDepth depth stored' block pp' = some r') :
    r = r' ∧ r = t.blockAtDepth depth block ↔
      ¬ t.StopsAtPruningPoint depth block pp ∧ ¬ t.StopsAtPruningPoint depth block pp' := by
  have hdiffer : ∀ {p}, t.StopsAtPruningPoint depth block p → p ≠ t.blockAtDepth depth block := by
    rintro p ⟨hrank, hne, -⟩ rfl
    have hlt := (blockAtDepth_spec (t := t)).2.resolve_left hne
    omega
  rcases hrecords.calculateBlockAtDepth_eq h with ⟨hstops, rfl⟩ | ⟨hstops, rfl⟩
  · exact ⟨fun heq => absurd heq.2 (hdiffer hstops), fun hno => absurd hstops hno.1⟩
  · rcases hrecords'.calculateBlockAtDepth_eq h' with ⟨hstops', rfl⟩ | ⟨hstops', rfl⟩
    · exact ⟨fun heq => absurd heq.1.symm (hdiffer hstops'), fun hno => absurd hstops' hno.2⟩
    · exact iff_of_true ⟨rfl, rfl⟩ ⟨hstops, hstops'⟩

end SelectedTree

/-- The stored points of a node, by block; `none` is `ORIGIN`. -/
structure DepthStore where
  mergeDepthRoot : BlockHash → Option BlockHash
  finalityPoint : BlockHash → Option BlockHash

/-- The two depths and the tree. -/
structure BlockDepthManager where
  mergeDepth : ℕ
  finalityDepth : ℕ
  tree : SelectedTree

namespace BlockDepthManager

variable (m : BlockDepthManager) (store : DepthStore)

/-- The point at the merge depth. -/
def calcMergeDepthRoot : BlockHash → BlockHash → Option BlockHash :=
  m.tree.calculateBlockAtDepth m.mergeDepth store.mergeDepthRoot

/-- The point at the finality depth. -/
def calcFinalityPoint : BlockHash → BlockHash → Option BlockHash :=
  m.tree.calculateBlockAtDepth m.finalityDepth store.finalityPoint

/-- Two nodes agree on the merge depth root, and on the finality point, at the block at the depth
exactly if neither stops at its own pruning point. -/
theorem depth_points_agree_iff (store' : DepthStore) (block pp pp' : BlockHash) :
    (m.tree.Records m.mergeDepth store.mergeDepthRoot block pp →
      m.tree.Records m.mergeDepth store'.mergeDepthRoot block pp' →
      ∀ r r', m.calcMergeDepthRoot store block pp = some r →
        m.calcMergeDepthRoot store' block pp' = some r' →
        (r = r' ∧ r = m.tree.blockAtDepth m.mergeDepth block ↔
          ¬m.tree.StopsAtPruningPoint m.mergeDepth block pp ∧
            ¬m.tree.StopsAtPruningPoint m.mergeDepth block pp')) ∧
    (m.tree.Records m.finalityDepth store.finalityPoint block pp →
      m.tree.Records m.finalityDepth store'.finalityPoint block pp' →
      ∀ r r', m.calcFinalityPoint store block pp = some r →
        m.calcFinalityPoint store' block pp' = some r' →
        (r = r' ∧ r = m.tree.blockAtDepth m.finalityDepth block ↔
          ¬m.tree.StopsAtPruningPoint m.finalityDepth block pp ∧
            ¬m.tree.StopsAtPruningPoint m.finalityDepth block pp')) := by
  constructor
  · intro hrecords hrecords' r r' h h'
    exact SelectedTree.calculateBlockAtDepth_agree_iff hrecords hrecords' h h'
  · intro hrecords hrecords' r r' h h'
    exact SelectedTree.calculateBlockAtDepth_agree_iff hrecords hrecords' h h'

end BlockDepthManager

/-- A chain whose blocks are numbered by their blue scores. -/
def countingTree : SelectedTree where
  parent b := if b = 0 then none else some (b - 1)
  rank b := b
  rank_lt {a p} h := by
    split_ifs at h with ha
    have := Option.some.inj h
    exact this ▸ Nat.sub_lt (Nat.pos_of_ne_zero ha) Nat.one_pos
  genesisHash := 0
  parent_eq_none := by simp
  rank_genesis := rfl

/-- The points at depth 2 that a node pruned at genesis and one pruned at block 2 store. -/
def fullPoints (b : BlockHash) : Option BlockHash :=
  [none, some 0, some 0, some 0, some 1, some 2][b]?.join

def prunedPoints (b : BlockHash) : Option BlockHash :=
  [none, some 0, none, none, some 2, some 2][b]?.join

def countingManager : BlockDepthManager := ⟨2, 3, countingTree⟩

theorem depth_points_agree_at_five :
    countingManager.calcMergeDepthRoot ⟨fullPoints, fullPoints⟩ 5 0 = some 2 ∧
      countingManager.calcMergeDepthRoot ⟨prunedPoints, prunedPoints⟩ 5 2 = some 2 ∧
      2 = countingTree.blockAtDepth 2 5 := by
  have hfull : countingTree.Records 2 fullPoints 5 0 := by unfold SelectedTree.Records; decide
  have hpruned : countingTree.Records 2 prunedPoints 5 2 := by unfold SelectedTree.Records; decide
  have hroot := countingManager.depth_points_agree_iff ⟨fullPoints, fullPoints⟩
    ⟨prunedPoints, prunedPoints⟩ 5 0 2
  refine ⟨rfl, rfl, ((hroot.1 hfull hpruned 2 2 rfl rfl).mpr ?_).2⟩
  exact ⟨fun h => absurd h.1 (by decide), fun h => absurd h.1 (by decide)⟩

/-- A node that pruned at block 2 stops there for block 4; one that did not prune finds block 1. -/
theorem pruned_node_stops_higher :
    countingTree.Records 2 fullPoints 4 0 ∧ countingTree.Records 2 prunedPoints 4 2 ∧
      countingTree.calculateBlockAtDepth 2 fullPoints 4 0 = some 1 ∧
      countingTree.calculateBlockAtDepth 2 prunedPoints 4 2 = some 2 := by
  unfold SelectedTree.Records
  decide

end Misaka.Pruning
