import Mathlib.Algebra.Order.BigOperators.Group.List
import Mathlib.Tactic.Ring
import Misaka.Ghostdag.Dag

/-!
# Component work along the selected chain

Each block adds the hash work and the compute work of its blue sources to those of its selected
parent. The blue score is a `u64`, which bounds both sums far below the blue-work type: no addition
of the source ever drops a carry, and the stored components are the capped recurrence on exact sums.
-/

namespace Misaka.Ghostdag

open Misaka.Core List

def blueSources (older : Dag) (e : BlockEntry) : List BlockEntry :=
  e.data.mergesetBlues.filterMap older.find?

def GhostdagManager.hashDelta (m : GhostdagManager) (older : Dag) (e : BlockEntry)
    (sources : List BlockEntry) : ℕ :=
  (sources.map fun source =>
    GhostdagManager.hashWorkOf (m.palwActive older e.parents) source.header).sum

def GhostdagManager.computeDelta (m : GhostdagManager) (older : Dag) (e : BlockEntry)
    (sources : List BlockEntry) : ℕ :=
  (sources.map fun source => m.computeWorkOf (m.palwActive older e.parents) source.header).sum

theorem foldl_blueAdd_eq {l : List ℕ} {a : ℕ} (h : a + l.sum ≤ BLUE_WORK_MAX) :
    l.foldl blueAdd a = a + l.sum := by
  induction l generalizing a with
  | nil => rfl
  | cons b l ih =>
    rw [sum_cons, ← add_assoc] at h
    rw [foldl_cons, blueAdd_eq (by omega), ih h, sum_cons, add_assoc]

theorem blueAdd_foldl_eq {l : List ℕ} {a : ℕ} (h : a + l.sum ≤ BLUE_WORK_MAX) :
    blueAdd a (l.foldl blueAdd 0) = a + l.sum := by
  rw [foldl_blueAdd_eq (by omega), zero_add, blueAdd_eq h]

theorem add_le_blueWorkMax {score hashWork computeWork : ℕ} (hscore : score < 2 ^ 64)
    (hhash : hashWork ≤ 2 ^ 256 * score) (hcompute : computeWork ≤ 2 ^ 256 * 2 ^ 64 * score) :
    hashWork + computeWork ≤ BLUE_WORK_MAX := by
  have hsum : hashWork + computeWork ≤ 2 ^ 256 * (score * (2 ^ 64 + 1)) := by
    calc hashWork + computeWork ≤ 2 ^ 256 * score + 2 ^ 256 * 2 ^ 64 * score :=
          add_le_add hhash hcompute
      _ = 2 ^ 256 * (score * (2 ^ 64 + 1)) := by ring
  have hlt : score * (2 ^ 64 + 1) < 2 ^ 64 * 2 ^ 256 :=
    Nat.mul_lt_mul_of_lt_of_le hscore (by norm_num) (by norm_num)
  have hmul := Nat.mul_lt_mul_of_pos_left hlt (show 0 < 2 ^ 256 by norm_num)
  rw [BLUE_WORK_MAX_eq]
  exact Nat.le_sub_one_of_lt (hsum.trans_lt hmul)

namespace GhostdagManager

theorem hashWorkOf_le (active : Bool) (header : BlockHeader) :
    hashWorkOf active header ≤ 2 ^ 256 := by
  unfold hashWorkOf
  split
  · exact Nat.zero_le _
  · exact (calcWork_lt _).le

theorem computeWorkOf_le (m : GhostdagManager) (active : Bool) (header : BlockHeader) :
    m.computeWorkOf active header ≤ 2 ^ 256 * 2 ^ 64 := by
  unfold computeWorkOf
  split
  · exact (normalizePalwWork_lt m.scale_lt).le
  · exact Nat.zero_le _

variable {m : GhostdagManager} {older : Dag} {e parent : BlockEntry}

theorem sum_map_le {f : BlockEntry → ℕ} {bound : ℕ} (hf : ∀ source, f source ≤ bound)
    (sources : List BlockEntry) : (sources.map f).sum ≤ bound * sources.length := by
  have h := sum_le_card_nsmul (sources.map f) bound (by simpa using fun e _ => hf e)
  rw [length_map] at h
  exact h.trans_eq (mul_comm _ _)

theorem hashDelta_le (sources : List BlockEntry) :
    m.hashDelta older e sources ≤ 2 ^ 256 * sources.length :=
  sum_map_le (fun _ => hashWorkOf_le _ _) sources

theorem computeDelta_le (sources : List BlockEntry) :
    m.computeDelta older e sources ≤ 2 ^ 256 * 2 ^ 64 * sources.length :=
  sum_map_le (fun _ => computeWorkOf_le m _ _) sources

end GhostdagManager

structure WorkBounded (d : GhostdagData) : Prop where
  score_lt : d.blueScore < 2 ^ 64
  hash_le : d.blueHashWork ≤ 2 ^ 256 * d.blueScore
  compute_le : d.blueComputeWork ≤ 2 ^ 256 * 2 ^ 64 * d.blueScore
  capped : d.blueComputeWork ≤ 4 * d.blueHashWork
  effective : d.blueWork = d.blueHashWork + d.blueComputeWork

/-- The stored components of a block follow from its selected parent's by exact sums: no sum formed
on the way exceeds the blue-work type. -/
structure ExactSums (m : GhostdagManager) (older : Dag) (e parent : BlockEntry) : Prop where
  found : older.find? e.data.selectedParent = some parent
  running_le : ∀ taken, taken <+: blueSources older e →
    m.hashDelta older e taken ≤ BLUE_WORK_MAX ∧ m.computeDelta older e taken ≤ BLUE_WORK_MAX
  hash_le : parent.data.blueHashWork + m.hashDelta older e (blueSources older e) ≤ BLUE_WORK_MAX
  compute_le :
    parent.data.blueComputeWork + m.computeDelta older e (blueSources older e) ≤ BLUE_WORK_MAX
  effective_le : e.data.blueHashWork + e.data.blueComputeWork ≤ BLUE_WORK_MAX
  hash_eq : e.data.blueHashWork =
    parent.data.blueHashWork + m.hashDelta older e (blueSources older e)
  compute_eq : e.data.blueComputeWork =
    min (parent.data.blueComputeWork + m.computeDelta older e (blueSources older e))
      (4 * e.data.blueHashWork)
  effective_eq : e.data.blueWork = e.data.blueHashWork + e.data.blueComputeWork

theorem filterMap_find?_eq {dag : Dag} {blocks : List BlockHash} {entries : List BlockEntry}
    (h : blocks.mapM dag.get = .ok entries) : blocks.filterMap dag.find? = entries := by
  rw [mapM_eq_ok] at h
  induction h with
  | nil => rfl
  | cons hget _ ih => rw [filterMap_cons, Dag.get_eq_ok.mp hget, ih]

theorem GhostdagManager.Colors.exactSums {m : GhostdagManager} {older : Dag} {e parent : BlockEntry}
    {mergeset : List BlockHash} {sources : List BlockEntry}
    (h : Colors m older e.parents e.data parent mergeset sources)
    (hparent : WorkBounded parent.data) : ExactSums m older e parent ∧ WorkBounded e.data := by
  obtain rfl : blueSources older e = sources := filterMap_find?_eq h.sources_eq
  have hlength := h.length_sources
  have hscore := h.blueScore_eq
  have hhash : parent.data.blueHashWork + m.hashDelta older e (blueSources older e) ≤
      2 ^ 256 * e.data.blueScore := by
    rw [hscore, mul_add, ← hlength]
    exact add_le_add hparent.hash_le (hashDelta_le _)
  have hcompute : parent.data.blueComputeWork + m.computeDelta older e (blueSources older e) ≤
      2 ^ 256 * 2 ^ 64 * e.data.blueScore := by
    rw [hscore, mul_add, ← hlength]
    exact add_le_add hparent.compute_le (computeDelta_le _)
  have hfits := add_le_blueWorkMax h.blueScore_lt hhash hcompute
  have hhash_eq : e.data.blueHashWork =
      parent.data.blueHashWork + m.hashDelta older e (blueSources older e) := by
    rw [h.blueHashWork_eq]
    exact blueAdd_foldl_eq ((Nat.le_add_right _ _).trans hfits)
  have hraw : blueAdd parent.data.blueComputeWork (((blueSources older e).map fun source =>
      m.computeWorkOf (m.palwActive older e.parents) source.header).foldl blueAdd 0) =
      parent.data.blueComputeWork + m.computeDelta older e (blueSources older e) :=
    blueAdd_foldl_eq ((Nat.le_add_left _ _).trans hfits)
  have hcompute_eq : e.data.blueComputeWork =
      min (parent.data.blueComputeWork + m.computeDelta older e (blueSources older e))
        (4 * e.data.blueHashWork) := by
    rw [h.blueComputeWork_eq, hraw, cappedComputeWork_eq (by omega), mul_comm]
    rfl
  have heffective : e.data.blueWork = e.data.blueHashWork + e.data.blueComputeWork := by
    rw [h.blueWork_eq, hraw, effectiveBlueWork_eq (by omega), hcompute_eq, mul_comm]
    rfl
  constructor
  · refine ⟨h.blues_eq.1 ▸ h.found, fun taken htaken => ?_, ?_, ?_, ?_, ?_, ?_, heffective⟩
    · obtain ⟨rest, hrest⟩ := htaken
      rw [← hrest] at hfits
      simp only [hashDelta, computeDelta, map_append, sum_append] at hfits ⊢
      omega
    all_goals omega
  · exact ⟨h.blueScore_lt, by omega, by omega, by omega, heffective⟩

def selectedChain (dag : Dag) (block : BlockHash) : List BlockEntry :=
  chainFold (fun _ e chain => e :: chain) [] dag block

def chainSteps (dag : Dag) (block : BlockHash) : List (Dag × BlockEntry) :=
  chainFold (fun older e steps => (older, e) :: steps) [] dag block

def GhostdagManager.computeCredited (m : GhostdagManager) (dag : Dag) (block : BlockHash) : ℕ :=
  chainFold (fun older e sum => m.computeDelta older e (blueSources older e) + sum) 0 dag block

theorem mem_of_mem_selectedChain {dag : Dag} {block : BlockHash} {x : BlockEntry}
    (hx : x ∈ selectedChain dag block) : x ∈ dag := by
  induction dag generalizing block with
  | nil => simp [selectedChain, chainFold] at hx
  | cons e dag ih =>
    rw [selectedChain, chainFold] at hx
    split at hx
    · rcases mem_cons.mp hx with rfl | hx
      · exact mem_cons_self
      · exact mem_cons_of_mem e (ih hx)
    · exact mem_cons_of_mem e (ih hx)

namespace Built

variable {p : HeaderProcessor} {admitted : Dag → BlockInput → Prop} {dag dag' : Dag}

theorem workBounded (h : Built p admitted dag) : ∀ e ∈ dag, WorkBounded e.data := by
  induction h with
  | genesis =>
    intro e he
    rw [mem_singleton.mp he]
    constructor <;> simp [genesisEntry, GhostdagData.genesis]
  | add hdag _ _ _ hprocess ih =>
    obtain ⟨data, window, hdata, -, rfl⟩ := HeaderProcessor.processHeader_eq_ok hprocess
    obtain ⟨parent, mergeset, sources, hcolors⟩ := hdag.colors hdata
    have hparent := ih parent (Dag.find?_eq_some hcolors.found).1
    exact forall_mem_cons.mpr ⟨(hcolors.exactSums hparent).2, ih⟩

/-- What holds of genesis and passes from a selected parent to its child, given the exact sums of
the child, holds of every block. -/
theorem chain_induction {Q : Dag → BlockHash → Prop} (hdag : Built p admitted dag)
    (hnil : ∀ block, Q [] block) (hgenesis : ∀ header, Q [genesisEntry p header] p.genesisHash)
    (hold : ∀ dag e block, Built p admitted (e :: dag) → Q dag block → e.hash ≠ block →
      Q (e :: dag) block)
    (hnew : ∀ dag e parent, Built p admitted (e :: dag) →
      ExactSums p.toGhostdagManager dag e parent → WorkBounded parent.data → Q dag parent.hash →
        Q (e :: dag) e.hash)
    (block : BlockHash) : Q dag block := by
  induction hdag generalizing block with
  | @genesis header horigin =>
    by_cases hblock : p.genesisHash = block
    · exact hblock ▸ hgenesis header
    · exact hold [] _ block (.genesis horigin) (hnil block) hblock
  | @add dag _ b hdag horigin hfresh hadmitted hprocess ih =>
    have hbuilt := hdag.add horigin hfresh hadmitted hprocess
    obtain ⟨data, window, hdata, -, rfl⟩ := HeaderProcessor.processHeader_eq_ok hprocess
    obtain ⟨parent, mergeset, sources, hcolors⟩ := hdag.colors hdata
    have hparent := hdag.workBounded parent (Dag.find?_eq_some hcolors.found).1
    by_cases hblock : b.hash = block
    · exact hblock ▸ hnew _ _ parent hbuilt (hcolors.exactSums hparent).1 hparent (ih _)
    · exact hold _ _ block hbuilt (ih block) hblock

end Built

theorem selectedChain_cons_self (e : BlockEntry) (dag : Dag) :
    selectedChain (e :: dag) e.hash = e :: selectedChain dag e.data.selectedParent :=
  chainFold_cons_self _ _ e dag

theorem selectedChain_cons_of_ne {e : BlockEntry} {block : BlockHash} (h : e.hash ≠ block)
    (dag : Dag) : selectedChain (e :: dag) block = selectedChain dag block :=
  chainFold_cons_of_ne _ _ h dag

theorem selectedChain_eq_cons {dag : Dag} {e : BlockEntry} (he : dag.find? e.hash = some e) :
    ∃ chain, selectedChain dag e.hash = e :: chain := by
  induction dag with
  | nil => cases he
  | cons x dag ih =>
    rw [Dag.find?_cons] at he
    split at he
    · cases he
      exact ⟨_, selectedChain_cons_self e dag⟩
    · next hne =>
      rw [selectedChain_cons_of_ne hne]
      exact ih he

namespace ExactSums

variable {m : GhostdagManager} {older : Dag} {e parent : BlockEntry}

theorem parent_hash (h : ExactSums m older e parent) : parent.hash = e.data.selectedParent :=
  (Dag.find?_eq_some h.found).2

theorem found_hash (h : ExactSums m older e parent) : older.find? parent.hash = some parent :=
  h.parent_hash ▸ h.found

theorem blueWork_le (h : ExactSums m older e parent) (hparent : WorkBounded parent.data) :
    parent.data.blueWork ≤ e.data.blueWork := by
  have hcapped := hparent.capped
  have hhash := h.hash_eq
  have hcompute := h.compute_eq
  rw [hparent.effective, h.effective_eq]
  omega

theorem blueWork_le_add (h : ExactSums m older e parent) (hparent : WorkBounded parent.data) :
    e.data.blueWork ≤ parent.data.blueWork + m.hashDelta older e (blueSources older e) +
      m.computeDelta older e (blueSources older e) := by
  have hhash := h.hash_eq
  have hcompute := h.compute_eq
  rw [hparent.effective, h.effective_eq]
  omega

end ExactSums

namespace Built

variable {p : HeaderProcessor} {admitted : Dag → BlockInput → Prop} {dag : Dag}

theorem pairwise_blueWork (h : Built p admitted dag) (block : BlockHash) :
    (selectedChain dag block).Pairwise fun e x => x.data.blueWork ≤ e.data.blueWork := by
  refine h.chain_induction (Q := fun dag block => (selectedChain dag block).Pairwise
    fun e x => x.data.blueWork ≤ e.data.blueWork) (fun _ => .nil) (fun header => ?_)
    (fun dag e block _ ih hne => ?_) (fun dag e parent _ hexact hparent ih => ?_) block
  · change (selectedChain [genesisEntry p header] (genesisEntry p header).hash).Pairwise _
    rw [selectedChain_cons_self]
    exact pairwise_singleton _ _
  · rwa [selectedChain_cons_of_ne hne]
  · rw [selectedChain_cons_self, ← hexact.parent_hash]
    refine ih.cons fun x hx => ?_
    have hstep := hexact.blueWork_le hparent
    obtain ⟨chain, hchain⟩ := selectedChain_eq_cons hexact.found_hash
    rw [hchain] at hx ih
    rcases mem_cons.mp hx with rfl | hx
    · exact hstep
    · exact ((pairwise_cons.mp ih).1 x hx).trans hstep

theorem exactSums_of_mem_chainSteps (h : Built p admitted dag) (block : BlockHash) :
    ∀ s ∈ chainSteps dag block, s.1 ≠ [] → ∃ parent, ExactSums p.toGhostdagManager s.1 s.2 parent ∧
      s.2.data.blueWork ≤ parent.data.blueWork +
        p.hashDelta s.1 s.2 (blueSources s.1 s.2) +
          p.computeDelta s.1 s.2 (blueSources s.1 s.2) := by
  refine h.chain_induction (Q := fun dag block => ∀ s ∈ chainSteps dag block, s.1 ≠ [] →
    ∃ parent, ExactSums p.toGhostdagManager s.1 s.2 parent ∧ s.2.data.blueWork ≤
      parent.data.blueWork + p.hashDelta s.1 s.2 (blueSources s.1 s.2) +
        p.computeDelta s.1 s.2 (blueSources s.1 s.2)) (fun _ s hs => ?_) (fun header s hs hne => ?_)
    (fun dag e block _ ih hne => ?_) (fun dag e parent _ hexact hparent ih s hs hne => ?_) block
  · cases hs
  · rw [chainSteps, show p.genesisHash = (genesisEntry p header).hash from rfl,
      chainFold_cons_self] at hs
    rw [mem_singleton.mp hs] at hne
    exact absurd rfl hne
  · rwa [chainSteps, chainFold_cons_of_ne _ _ hne]
  · rw [chainSteps, chainFold_cons_self, ← hexact.parent_hash] at hs
    rcases mem_cons.mp hs with rfl | hs
    · exact ⟨parent, hexact, hexact.blueWork_le_add hparent⟩
    · exact ih s hs hne

theorem computeCredited_cons_of_mem {e x : BlockEntry} (h : Built p admitted (e :: dag))
    (hx : x ∈ dag) : p.computeCredited (e :: dag) x.hash = p.computeCredited dag x.hash :=
  chainFold_cons_of_ne _ _ (h.hash_ne_of_mem hx) dag

theorem blueComputeWork_eq (h : Built p admitted dag) (block : BlockHash)
    (hcap : ∀ e ∈ selectedChain dag block,
      p.computeCredited dag e.hash ≤ 4 * e.data.blueHashWork) :
    ∀ e ∈ selectedChain dag block, e.data.blueComputeWork = p.computeCredited dag e.hash := by
  revert hcap
  refine h.chain_induction (Q := fun dag block => (∀ e ∈ selectedChain dag block,
    p.computeCredited dag e.hash ≤ 4 * e.data.blueHashWork) → ∀ e ∈ selectedChain dag block,
    e.data.blueComputeWork = p.computeCredited dag e.hash) (fun _ _ e he => ?_)
    (fun header _ e he => ?_) (fun dag e block hbuilt ih hne => ?_)
    (fun dag e parent hbuilt hexact hparent ih hcap x hx => ?_) block
  · cases he
  · rw [show p.genesisHash = (genesisEntry p header).hash from rfl, selectedChain_cons_self] at he
    rw [mem_singleton.mp he, GhostdagManager.computeCredited, chainFold_cons_self]
    rfl
  · rw [selectedChain_cons_of_ne hne]
    intro hcap x hx
    have hcredited (x : BlockEntry) (hx : x ∈ selectedChain dag block) :=
      hbuilt.computeCredited_cons_of_mem (mem_of_mem_selectedChain hx)
    rw [hcredited x hx]
    exact ih (fun x hx => hcredited x hx ▸ hcap x hx) x hx
  · rw [selectedChain_cons_self, ← hexact.parent_hash] at hcap hx
    have hcredited (x : BlockEntry) (hx : x ∈ selectedChain dag parent.hash) :=
      hbuilt.computeCredited_cons_of_mem (mem_of_mem_selectedChain hx)
    have hbelow := ih fun x hx => hcredited x hx ▸ hcap x (mem_cons_of_mem e hx)
    rcases mem_cons.mp hx with rfl | hx
    · -- the selected parent stores all that was credited below
      obtain ⟨chain, hchain⟩ := selectedChain_eq_cons hexact.found_hash
      have hparent_eq := hbelow parent (hchain ▸ mem_cons_self)
      have hle := hcap x mem_cons_self
      rw [GhostdagManager.computeCredited, chainFold_cons_self, ← hexact.parent_hash] at hle ⊢
      rw [hexact.compute_eq, hparent_eq, add_comm]
      exact min_eq_left hle
    · rw [hcredited x hx]
      exact hbelow x hx

end Built

/-- **The compute cap.** Along every selected chain `H ≤ E ≤ 5 H` with `E = H + min C (4 H)`,
effective work never decreases, no sum exceeds the blue-work type, and the compute component is the
sum of everything credited as long as that stays within the cap. -/
theorem componentWork_capped {p : HeaderProcessor} {dag : Dag}
    (hdag : Built p (fun _ _ => True) dag) (block : BlockHash) :
    (∀ e ∈ selectedChain dag block, e.data.blueHashWork ≤ e.data.blueWork ∧
      e.data.blueWork ≤ 5 * e.data.blueHashWork ∧
      e.data.blueWork =
        e.data.blueHashWork + min e.data.blueComputeWork (4 * e.data.blueHashWork)) ∧
    ((selectedChain dag block).Pairwise fun e x => x.data.blueWork ≤ e.data.blueWork) ∧
    (∀ s ∈ chainSteps dag block, s.1 ≠ [] → ∃ parent,
      ExactSums p.toGhostdagManager s.1 s.2 parent ∧ s.2.data.blueWork ≤ parent.data.blueWork +
        p.hashDelta s.1 s.2 (blueSources s.1 s.2) +
        p.computeDelta s.1 s.2 (blueSources s.1 s.2)) ∧
    ((∀ e ∈ selectedChain dag block, p.computeCredited dag e.hash ≤ 4 * e.data.blueHashWork) →
      ∀ e ∈ selectedChain dag block, e.data.blueComputeWork = p.computeCredited dag e.hash) := by
  refine ⟨fun e he => ?_, hdag.pairwise_blueWork block, hdag.exactSums_of_mem_chainSteps block,
    hdag.blueComputeWork_eq block⟩
  have hbounded := hdag.workBounded e (mem_of_mem_selectedChain he)
  have hcapped := hbounded.capped
  have heffective := hbounded.effective
  omega

/-- A replica block between hash blocks: its compute work is credited in full. -/
theorem componentWork_sample : ∃ dag, Built (sampleProcessor 1) (fun _ _ => True) dag ∧
    ((selectedChain dag 4).map fun e => (e.data.blueHashWork, e.data.blueComputeWork)) =
      [(4, 2), (2, 2), (2, 0), (0, 0)] ∧
    (selectedChain dag 4).Pairwise fun e x => x.data.blueWork ≤ e.data.blueWork := by
  obtain ⟨dag, hdag, hchain⟩ : ∃ dag, Built (sampleProcessor 1) (fun _ _ => True) dag ∧
      ((selectedChain dag 4).map fun e => (e.data.blueHashWork, e.data.blueComputeWork)) =
        [(4, 2), (2, 2), (2, 0), (0, 0)] :=
    exists_built_sampleDag (fun _ _ => true) [⟨2, [1], replicaHeader 0 7⟩, ⟨3, [2], hashHeader 1⟩,
      ⟨4, [3], hashHeader 2⟩] (fun _ _ _ => trivial) (by decide +kernel)
  exact ⟨dag, hdag, hchain, (componentWork_capped hdag 4).2.1⟩

end Misaka.Ghostdag
