import Misaka.Chain.BlueWork
import Misaka.Chain.Transaction
import Misaka.Core.FirstBy
import Misaka.Core.Lineage

/-!
# Comparing pruning proofs

`compare_proofs_inner` of `consensus/src/processes/pruning_proof/validate.rs`, over the contexts
that `ProofContext::from_proof` builds: at each level a GHOSTDAG store and its selected tip.
-/

namespace Misaka.Pruning

open Misaka.Core List

/-- `ProofLevelContext`: the selected parents and blue scores of the store as a ranked forest. -/
structure ProofLevel extends Forest BlockHash where
  blueWork : BlockHash → ℕ
  stored : BlockHash → Bool
  selectedTip : BlockHash
  stored_tip : stored selectedTip

structure ProofContext where
  level : ℕ → ProofLevel
  ppHash : BlockHash
  ppBlueWork : ℕ

inductive ProofWeakness where
  | insufficientBlueWork
  | notEnoughHeaders
  deriving DecidableEq, Repr

namespace ProofLevel

/-- The walk from the challenger's selected tip to the first block that the defender has. -/
def findCommonAncestor (challenger defender : ProofLevel) : Option BlockHash :=
  (challenger.lineage challenger.selectedTip).find? defender.stored

/-- Where the challenger's selected chain meets the defender's store: the defender has this block of
the chain and none nearer to the tip. -/
def Meets (challenger defender : ProofLevel) (block : BlockHash) : Prop :=
  defender.stored block ∧ ∃ nearer farther,
    challenger.lineage challenger.selectedTip = nearer ++ block :: farther ∧
      ∀ x ∈ nearer, defender.stored x = false

/-- The defender has no block of the challenger's selected chain. -/
def Apart (challenger defender : ProofLevel) : Prop :=
  ∀ x ∈ challenger.lineage challenger.selectedTip, defender.stored x = false

theorem findCommonAncestor_eq_some {challenger defender : ProofLevel} {block : BlockHash} :
    challenger.findCommonAncestor defender = some block ↔ challenger.Meets defender block := by
  simp [findCommonAncestor, find?_eq_some_iff_append, Meets]

theorem findCommonAncestor_eq_none {challenger defender : ProofLevel} :
    challenger.findCommonAncestor defender = none ↔ challenger.Apart defender := by
  simp [findCommonAncestor, Apart]

/-- The work of a level from an ancestor to its selected tip. -/
def blueWorkDiff (l : ProofLevel) (ancestor : BlockHash) : ℕ :=
  l.blueWork l.selectedTip - l.blueWork ancestor

/-- The blue score of the level's selected tip. -/
def blueScore (l : ProofLevel) : ℕ := l.rank l.selectedTip

end ProofLevel

/-- The work from an ancestor to the relay block. -/
def ProofContext.workSince (c : ProofContext) (relayBlueWork level : ℕ)
    (ancestor : BlockHash) : ℕ :=
  blueSaturatingAdd ((c.level level).blueWorkDiff ancestor) (relayBlueWork - c.ppBlueWork)

structure PruningProofManager where
  maxBlockLevel : ℕ
  pruningProofM : ℕ
  genesisHash : BlockHash

namespace PruningProofManager

variable (m : PruningProofManager)

/-- A level with at least `2M` blue blocks. -/
def full (c : ProofContext) (level : ℕ) : Bool := 2 * m.pruningProofM ≤ (c.level level).blueScore

/-- The first full level of the challenger with a common ancestor, and the ancestor. -/
def decidingAncestor (defender challenger : ProofContext) : Option (ℕ × BlockHash) :=
  (range (m.maxBlockLevel + 1)).findSome? fun level =>
    if m.full challenger level then
      ((challenger.level level).findCommonAncestor (defender.level level)).map (level, ·)
    else none

/-- Some level is full in the challenger's proof and not in the defender's. -/
def hasFullerLevel (defender challenger : ProofContext) : Bool :=
  (range (m.maxBlockLevel + 1)).reverse.any fun level =>
    m.full challenger level && !m.full defender level

/-- Whether the challenger supersedes the defender. -/
def compareProofsInner (defender challenger : ProofContext)
    (defenderRelayBlueWork challengerRelayBlueWork : ℕ) : Except ProofWeakness Unit :=
  match m.decidingAncestor defender challenger with
  | some (level, ancestor) =>
    if challenger.workSince challengerRelayBlueWork level ancestor ≤
        defender.workSince defenderRelayBlueWork level ancestor then .error .insufficientBlueWork
    else .ok ()
  | none =>
    if defender.ppHash = m.genesisHash then .ok ()
    else if m.hasFullerLevel defender challenger then .ok ()
    else .error .notEnoughHeaders

/-- The two proofs meet: at the lowest full level of the challenger whose selected chain has a block
that the defender stores. -/
structure MeetsAt (defender challenger : ProofContext) (p : ℕ × BlockHash) : Prop where
  le : p.1 ≤ m.maxBlockLevel
  full : m.full challenger p.1
  meets : (challenger.level p.1).Meets (defender.level p.1) p.2
  below : ∀ l < p.1, m.full challenger l → (challenger.level l).Apart (defender.level l)

/-- At no full level of the challenger the defender stores a block of its selected chain. -/
def NeverMeets (defender challenger : ProofContext) : Prop :=
  ∀ l ≤ m.maxBlockLevel, m.full challenger l → (challenger.level l).Apart (defender.level l)

/-- What decides without a common ancestor: the defender is at genesis or lacks a full level that
the challenger has. -/
def LastRule (defender challenger : ProofContext) : Prop :=
  defender.ppHash = m.genesisHash ∨
    ∃ l ≤ m.maxBlockLevel, m.full challenger l ∧ m.full defender l = false

variable {m} {a b : ProofContext} {wa wb : ℕ} {p : ℕ × BlockHash}

/-- `a` has more work than `b` since the block, with the work up to the relay blocks. -/
def Ahead (a b : ProofContext) (wa wb : ℕ) (p : ℕ × BlockHash) : Prop :=
  b.workSince wb p.1 p.2 < a.workSince wa p.1 p.2

theorem decidingAncestor_eq_some : m.decidingAncestor b a = some p ↔ m.MeetsAt b a p := by
  have hnone : ∀ l, (if m.full a l then
      ((a.level l).findCommonAncestor (b.level l)).map (l, ·) else none) = none ↔
        (m.full a l → (a.level l).Apart (b.level l)) := fun l => by
    split_ifs with hfull <;> simp [hfull, ProofLevel.findCommonAncestor_eq_none]
  rw [decidingAncestor, findSome?_range_eq_some]
  constructor
  · rintro ⟨l, hl, hsome, hbefore⟩
    split_ifs at hsome with hfull
    obtain ⟨block, hblock, rfl⟩ := Option.map_eq_some_iff.mp hsome
    exact ⟨Nat.lt_succ_iff.mp hl, hfull, ProofLevel.findCommonAncestor_eq_some.mp hblock,
      fun l' hl' => (hnone l').mp (hbefore l' hl')⟩
  · rintro ⟨hle, hfull, hmeets, hbelow⟩
    refine ⟨p.1, Nat.lt_succ_of_le hle, ?_, fun l hl => (hnone l).mpr (hbelow l hl)⟩
    rw [if_pos hfull, ProofLevel.findCommonAncestor_eq_some.mpr hmeets]
    rfl

theorem decidingAncestor_eq_none : m.decidingAncestor b a = none ↔ m.NeverMeets b a := by
  simp only [decidingAncestor, findSome?_eq_none_iff, mem_range, Nat.lt_succ_iff, NeverMeets]
  refine forall₂_congr fun l _ => ?_
  split_ifs with hfull <;> simp [hfull, ProofLevel.findCommonAncestor_eq_none]

theorem hasFullerLevel_iff : m.hasFullerLevel b a ↔
    ∃ l ≤ m.maxBlockLevel, m.full a l ∧ m.full b l = false := by
  simp only [hasFullerLevel, any_reverse, any_eq_true, mem_range, Nat.lt_succ_iff,
    Bool.and_eq_true, Bool.not_eq_true']

theorem compareProofsInner_eq_ok : m.compareProofsInner b a wb wa = .ok () ↔
    (∃ p, m.MeetsAt b a p ∧ Ahead a b wa wb p) ∨ m.NeverMeets b a ∧ m.LastRule b a := by
  simp only [← decidingAncestor_eq_some, ← decidingAncestor_eq_none, LastRule,
    ← hasFullerLevel_iff]
  unfold compareProofsInner
  split
  · next level ancestor h => simp [h, Ahead]
  · next h => split_ifs <;> simp_all

/-- At a full level a proof has its own selected tip in common with itself. -/
theorem neverMeets_self : m.NeverMeets a a ↔ ∀ l ≤ m.maxBlockLevel, m.full a l = false := by
  refine forall₂_congr fun l _ => ⟨fun h => ?_, fun h hfull => by simp [h] at hfull⟩
  by_contra hfull
  have htip := h (by simpa using hfull) _ (Forest.self_mem_lineage _)
  simp [(a.level l).stored_tip] at htip

theorem workSince_mono {w w' level : ℕ} {ancestor : BlockHash} (h : w ≤ w') :
    a.workSince w level ancestor ≤ a.workSince w' level ancestor := by
  simp only [ProofContext.workSince, blueSaturatingAdd_eq_min]
  omega

/-- A level that holds genesis alone. -/
def genesisLevel : ProofLevel where
  parent _ := none
  rank _ := 1
  rank_lt := by simp
  blueWork _ := 0
  stored := (· == 1)
  selectedTip := 1
  stored_tip := rfl

/-- A level that is a chain: a root, then the blocks after `root + skipped` up to the tip. -/
def chainLevel (root skipped size : ℕ) : ProofLevel where
  parent := fun x : ℕ => if x = root + skipped + 1 then some root
    else if root + skipped < x then some (x - 1) else none
  rank := fun x : ℕ => if x ≤ root + skipped then 1 else x - (root + skipped) + 1
  rank_lt := by
    rintro (x : ℕ) (y : ℕ) h
    split_ifs at h <;> cases h <;> split_ifs <;> omega
  blueWork x := x
  stored := fun x : ℕ => x = root ∨ root + skipped < x ∧ x ≤ root + skipped + 1 + size
  selectedTip := root + skipped + 1 + size
  stored_tip := by simp; omega

theorem blueScore_chainLevel (root skipped size : ℕ) :
    (chainLevel root skipped size).blueScore = size + 2 := by
  simp only [chainLevel, ProofLevel.blueScore]
  split_ifs <;> omega

theorem stored_of_mem_chainLevel {root skipped size : ℕ} :
    ∀ x ∈ (chainLevel root skipped size).lineage (chainLevel root skipped size).selectedTip,
      (chainLevel root skipped size).stored x := by
  refine Forest.forall_mem_lineage (chainLevel root skipped size).stored_tip ?_
  rintro (x : ℕ) (y : ℕ) hx hy
  simp only [chainLevel, decide_eq_true_eq] at hx hy ⊢
  split_ifs at hy <;> cases hy <;> omega

theorem apart_chainLevel {root skipped size root' skipped' size' : ℕ}
    (h : ∀ x : ℕ, x = root ∨ root + skipped < x ∧ x ≤ root + skipped + 1 + size →
      ¬(x = root' ∨ root' + skipped' < x ∧ x ≤ root' + skipped' + 1 + size')) :
    (chainLevel root skipped size).Apart (chainLevel root' skipped' size') :=
  fun x hx => decide_eq_false (h x (of_decide_eq_true (stored_of_mem_chainLevel x hx)))

/-- Full at levels 0 and 1 and, with fewer blocks, at genesis from level 2 on. -/
def fullAtOne : ProofContext where
  level
    | 0 => chainLevel 4997 1002 1998
    | 1 => chainLevel 2497 1502 1998
    | 2 => chainLevel 1 1998 1498
    | _ => genesisLevel
  ppHash := 7998
  ppBlueWork := 7998

/-- Full at levels 0 and 2, where level 1 goes back to genesis with fewer blocks. -/
def fullAtTwo : ProofContext where
  level
    | 0 => chainLevel 14997 1002 1998
    | 1 => chainLevel 1 14995 1001
    | 2 => chainLevel 12497 1502 1998
    | 3 => chainLevel 1 11998 1498
    | _ => genesisLevel
  ppHash := 17998
  ppBlueWork := 17998

/-- The context of the proof whose every level holds genesis alone. -/
def genesisContext : ProofContext := ⟨fun _ => genesisLevel, 1, 0⟩

end PruningProofManager

end Misaka.Pruning
