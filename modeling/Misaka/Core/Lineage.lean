import Mathlib.Data.List.Infix

/-!
# Lineages in a ranked forest

Parent pointers whose rank falls along every edge form a forest. The lineage of a node lists the
node and its ancestors, nearest first; the lineage of an ancestor is a tail of it.
-/

namespace Misaka.Core

open List

structure Forest (α : Type) where
  parent : α → Option α
  rank : α → ℕ
  rank_lt : ∀ {a p}, parent a = some p → rank p < rank a

namespace Forest

variable {α : Type} (t : Forest α)

def ancestors : ℕ → α → List α
  | 0, _ => []
  | n + 1, a => a :: (t.parent a).elim [] (ancestors n)

def lineage (a : α) : List α := t.ancestors (t.rank a + 1) a

variable {t}

theorem ancestors_eq {n m : ℕ} {a : α} (hn : t.rank a < n) (hm : t.rank a < m) :
    t.ancestors n a = t.ancestors m a := by
  induction n generalizing m a with
  | zero => exact absurd hn (Nat.not_lt_zero _)
  | succ n ih =>
    obtain ⟨m, rfl⟩ : ∃ k, m = k + 1 := ⟨m - 1, by omega⟩
    rw [ancestors, ancestors]
    cases hp : t.parent a with
    | none => rfl
    | some p =>
      have hlt := t.rank_lt hp
      exact congrArg (a :: ·) (ih (by omega) (by omega))

theorem lineage_eq (a : α) : t.lineage a = a :: (t.parent a).elim [] t.lineage := by
  rw [lineage, ancestors]
  cases hp : t.parent a with
  | none => rfl
  | some p =>
    exact congrArg (a :: ·) (ancestors_eq (t.rank_lt hp) (Nat.lt_succ_self _))

theorem lineage_of_parent {a p : α} (h : t.parent a = some p) :
    t.lineage a = a :: t.lineage p := by
  rw [lineage_eq, h]
  rfl

/-- What passes from the parent of a node to the node holds everywhere. -/
theorem induction_parent {Q : α → Prop} (h : ∀ a, (∀ p, t.parent a = some p → Q p) → Q a) (a : α) :
    Q a := by
  induction hn : t.rank a using Nat.strong_induction_on generalizing a with
  | _ n ih => exact h a fun p hp => ih _ (hn ▸ t.rank_lt hp) p rfl

theorem self_mem_lineage (a : α) : a ∈ t.lineage a := by
  rw [lineage_eq]
  exact mem_cons_self

theorem parent_mem_lineage {a p : α} (h : t.parent a = some p) : p ∈ t.lineage a := by
  rw [lineage_of_parent h]
  exact mem_cons_of_mem a (self_mem_lineage p)

theorem lineage_of_append {a b : α} {nearer farther : List α}
    (h : t.lineage a = nearer ++ b :: farther) : b :: farther = t.lineage b := by
  induction nearer generalizing a with
  | nil =>
    rw [lineage_eq] at h
    obtain ⟨rfl, -⟩ := List.cons.inj h
    rw [← lineage_eq] at h
    exact h.symm
  | cons c nearer ih =>
    rw [lineage_eq] at h
    have htail := (List.cons.inj h).2
    cases hp : t.parent a with
    | none =>
      rw [hp] at htail
      simp at htail
    | some p =>
      rw [hp] at htail
      exact ih htail

theorem mem_lineage_trans {a b c : α} (hab : b ∈ t.lineage a) (hbc : c ∈ t.lineage b) :
    c ∈ t.lineage a := by
  obtain ⟨nearer, farther, h⟩ := append_of_mem hab
  rw [h, mem_append, lineage_of_append h]
  exact .inr hbc

/-- What passes from a node to its parent holds along the whole lineage. -/
theorem forall_mem_lineage {Q : α → Prop} {a : α} (ha : Q a)
    (h : ∀ x y, Q x → t.parent x = some y → Q y) : ∀ x ∈ t.lineage a, Q x := by
  induction a using t.induction_parent with
  | h a ih =>
    cases hp : t.parent a with
    | none => simpa [lineage_eq, hp] using ha
    | some p =>
      rw [lineage_of_parent hp]
      exact forall_mem_cons.mpr ⟨ha, ih p hp (h a p ha hp)⟩

theorem rank_le_of_mem_lineage {a b : α} (h : b ∈ t.lineage a) : t.rank b ≤ t.rank a :=
  forall_mem_lineage (Q := fun x => t.rank x ≤ t.rank a) le_rfl
    (fun _ _ hle hp => (t.rank_lt hp).le.trans hle) b h

theorem pairwise_rank_lineage (a : α) : (t.lineage a).Pairwise fun x y => t.rank y < t.rank x := by
  induction a using t.induction_parent with
  | h a ih =>
    cases hp : t.parent a with
    | none => simp [lineage_eq, hp]
    | some p =>
      rw [lineage_of_parent hp]
      exact pairwise_cons.mpr
        ⟨fun x hx => (rank_le_of_mem_lineage hx).trans_lt (t.rank_lt hp), ih p hp⟩

theorem mem_lineage_of_notMem {a b c : α} (ha : a ∈ t.lineage c) (hb : b ∈ t.lineage c)
    (h : a ∉ t.lineage b) : b ∈ t.lineage a := by
  obtain ⟨nearer, farther, hsplit⟩ := append_of_mem hb
  rw [hsplit, mem_append, lineage_of_append hsplit] at ha
  obtain ⟨front, back, rfl⟩ := append_of_mem (ha.resolve_right h)
  rw [append_assoc, cons_append] at hsplit
  rw [← lineage_of_append hsplit]
  simp

variable (t) [DecidableEq α]

/-- The nodes above `a` up to `b`, nearest to `a` first. -/
def pathAbove (a b : α) : List α := ((t.lineage b).takeWhile (· ≠ a)).reverse

variable {t}

theorem lineage_eq_pathAbove {a b : α} (h : a ∈ t.lineage b) :
    t.lineage b = (t.pathAbove a b).reverse ++ t.lineage a := by
  obtain ⟨nearer, farther, hsplit, hfirst⟩ := eq_append_cons_of_mem h
  rw [← lineage_of_append hsplit, pathAbove, hsplit, takeWhile_append_of_pos, takeWhile_cons_of_neg,
    append_nil, reverse_reverse]
  · simp
  · intro x hx
    exact decide_eq_true fun heq => hfirst (heq ▸ hx)

end Forest

end Misaka.Core
