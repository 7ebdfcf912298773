import Misaka.Chain.Utxo
import Misaka.Core.Run

/-!
# The algebra of UTXO diffs

`with_diff_in_place` composes a diff with a further one, `diff_from` leads from one diff to another.
Both compare an outpoint and a DAA score and never the entry itself, so what a diff does is decided
outpoint by outpoint, where it holds at most one score on each side: a `Cell`.
-/

namespace Misaka

open Misaka.Core Option Table

/-- What a diff holds at one outpoint. -/
structure Cell (σ : Type*) where
  add : Option σ
  remove : Option σ
  deriving DecidableEq

namespace Cell

variable {σ : Type*}

def empty : Cell σ := ⟨none, none⟩

/-- The cell of `as_reversed`. -/
def reversed (c : Cell σ) : Cell σ := ⟨c.remove, c.add⟩

/-- What becomes of a score of the base. -/
def apply (c : Cell σ) (x : Option σ) : Option σ := c.add.or (if c.remove.isSome then none else x)

/-- A cell that fits its base, and what it makes of it. -/
inductive Step : Option σ → Cell σ → Option σ → Prop
  | keeps {x : Option σ} : Step x ⟨none, none⟩ x
  | removes {r : σ} : Step (some r) ⟨none, some r⟩ none
  | adds {a : σ} : Step none ⟨some a, none⟩ (some a)
  | replaces {r a : σ} : Step (some r) ⟨some a, some r⟩ (some a)

variable {x y z : Option σ} {c c' : Cell σ}

theorem Step.apply_eq (h : Step x c y) : c.apply x = y := by cases h <;> rfl

theorem Step.before (h : Step x c y) :
    (∀ r, c.remove = some r → x = some r) ∧ (c.add.isSome → x = none ∨ c.remove.isSome) := by
  cases h <;> simp

theorem Step.reversed (h : Step x c y) : Step y c.reversed x := by
  cases h with
  | keeps => exact .keeps
  | removes => exact .adds
  | adds => exact .removes
  | replaces => exact .replaces

/-- One score on both sides. -/
def Doubled (c : Cell σ) : Prop := c.add.isSome ∧ c.add = c.remove

theorem Step.checks (h : Step x c y) (h' : Step y c' z) :
    (∀ r, c'.remove = some r → c.remove.isSome → c.add = some r) ∧
      ∀ a, c'.add.isSome → c.add = some a → c'.remove = some a := by
  cases h <;> cases h' <;> simp

/-- Of two diffs of one base, the one that adds over a removal of the other removes the same entry;
the check then only asks that it does not add that entry again. -/
theorem Step.crossing_iff {y' : Option σ} (h : Step x c y) (h' : Step x c' y') :
    (∀ r a, c.remove = some r → c'.add = some a → a ≠ r ∧ (c.add = some a ∨ c'.remove = some r)) ↔
      ¬(c'.Doubled ∧ c.remove.isSome) := by
  cases h <;> cases h' <;> simp [Doubled]

theorem Step.remove_eq {y' : Option σ} (h : Step x c y) (h' : Step x c' y') {r r' : σ}
    (hr : c.remove = some r) (hr' : c'.remove = some r') : r = r' := by
  cases h <;> cases h' <;> simp_all

theorem Step.remove_isSome_eq {y' : Option σ} (h : Step x c y) (h' : Step x c' y')
    (ha : c.add.isSome) (ha' : c'.add.isSome) : c.remove.isSome = c'.remove.isSome := by
  cases h <;> cases h' <;> simp_all

variable [DecidableEq σ]

/-- `this`, unless `other` is the same. -/
def without (this other : Option σ) : Option σ := this.filter (other ≠ some ·)

/-- `this`, if `other` is the same. -/
def within (this other : Option σ) : Option σ := this.filter (other = some ·)

@[simp] theorem without_none (other : Option σ) : without none other = none := rfl

@[simp] theorem without_some (s : σ) (other : Option σ) :
    without (some s) other = if other = some s then none else some s := by
  by_cases h : other = some s <;> simp [without, filter_some, h]

@[simp] theorem within_none (other : Option σ) : within none other = none := rfl

@[simp] theorem within_some (s : σ) (other : Option σ) :
    within (some s) other = if other = some s then some s else none := by
  by_cases h : other = some s <;> simp [within, filter_some, h]

/-- `with_diff_in_place` at one outpoint. -/
def withDiff (c c' : Cell σ) : Cell σ :=
  let removed := (without c'.remove c.add).or c.remove
  let added := if (within c'.remove c.add).isSome then none else c.add
  ⟨(without c'.add removed).or added, if (within c'.add removed).isSome then none else removed⟩

/-- `diff_from` at one outpoint. -/
def diffFrom (c c' : Cell σ) : Cell σ :=
  ⟨(without c'.add c.add).or (without c.remove c'.remove),
    (without c'.remove c.remove).or (without c.add c'.add)⟩

instance (c : Cell σ) : Decidable c.Doubled := inferInstanceAs (Decidable (_ ∧ _))

/-- A doubled cell has no effect. -/
def settled (c : Cell σ) : Cell σ := if c.Doubled then empty else c

theorem Step.settled_eq (h : Step x c y) : c.settled = if x = y then empty else ⟨y, x⟩ := by
  cases h with
  | keeps => simp [settled, Doubled, empty]
  | removes => simp [settled, Doubled]
  | adds => simp [settled, Doubled]
  | @replaces r a => simp [settled, Doubled, eq_comm]

theorem Step.withDiff (h : Step x c y) (h' : Step y c' z) : Step x (c.withDiff c') z := by
  cases h with
  | keeps =>
    cases h' with
    | keeps => exact .keeps
    | removes => exact .removes
    | adds => exact .adds
    | @replaces r a =>
      -- The entry that comes back is recognised by its score alone.
      by_cases h : r = a
      · simpa [Cell.withDiff, h] using Step.keeps
      · simpa [Cell.withDiff, h] using Step.replaces
  | @removes r =>
    cases h' with
    | keeps => exact .removes
    | @adds a =>
      by_cases h : r = a
      · simpa [Cell.withDiff, h] using Step.keeps
      · simpa [Cell.withDiff, h] using Step.replaces
  | adds =>
    cases h' with
    | keeps => exact .adds
    | removes => simpa [Cell.withDiff] using Step.keeps
    | replaces => simpa [Cell.withDiff] using Step.adds
  | @replaces r a =>
    cases h' with
    | keeps => exact .replaces
    | removes => simpa [Cell.withDiff] using Step.removes
    | @replaces _ a' =>
      by_cases h : r = a'
      · simpa [Cell.withDiff, h] using Step.keeps
      · simpa [Cell.withDiff, h] using Step.replaces

theorem Step.not_doubled_withDiff (h : Step x c y) (h' : Step y c' z) (hc : ¬c.Doubled) :
    ¬(c.withDiff c').Doubled := by
  cases h <;> cases h' <;> simp_all [Doubled, Cell.withDiff] <;> grind

theorem Step.withDiff_reversed (h : Step x c y) : c.withDiff c.reversed = empty := by
  cases h <;> simp [Cell.withDiff, Cell.reversed, empty]

theorem Step.diffFrom {y' : Option σ} (h : Step x c y) (h' : Step x c' y') :
    Step y (c.diffFrom c') y' := by
  cases h with
  | keeps =>
    cases h' with
    | keeps => exact .keeps
    | removes => exact .removes
    | adds => exact .adds
    | replaces => exact .replaces
  | removes =>
    cases h' with
    | keeps => exact .adds
    | removes => simpa [Cell.diffFrom] using Step.keeps
    | replaces => simpa [Cell.diffFrom] using Step.adds
  | @adds a =>
    cases h' with
    | keeps => exact .removes
    | @adds a' =>
      by_cases h : a = a'
      · simpa [Cell.diffFrom, h] using Step.keeps
      · simpa [Cell.diffFrom, h, Ne.symm h] using Step.replaces
  | @replaces r a =>
    cases h' with
    | keeps => exact .replaces
    | removes => simpa [Cell.diffFrom] using Step.removes
    | @replaces _ a' =>
      by_cases h : a = a'
      · simpa [Cell.diffFrom, h] using Step.keeps
      · simpa [Cell.diffFrom, h, Ne.symm h] using Step.replaces

end Cell

/-- The errors of the two functions. Which outpoint is reported depends on the order of a hash map
and is left out. -/
inductive DiffConflict where
  | duplicateRemovePoint
  | duplicateAddPoint
  | diffIntersectionPoint (reason : String)
  | general (reason : String)
  deriving DecidableEq, Repr

/-- Some outpoint is in both. -/
def intersects (this other : UtxoCollection) : Bool :=
  !this.rowsAll fun o _ => (other.lookup o).isNone

/-- Some outpoint is in both, with entries that meet the rule. -/
def intersectsWithRule (this other : UtxoCollection)
    (rule : TransactionOutpoint → UtxoEntry → UtxoEntry → Bool) : Bool :=
  !this.rowsAll fun o v₁ => (other.lookup o).all fun v₂ => !rule o v₁ v₂

/-- The rows at outpoints that `other` lacks. -/
def removeCollection (this other : UtxoCollection) : UtxoCollection :=
  this.filterRows fun o _ => (other.lookup o).isNone

/-- The rows that `intersection_with_remainder_having_daa_score_in_place` writes to its result and
`subtraction_with_remainder_having_daa_score_in_place` to its remainder. -/
def intersectionHavingDaaScore (this other : UtxoCollection) : UtxoCollection :=
  this.filterRows fun o entry => containsWithDaaScore other o entry.blockDaaScore

/-- The rows that `other` lacks at their scores, put over `result`. -/
def subtractionHavingDaaScore (this other result : UtxoCollection) : UtxoCollection :=
  (this.filterRows fun o entry => !containsWithDaaScore other o entry.blockDaaScore) ∪ result

namespace UtxoDiff

/-- The diff that takes this one back. -/
def asReversed (diff : UtxoDiff) : UtxoDiff := ⟨diff.remove, diff.add⟩

/-- `with_diff_in_place`: this diff, then the other. -/
def withDiff (this other : UtxoDiff) : Except DiffConflict UtxoDiff :=
  if intersectsWithRule other.remove this.remove fun o entryToAdd _ =>
      !containsWithDaaScore this.add o entryToAdd.blockDaaScore then
    .error .duplicateRemovePoint
  else if intersectsWithRule other.add this.add fun o _ existing =>
      !containsWithDaaScore other.remove o existing.blockDaaScore then
    .error .duplicateAddPoint
  else
    let remove := subtractionHavingDaaScore other.remove this.add this.remove
    let add := removeCollection this.add (intersectionHavingDaaScore other.remove this.add)
    .ok
      { add := subtractionHavingDaaScore other.add remove add
        remove := removeCollection remove (intersectionHavingDaaScore other.add remove) }

/-- `diff_from`: the way from this diff to the other, over one base. -/
def diffFrom (this other : UtxoDiff) : Except DiffConflict UtxoDiff :=
  if intersectsWithRule this.remove other.add fun o thisEntry otherEntry =>
      !(otherEntry.blockDaaScore != thisEntry.blockDaaScore &&
        (containsWithDaaScore this.add o otherEntry.blockDaaScore ||
          containsWithDaaScore other.remove o thisEntry.blockDaaScore)) then
    .error (.diffIntersectionPoint "both in self.add and in other.remove")
  else if intersectsWithRule this.add other.remove fun o thisEntry otherEntry =>
      !(otherEntry.blockDaaScore != thisEntry.blockDaaScore &&
        (containsWithDaaScore this.remove o otherEntry.blockDaaScore ||
          containsWithDaaScore other.add o thisEntry.blockDaaScore)) then
    .error (.diffIntersectionPoint "both in self.remove and in other.add")
  else if intersectsWithRule this.remove other.remove fun _ thisEntry otherEntry =>
      otherEntry.blockDaaScore != thisEntry.blockDaaScore then
    .error (.diffIntersectionPoint <| "both in self.remove and other.remove with different DAA " ++
      "scores, with no corresponding entry in self.add")
  else
    let inBothToAdd := intersectionHavingDaaScore this.add other.add
    if intersects inBothToAdd this.remove != intersects inBothToAdd other.remove then
      .error (.general <| "diff_from: outpoint both in self.add, other.add, and only one of " ++
        "self.remove and other.remove")
    else
      let remove := subtractionHavingDaaScore this.add other.add ∅
      let add := subtractionHavingDaaScore this.remove other.remove ∅
      .ok
        { add := subtractionHavingDaaScore other.add this.add add
          remove := subtractionHavingDaaScore other.remove this.remove remove }

end UtxoDiff

/-- The DAA score of the row at an outpoint. -/
def scoreAt (c : UtxoCollection) (o : TransactionOutpoint) : Option ℕ :=
  (c.lookup o).map UtxoEntry.blockDaaScore

/-- A view, by the scores of its entries. -/
def scores (view : UtxoView) : TransactionOutpoint → Option ℕ := fun o =>
  (view o).map UtxoEntry.blockDaaScore

/-- All that the two functions compare at an outpoint. -/
def UtxoDiff.cell (diff : UtxoDiff) (o : TransactionOutpoint) : Cell ℕ :=
  ⟨scoreAt diff.add o, scoreAt diff.remove o⟩

section Scores

variable {this other result : UtxoCollection} {o : TransactionOutpoint} {base : UtxoView}
  {d d' : UtxoDiff}

theorem containsWithDaaScore_eq (score : ℕ) :
    containsWithDaaScore other o score = decide (scoreAt other o = some score) := by
  unfold containsWithDaaScore scoreAt
  cases other.lookup o <;> simp [Bool.beq_eq_decide_eq]

@[simp] theorem scoreAt_intersectionHavingDaaScore :
    scoreAt (intersectionHavingDaaScore this other) o =
      Cell.within (scoreAt this o) (scoreAt other o) := by
  rw [scoreAt, intersectionHavingDaaScore, lookup_filterRows, scoreAt]
  cases this.lookup o with
  | none => rfl
  | some entry =>
    rw [filter_some, containsWithDaaScore_eq]
    by_cases h : scoreAt other o = some entry.blockDaaScore <;> simp [h]

@[simp] theorem scoreAt_subtractionHavingDaaScore :
    scoreAt (subtractionHavingDaaScore this other result) o =
      (Cell.without (scoreAt this o) (scoreAt other o)).or (scoreAt result o) := by
  rw [scoreAt, subtractionHavingDaaScore, lookup_union, lookup_filterRows, map_or]
  change _ = (Cell.without ((this.lookup o).map _) _).or ((result.lookup o).map _)
  cases this.lookup o with
  | none => rfl
  | some entry =>
    rw [filter_some, containsWithDaaScore_eq]
    by_cases h : scoreAt other o = some entry.blockDaaScore <;> simp [h]

@[simp] theorem scoreAt_removeCollection :
    scoreAt (removeCollection this other) o =
      if (scoreAt other o).isSome then none else scoreAt this o := by
  simp only [removeCollection, scoreAt, lookup_filterRows, isSome_map]
  cases other.lookup o <;> cases this.lookup o <;> simp [filter_some]

theorem scores_compose : scores (compose base d) o = (d.cell o).apply (scores base o) := by
  simp only [scores, compose, Cell.apply, UtxoDiff.cell, scoreAt, isSome_map]
  cases d.add.lookup o <;> cases d.remove.lookup o <;> simp

theorem intersectsWithRule_eq_false {rule : TransactionOutpoint → UtxoEntry → UtxoEntry → Bool} :
    intersectsWithRule this other rule = false ↔ ∀ o v₁ v₂, this.lookup o = some v₁ →
      other.lookup o = some v₂ → rule o v₁ v₂ = false := by
  rw [intersectsWithRule, Bool.not_eq_false', rowsAll_iff]
  simp only [all_eq_true, Bool.not_eq_true']
  exact ⟨fun h o v₁ v₂ h₁ h₂ => h o v₁ h₁ v₂ h₂, fun h o v₁ h₁ v₂ h₂ => h o v₁ v₂ h₁ h₂⟩

theorem intersects_eq_true :
    intersects this other = true ↔ ∃ o, (scoreAt this o).isSome ∧ (scoreAt other o).isSome := by
  rw [intersects, Bool.not_eq_true', Bool.eq_false_iff, ne_eq, rowsAll_iff]
  simp only [scoreAt, isSome_map, isNone_iff_eq_none, not_forall, exists_prop,
    isSome_iff_exists, ne_none_iff_exists']
  exact exists_congr fun o => exists_and_right

/-- A diff applies to a set: what it removes is there, and what it adds finds the outpoint free once
the removals are done. -/
structure Applicable (base : UtxoView) (diff : UtxoDiff) : Prop where
  removed : ∀ o r, diff.remove.lookup o = some r →
    ∃ e, base o = some e ∧ e.blockDaaScore = r.blockDaaScore
  added : ∀ o a, diff.add.lookup o = some a → base o = none ∨ (diff.remove.lookup o).isSome

theorem Applicable.step (h : Applicable base d) (o : TransactionOutpoint) :
    Cell.Step (scores base o) (d.cell o) (scores (compose base d) o) := by
  rw [scores_compose, UtxoDiff.cell, scoreAt, scoreAt]
  cases ha : d.add.lookup o with
  | none =>
    cases hr : d.remove.lookup o with
    | none => exact .keeps
    | some r =>
      obtain ⟨e, he, hscore⟩ := h.removed o r hr
      rw [scores, he, map_some, hscore]
      exact .removes
  | some a =>
    cases hr : d.remove.lookup o with
    | none =>
      have hfree : base o = none := (h.added o a ha).resolve_right (by simp [hr])
      rw [scores, hfree]
      exact .adds
    | some r =>
      obtain ⟨e, he, hscore⟩ := h.removed o r hr
      rw [scores, he, map_some, hscore]
      exact .replaces

theorem applicable_of_step {after : TransactionOutpoint → Option ℕ}
    (h : ∀ o, Cell.Step (scores base o) (d.cell o) (after o)) :
    Applicable base d ∧ scores (compose base d) = after := by
  refine ⟨⟨fun o r hr => ?_, fun o a ha => ?_⟩, funext fun o => ?_⟩
  · have hbase := (h o).before.1 r.blockDaaScore (by simp [UtxoDiff.cell, scoreAt, hr])
    exact map_eq_some_iff.mp hbase
  · have hfree := (h o).before.2 (by simp [UtxoDiff.cell, scoreAt, ha])
    simpa [scores, UtxoDiff.cell, scoreAt] using hfree
  · rw [scores_compose, (h o).apply_eq]

end Scores

namespace UtxoDiff

variable {x y y' z : TransactionOutpoint → Option ℕ} {base : UtxoView} {d d' d₁ d₂ : UtxoDiff}

theorem exists_withDiff_eq_ok (h : ∀ o, Cell.Step (x o) (d.cell o) (y o))
    (h' : ∀ o, Cell.Step (y o) (d'.cell o) (z o)) :
    ∃ r, d.withDiff d' = .ok r ∧ ∀ o, r.cell o = (d.cell o).withDiff (d'.cell o) := by
  have hremove : intersectsWithRule d'.remove d.remove (fun o entryToAdd _ =>
      !containsWithDaaScore d.add o entryToAdd.blockDaaScore) = false :=
    intersectsWithRule_eq_false.mpr fun o v₁ v₂ h₁ h₂ => by
      have hadd := ((h o).checks (h' o)).1 v₁.blockDaaScore (by simp [cell, scoreAt, h₁])
        (by simp [cell, scoreAt, h₂])
      rwa [Bool.not_eq_false', containsWithDaaScore_eq, decide_eq_true_eq]
  have hadd : intersectsWithRule d'.add d.add (fun o _ existing =>
      !containsWithDaaScore d'.remove o existing.blockDaaScore) = false :=
    intersectsWithRule_eq_false.mpr fun o v₁ v₂ h₁ h₂ => by
      have hremove := ((h o).checks (h' o)).2 v₂.blockDaaScore (by simp [cell, scoreAt, h₁])
        (by simp [cell, scoreAt, h₂])
      rwa [Bool.not_eq_false', containsWithDaaScore_eq, decide_eq_true_eq]
  refine ⟨_, by rw [withDiff, hremove, hadd]; rfl, fun o => ?_⟩
  simp only [cell, Cell.withDiff, scoreAt_subtractionHavingDaaScore, scoreAt_removeCollection,
    scoreAt_intersectionHavingDaaScore]
  rfl

/-- A double entry of the first meets a removal of the second. -/
def Crosses (d d' : UtxoDiff) : Prop := ∃ o, (d.cell o).Doubled ∧ (d'.cell o).remove.isSome

section From

variable (h : ∀ o, Cell.Step (x o) (d.cell o) (y o)) (h' : ∀ o, Cell.Step (x o) (d'.cell o) (y' o))

include h h'

theorem crossing_eq_false :
    (intersectsWithRule d.remove d'.add fun o thisEntry otherEntry =>
      !(otherEntry.blockDaaScore != thisEntry.blockDaaScore &&
        (containsWithDaaScore d.add o otherEntry.blockDaaScore ||
          containsWithDaaScore d'.remove o thisEntry.blockDaaScore))) = false ↔ ¬Crosses d' d := by
  rw [intersectsWithRule_eq_false, Crosses, not_exists]
  refine forall_congr' fun o => ?_
  rw [← (h o).crossing_iff (h' o)]
  simp only [cell, scoreAt, map_eq_some_iff, Bool.not_eq_false', Bool.and_eq_true, bne_iff_ne,
    Bool.or_eq_true, containsWithDaaScore_eq, decide_eq_true_eq]
  constructor
  · rintro hrule _ _ ⟨v₁, h₁, rfl⟩ ⟨v₂, h₂, rfl⟩
    exact hrule v₁ v₂ h₁ h₂
  · exact fun hrule v₁ v₂ h₁ h₂ => hrule _ _ ⟨v₁, h₁, rfl⟩ ⟨v₂, h₂, rfl⟩

theorem intersects_inBothToAdd :
    intersects (intersectionHavingDaaScore d.add d'.add) d.remove =
      intersects (intersectionHavingDaaScore d.add d'.add) d'.remove := by
  rw [Bool.eq_iff_iff, intersects_eq_true, intersects_eq_true]
  refine exists_congr fun o => and_congr_right fun hboth => ?_
  rw [scoreAt_intersectionHavingDaaScore] at hboth
  obtain ⟨score, hscore⟩ := isSome_iff_exists.mp hboth
  obtain ⟨hadd, hadd'⟩ := filter_eq_some_iff.mp hscore
  rw [decide_eq_true_eq] at hadd'
  exact Bool.eq_iff_iff.mp ((h o).remove_isSome_eq (h' o) (by simp [cell, hadd])
    (by simp [cell, hadd']))

theorem diffFrom_ok_iff {r : UtxoDiff} :
    d.diffFrom d' = .ok r ↔ ¬Crosses d' d ∧ ¬Crosses d d' ∧ r =
      ⟨subtractionHavingDaaScore d'.add d.add (subtractionHavingDaaScore d.remove d'.remove ∅),
        subtractionHavingDaaScore d'.remove d.remove
          (subtractionHavingDaaScore d.add d'.add ∅)⟩ := by
  have hremoved : intersectsWithRule d.remove d'.remove (fun _ thisEntry otherEntry =>
      otherEntry.blockDaaScore != thisEntry.blockDaaScore) = false :=
    intersectsWithRule_eq_false.mpr fun o v₁ v₂ h₁ h₂ => by
      have hscore := (h o).remove_eq (h' o) (by simp [cell, scoreAt, h₁]; rfl)
        (by simp [cell, scoreAt, h₂]; rfl)
      rw [bne_eq_false_iff_eq, hscore]
  -- The second check is the first one with the diffs exchanged.
  have hadded : (intersectsWithRule d.add d'.remove fun o thisEntry otherEntry =>
      !(otherEntry.blockDaaScore != thisEntry.blockDaaScore &&
        (containsWithDaaScore d.remove o otherEntry.blockDaaScore ||
          containsWithDaaScore d'.add o thisEntry.blockDaaScore))) = false ↔ ¬Crosses d d' := by
    rw [← crossing_eq_false h' h, intersectsWithRule_eq_false, intersectsWithRule_eq_false]
    refine forall_congr' fun o => ⟨fun hrule v₁ v₂ h₁ h₂ => ?_, fun hrule v₁ v₂ h₁ h₂ => ?_⟩
    · rw [bne_comm, Bool.or_comm]
      exact hrule v₂ v₁ h₂ h₁
    · rw [bne_comm, Bool.or_comm]
      exact hrule v₂ v₁ h₂ h₁
  rw [diffFrom, error_ite_eq_ok, error_ite_eq_ok, error_ite_eq_ok, Bool.not_eq_true,
    Bool.not_eq_true, crossing_eq_false h h', hadded, hremoved]
  simp [intersects_inBothToAdd h h', eq_comm]

theorem cell_diffFrom {r : UtxoDiff} (hr : d.diffFrom d' = .ok r) (o : TransactionOutpoint) :
    r.cell o = (d.cell o).diffFrom (d'.cell o) := by
  obtain ⟨-, -, rfl⟩ := (diffFrom_ok_iff h h').mp hr
  simp only [cell, Cell.diffFrom, scoreAt_subtractionHavingDaaScore]
  simp [scoreAt]

end From

theorem eq_empty_of_cell (h : ∀ o, d.cell o = .empty) : d = empty := by
  have hnone : ∀ o, d.add.lookup o = none ∧ d.remove.lookup o = none := fun o => by
    simpa [cell, scoreAt, Cell.empty] using h o
  obtain ⟨add, remove⟩ := d
  have hadd : add = ∅ := Finmap.ext_lookup fun o => (hnone o).1
  have hremove : remove = ∅ := Finmap.ext_lookup fun o => (hnone o).2
  rw [hadd, hremove]
  rfl

/-- A call of `add_entry`, or of `remove_entry`. -/
def edit (diff : UtxoDiff) :
    (TransactionOutpoint × UtxoEntry) ⊕ (TransactionOutpoint × UtxoEntry) →
      Except UtxoAlgebraError UtxoDiff
  | .inl (o, entry) => diff.addEntry o entry
  | .inr (o, entry) => diff.removeEntry o entry

theorem edit_not_doubled (h : ∀ o, ¬(d.cell o).Doubled) {e} (hok : d.edit e = .ok d')
    (o : TransactionOutpoint) : ¬(d'.cell o).Doubled := by
  have ho := h o
  rcases e with ⟨p, entry⟩ | ⟨p, entry⟩ <;>
    simp only [edit, addEntry, removeEntry, containsWithDaaScore_eq, decide_eq_true_eq] at hok <;>
    split_ifs at hok <;> cases hok <;>
    simp only [cell, scoreAt, Cell.Doubled, lookup_insert_eq, lookup_erase_eq] at * <;>
    -- only the outpoint of the edit changes
    by_cases hp : o = p
  all_goals grind

/-- No diff that is built edit by edit adds and removes an entry of one score. -/
theorem edits_not_doubled {edits : List _} (h : edits.foldlM edit empty = .ok d) :
    ∀ o, ¬(d.cell o).Doubled := by
  refine foldlM_induction (I := fun d => ∀ o, ¬(d.cell o).Doubled) ?_ ?_ h
  · exact fun d e d' _ hd hstep => edit_not_doubled hd hstep
  · simp [cell, scoreAt, empty, Cell.Doubled]

def single (add remove : Option ℕ) : UtxoDiff :=
  let rows := fun score : Option ℕ => score.elim (∅ : UtxoCollection) fun daaScore =>
    Finmap.insert ⟨1, 0⟩ { (default : UtxoEntry) with blockDaaScore := daaScore } ∅
  ⟨rows add, rows remove⟩

def singleSet : UtxoView := fun o =>
  if o = ⟨1, 0⟩ then some { (default : UtxoEntry) with blockDaaScore := 5 } else none

theorem cell_single (add remove : Option ℕ) (o : TransactionOutpoint) :
    (single add remove).cell o = if o = ⟨1, 0⟩ then ⟨add, remove⟩ else .empty := by
  cases add <;> cases remove <;> by_cases h : o = ⟨1, 0⟩ <;>
    simp [single, cell, scoreAt, lookup_insert_eq, h, Cell.empty]

theorem applicable_single {add remove : Option ℕ}
    (h : ∃ after, Cell.Step (scores base ⟨1, 0⟩) ⟨add, remove⟩ after) :
    Applicable base (single add remove) := by
  obtain ⟨after, hafter⟩ := h
  have hstep : ∀ o, Cell.Step (scores base o) ((single add remove).cell o)
      (if o = ⟨1, 0⟩ then after else scores base o) := fun o => by
    rw [cell_single]
    split
    · next ho =>
      rwa [ho]
    · exact .keeps
  exact (applicable_of_step hstep).1

/-- Diffs that apply one after the other compose to what they do in turn. Composing is associative
up to entries that are added and removed again unchanged, and associative if the first diff has no
such entry. A diff composed with its reversal is empty. -/
theorem withDiff_composes (h₁ : Applicable base d₁) (h₂ : Applicable (compose base d₁) d₂) :
    (∃ d₁₂, d₁.withDiff d₂ = .ok d₁₂ ∧
      scores (compose base d₁₂) = scores (compose (compose base d₁) d₂)) ∧
    (∀ d₃, Applicable (compose (compose base d₁) d₂) d₃ → ∃ d₁₂ d₂₃ left right,
      d₁.withDiff d₂ = .ok d₁₂ ∧ d₂.withDiff d₃ = .ok d₂₃ ∧ d₁₂.withDiff d₃ = .ok left ∧
        d₁.withDiff d₂₃ = .ok right ∧ (∀ o, (left.cell o).settled = (right.cell o).settled) ∧
          ((∀ o, ¬(d₁.cell o).Doubled) → left.cell = right.cell)) ∧
    d₁.withDiff d₁.asReversed = .ok empty := by
  obtain ⟨d₁₂, hd₁₂, hcell₁₂⟩ := exists_withDiff_eq_ok h₁.step h₂.step
  have hstep₁₂ : ∀ o, Cell.Step (scores base o) (d₁₂.cell o)
      (scores (compose (compose base d₁) d₂) o) := fun o =>
    hcell₁₂ o ▸ (h₁.step o).withDiff (h₂.step o)
  refine ⟨⟨d₁₂, hd₁₂, (applicable_of_step hstep₁₂).2⟩, fun d₃ h₃ => ?_, ?_⟩
  · obtain ⟨d₂₃, hd₂₃, hcell₂₃⟩ := exists_withDiff_eq_ok h₂.step h₃.step
    have hstep₂₃ := fun o => hcell₂₃ o ▸ (h₂.step o).withDiff (h₃.step o)
    obtain ⟨left, hleft, hcellLeft⟩ := exists_withDiff_eq_ok hstep₁₂ h₃.step
    obtain ⟨right, hright, hcellRight⟩ := exists_withDiff_eq_ok h₁.step hstep₂₃
    have hsettled : ∀ o, (left.cell o).settled = (right.cell o).settled := fun o => by
      rw [hcellLeft, hcellRight, ((hstep₁₂ o).withDiff (h₃.step o)).settled_eq,
        ((h₁.step o).withDiff (hstep₂₃ o)).settled_eq]
    refine ⟨d₁₂, d₂₃, left, right, hd₁₂, hd₂₃, hleft, hright, hsettled,
      fun hsingle => funext fun o => ?_⟩
    -- Neither side has a double entry, so both are settled already.
    have hsingle₁₂ : ¬(d₁₂.cell o).Doubled :=
      hcell₁₂ o ▸ (h₁.step o).not_doubled_withDiff (h₂.step o) (hsingle o)
    have hsame := hsettled o
    rwa [Cell.settled, Cell.settled, hcellLeft, hcellRight,
      if_neg ((hstep₁₂ o).not_doubled_withDiff (h₃.step o) hsingle₁₂),
      if_neg ((h₁.step o).not_doubled_withDiff (hstep₂₃ o) (hsingle o)), ← hcellLeft,
      ← hcellRight] at hsame
  · have hback : ∀ o, Cell.Step _ (d₁.asReversed.cell o) _ := fun o => (h₁.step o).reversed
    obtain ⟨r, hr, hcell⟩ := exists_withDiff_eq_ok h₁.step hback
    rw [hr, eq_empty_of_cell fun o => (hcell o).trans (h₁.step o).withDiff_reversed]

/-- An entry replaced by a later one, which is spent. -/
theorem withDiff_composes_single : ∃ d₁₂,
    (single (some 7) (some 5)).withDiff (single none (some 7)) = .ok d₁₂ ∧
      scores (compose singleSet d₁₂) =
        scores (compose (compose singleSet (single (some 7) (some 5))) (single none (some 7))) :=
  (withDiff_composes (@applicable_single singleSet (some 7) (some 5) ⟨_, .replaces⟩)
    (applicable_single ⟨_, by rw [scores_compose, cell_single]; exact .removes⟩)).1

/-- Along a walk over chain blocks composing never fails, and it does what the diffs do in turn. A
reversed diff steps back over its block. -/
theorem foldlM_withDiff_composes {ds : List UtxoDiff} (hd : Applicable base d)
    (hds : StepsMeet compose Applicable (compose base d) ds) :
    (∃ r, ds.foldlM withDiff d = .ok r ∧ Applicable base r ∧
      scores (compose base r) = scores (ds.foldl compose (compose base d))) ∧
    Applicable (compose base d) d.asReversed ∧
      scores (compose (compose base d) d.asReversed) = scores base := by
  refine ⟨?_, applicable_of_step fun o => (hd.step o).reversed⟩
  have hstep := hd.step
  generalize compose base d = v at hds hstep
  induction ds generalizing d v with
  | nil => exact ⟨d, rfl, applicable_of_step hstep⟩
  | cons e ds ih =>
    obtain ⟨r, hr, hcell⟩ := exists_withDiff_eq_ok hstep hds.1.step
    have hnext := fun o => hcell o ▸ (hstep o).withDiff (hds.1.step o)
    obtain ⟨s, hs, hend⟩ := ih (applicable_of_step hnext).1 _ hds.2 hnext
    exact ⟨s, foldlM_cons_eq_ok.mpr ⟨r, hr, hs⟩, hend⟩

theorem foldlM_withDiff_composes_back : ∃ r,
    [(single (some 7) (some 5)).asReversed].foldlM withDiff (single (some 7) (some 5)) = .ok r ∧
      Applicable singleSet r := by
  have h := @applicable_single singleSet (some 7) (some 5) ⟨_, .replaces⟩
  have hback := (@foldlM_withDiff_composes _ _ [] h trivial).2.1
  exact (@foldlM_withDiff_composes _ _ [_] h ⟨hback, trivial⟩).1.imp fun r hr => ⟨hr.1, hr.2.1⟩

/-- A first diff that adds and removes one entry keeps doing so if the others cancel out, and not if
they are composed with it one by one. -/
theorem withDiff_not_associative :
    let d₁ := single (some 5) (some 5)
    let d₂ := single none (some 5)
    let d₃ := single (some 5) none
    (Applicable singleSet d₁ ∧ Applicable (compose singleSet d₁) d₂ ∧
      Applicable (compose (compose singleSet d₁) d₂) d₃) ∧
    (d₁.withDiff d₂ >>= fun d₁₂ => d₁₂.withDiff d₃) = .ok empty ∧
    (d₂.withDiff d₃ >>= fun d₂₃ => d₁.withDiff d₂₃) = .ok d₁ ∧ d₁.cell ≠ cell empty := by
  refine ⟨⟨applicable_single ⟨_, .replaces⟩, applicable_single ?_, applicable_single ?_⟩, ?_⟩
  · rw [scores_compose, cell_single]
    exact ⟨_, .removes⟩
  · rw [scores_compose, scores_compose, cell_single, cell_single]
    exact ⟨_, .adds⟩
  · refine ⟨by decide +kernel, by decide +kernel, fun h => ?_⟩
    exact absurd (congrFun h ⟨1, 0⟩) (by decide +kernel)

/-- The difference of two diffs of one base: refused exactly where a double entry of one meets a
removal of the other, and otherwise it leads from what the first makes of the base to what the
second makes of it. -/
theorem diffFrom_exact (h₁ : Applicable base d₁) (h₂ : Applicable base d₂) :
    ((∃ r, d₁.diffFrom d₂ = .ok r) ↔ ¬Crosses d₁ d₂ ∧ ¬Crosses d₂ d₁) ∧
    ∀ r, d₁.diffFrom d₂ = .ok r → Applicable (compose base d₁) r ∧
      scores (compose (compose base d₁) r) = scores (compose base d₂) ∧
        ∃ d, d₁.withDiff r = .ok d ∧ ∀ o, (d.cell o).settled = (d₂.cell o).settled := by
  refine ⟨⟨?_, ?_⟩, fun r hr => ?_⟩
  · rintro ⟨r, hr⟩
    obtain ⟨hcross, hcross', -⟩ := (diffFrom_ok_iff h₁.step h₂.step).mp hr
    exact ⟨hcross', hcross⟩
  · rintro ⟨hcross, hcross'⟩
    exact ⟨_, (diffFrom_ok_iff h₁.step h₂.step).mpr ⟨hcross', hcross, rfl⟩⟩
  · have hstep := fun o => cell_diffFrom h₁.step h₂.step hr o ▸ (h₁.step o).diffFrom (h₂.step o)
    obtain ⟨happlies, hscores⟩ := applicable_of_step hstep
    obtain ⟨d, hd, hcell⟩ := exists_withDiff_eq_ok h₁.step hstep
    refine ⟨happlies, hscores, d, hd, fun o => ?_⟩
    rw [hcell, ((h₁.step o).withDiff (hstep o)).settled_eq, (h₂.step o).settled_eq]

/-- From an entry replaced by a later one to the entry spent. -/
theorem diffFrom_exact_single :
    (∃ r, (single (some 7) (some 5)).diffFrom (single none (some 5)) = .ok r) ↔
      ¬Crosses (single (some 7) (some 5)) (single none (some 5)) ∧
        ¬Crosses (single none (some 5)) (single (some 7) (some 5)) :=
  (diffFrom_exact (@applicable_single singleSet _ _ ⟨_, .replaces⟩)
    (applicable_single ⟨_, .removes⟩)).1

/-- Both diffs apply to the set, and the difference is refused. -/
theorem diffFrom_refuses_doubled :
    Applicable singleSet (single none (some 5)) ∧ Applicable singleSet (single (some 5) (some 5)) ∧
      (single none (some 5)).diffFrom (single (some 5) (some 5)) =
        .error (.diffIntersectionPoint "both in self.add and in other.remove") :=
  ⟨applicable_single ⟨_, .removes⟩, applicable_single ⟨_, .replaces⟩, by decide +kernel⟩

end UtxoDiff

end Misaka
