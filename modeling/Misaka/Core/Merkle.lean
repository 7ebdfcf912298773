import Mathlib.Algebra.Order.Ring.Nat
import Mathlib.Data.List.Basic
import Mathlib.Data.Nat.Bitwise

/-!
# Trees of hashes

A level of digests is combined pairwise until one digest is left. A path leads from a position of
the lowest level to the top with one sibling a level, the bits of the position choosing the side.
-/

namespace Misaka.Core

open List

variable {α : Type*}

section Tree

variable (node : α → α → α)

/-- The level above; a digest left over at the end becomes what `odd` makes of it. -/
def pairUp (odd : α → List α) : List α → List α
  | a :: b :: rest => node a b :: pairUp odd rest
  | [a] => odd a
  | [] => []

def sided (i : ℕ) (x s : α) : α × α := if i % 2 = 0 then (x, s) else (s, x)

def ascend : List α → ℕ → α → α
  | [], _, x => x
  | s :: sibs, i, x => ascend sibs (i / 2) (node (sided i x s).1 (sided i x s).2)

def ascentPairs : List α → ℕ → α → List (α × α)
  | [], _, _ => []
  | s :: sibs, i, x =>
    sided i x s :: ascentPairs sibs (i / 2) (node (sided i x s).1 (sided i x s).2)

def adjacent : List α → List (α × α)
  | a :: b :: rest => (a, b) :: adjacent rest
  | [_] => []
  | [] => []

def treePairs : ℕ → List α → List (α × α)
  | 0, _ => []
  | d + 1, level => adjacent level ++ treePairs d (pairUp node (fun _ => []) level)

def siblings [Inhabited α] : ℕ → List α → ℕ → List α
  | 0, _, _ => []
  | d + 1, level, i =>
    level.getD (i ^^^ 1) default :: siblings d (pairUp node (fun _ => []) level) (i / 2)

def apex [Inhabited α] (d : ℕ) (level : List α) : α :=
  ((pairUp node fun _ => [])^[d] level).headD default

end Tree

variable {node : α → α → α} {odd : α → List α} {B : α → Prop} {level sibs : List α} {a b x y : α}
  {d i fuel : ℕ}

@[simp] theorem length_siblings [Inhabited α] (d : ℕ) (level : List α) (i : ℕ) :
    (siblings node d level i).length = d := by
  induction d generalizing level i with
  | zero => rfl
  | succ d ih => rw [siblings, length_cons, ih]

theorem length_pairUp {m : ℕ} (h : level.length = 2 * m) :
    (pairUp node odd level).length = m := by
  induction m generalizing level with
  | zero =>
    rw [length_eq_zero_iff.mp h]
    rfl
  | succ m ih =>
    obtain ⟨a, b, rest, rfl⟩ : ∃ a b rest, level = a :: b :: rest := by
      match level, h with
      | a :: b :: rest, _ => exact ⟨a, b, rest, rfl⟩
    rw [pairUp, length_cons, ih (by simpa [Nat.mul_succ] using h)]

theorem getElem?_pairUp {j : ℕ} (ha : level[2 * j]? = some a) (hb : level[2 * j + 1]? = some b) :
    (pairUp node odd level)[j]? = some (node a b) := by
  induction j generalizing level with
  | zero =>
    match level, ha, hb with
    | a' :: b' :: rest, ha, hb =>
      cases ha
      cases hb
      rfl
  | succ j ih =>
    match level, ha, hb with
    | a' :: b' :: rest, ha, hb =>
      rw [pairUp, List.getElem?_cons_succ]
      exact ih (by simpa [Nat.mul_succ] using ha) (by simpa [Nat.mul_succ] using hb)

theorem mem_adjacent {j : ℕ} (ha : level[2 * j]? = some a) (hb : level[2 * j + 1]? = some b) :
    (a, b) ∈ adjacent level := by
  induction j generalizing level with
  | zero =>
    match level, ha, hb with
    | a' :: b' :: rest, ha, hb =>
      cases ha
      cases hb
      exact mem_cons_self
  | succ j ih =>
    match level, ha, hb with
    | a' :: b' :: rest, ha, hb =>
      exact mem_cons_of_mem _
        (ih (by simpa [Nat.mul_succ] using ha) (by simpa [Nat.mul_succ] using hb))

theorem mem_pairUp (hodd : ∀ a, ∀ y ∈ odd a, y = node a a) (hy : y ∈ pairUp node odd level) :
    ∃ a b, y = node a b := by
  induction level using pairUp.induct with
  | case1 a b rest ih =>
    rcases mem_cons.mp hy with rfl | hy
    · exact ⟨a, b, rfl⟩
    · exact ih hy
  | case2 a => exact ⟨a, a, hodd a y hy⟩
  | case3 => cases hy

theorem forall_adjacent (h : ∀ a ∈ level, B a) :
    ∀ p ∈ adjacent level, B p.1 ∧ B p.2 := by
  induction level using adjacent.induct with
  | case1 a b rest ih =>
    rw [forall_mem_cons, forall_mem_cons] at h
    exact forall_mem_cons.mpr ⟨⟨h.1, h.2.1⟩, ih h.2.2⟩
  | case2 | case3 => exact fun p hp => (not_mem_nil hp).elim

theorem forall_treePairs (hnode : ∀ a b, B (node a b)) (h : ∀ a ∈ level, B a) :
    ∀ p ∈ treePairs node d level, B p.1 ∧ B p.2 := by
  induction d generalizing level with
  | zero => exact fun p hp => (not_mem_nil hp).elim
  | succ d ih =>
    refine forall_mem_append.mpr ⟨forall_adjacent h, ih fun y hy => ?_⟩
    obtain ⟨a, b, rfl⟩ := mem_pairUp (nofun) hy
    exact hnode a b

theorem forall_ascentPairs (hnode : ∀ a b, B (node a b)) (hx : B x) (h : ∀ s ∈ sibs, B s) :
    ∀ p ∈ ascentPairs node sibs i x, B p.1 ∧ B p.2 := by
  induction sibs generalizing i x with
  | nil => exact fun p hp => (not_mem_nil hp).elim
  | cons s sibs ih =>
    rw [forall_mem_cons] at h
    refine forall_mem_cons.mpr ⟨?_, ih (hnode _ _) h.2⟩
    unfold sided
    split
    · exact ⟨hx, h.1⟩
    · exact ⟨h.1, hx⟩

theorem forall_ascend (hnode : ∀ a b, B (node a b)) (hx : B x) : B (ascend node sibs i x) := by
  induction sibs generalizing i x with
  | nil => exact hx
  | cons s sibs ih => exact ih (hnode _ _)

theorem forall_apex [Inhabited α] (hnode : ∀ a b, B (node a b)) (hlevel : level.length = 2 ^ d)
    (h : ∀ a ∈ level, B a) : B (apex node d level) := by
  induction d generalizing level with
  | zero =>
    obtain ⟨a, rfl⟩ := length_eq_one_iff.mp hlevel
    exact h a mem_cons_self
  | succ d ih =>
    rw [apex, Function.iterate_succ_apply, ← apex]
    refine ih (length_pairUp (hlevel.trans (pow_succ' ..))) fun y hy => ?_
    obtain ⟨a, b, rfl⟩ := mem_pairUp (nofun) hy
    exact hnode a b

theorem sided_eq_iff [Inhabited α] {s : α} (ha : level[2 * (i / 2)]? = some a)
    (hb : level[2 * (i / 2) + 1]? = some b) :
    sided i x s = (a, b) ↔ level[i]? = some x ∧ s = level.getD (i ^^^ 1) default := by
  unfold sided
  rcases Nat.mod_two_eq_zero_or_one i with hmod | hmod
  · have hxor : i ^^^ 1 = 2 * (i / 2) + 1 := by
      rw [Nat.xor_one_of_even (Nat.even_iff.mpr hmod)]
      omega
    rw [show 2 * (i / 2) = i by omega] at ha
    rw [if_pos hmod, hxor, getD_eq_getElem?_getD, hb, ha]
    simp [eq_comm]
  · have hxor : i ^^^ 1 = 2 * (i / 2) := by
      rw [Nat.xor_one_of_odd (Nat.odd_iff.mpr hmod)]
      omega
    rw [show 2 * (i / 2) + 1 = i by omega] at hb
    rw [if_neg (by omega), hxor, getD_eq_getElem?_getD, ha, hb]
    simp [eq_comm, and_comm]

theorem exists_sided [Inhabited α] {m : ℕ} (hlevel : level.length = 2 * m)
    (hx : level[i]? = some x) :
    ∃ a b, sided i x (level.getD (i ^^^ 1) default) = (a, b) ∧
      level[2 * (i / 2)]? = some a ∧ level[2 * (i / 2) + 1]? = some b := by
  have hi := (List.getElem?_eq_some_iff.mp hx).1
  obtain ⟨a, ha⟩ : ∃ a, level[2 * (i / 2)]? = some a := ⟨_, List.getElem?_eq_getElem (by omega)⟩
  obtain ⟨b, hb⟩ : ∃ b, level[2 * (i / 2) + 1]? = some b := ⟨_, List.getElem?_eq_getElem (by omega)⟩
  exact ⟨a, b, (sided_eq_iff ha hb).mpr ⟨hx, rfl⟩, ha, hb⟩

theorem getElem?_pairUp_sided [Inhabited α] {m : ℕ} (hlevel : level.length = 2 * m)
    (hx : level[i]? = some x) :
    (pairUp node odd level)[i / 2]? =
      some (node (sided i x (level.getD (i ^^^ 1) default)).1
        (sided i x (level.getD (i ^^^ 1) default)).2) := by
  obtain ⟨a, b, hsided, ha, hb⟩ := exists_sided hlevel hx
  rw [hsided]
  exact getElem?_pairUp ha hb

/-- The way up from a position of a full tree combines pairs of the tree only. -/
theorem ascentPairs_siblings [Inhabited α] (hlevel : level.length = 2 ^ d)
    (hx : level[i]? = some x) :
    ∀ p ∈ ascentPairs node (siblings node d level i) i x, p ∈ treePairs node d level := by
  induction d generalizing level i x with
  | zero => exact fun p hp => (not_mem_nil hp).elim
  | succ d ih =>
    have hdouble : level.length = 2 * 2 ^ d := hlevel.trans (pow_succ' ..)
    intro p hp
    rcases mem_cons.mp hp with rfl | hp
    · obtain ⟨a, b, hsided, ha, hb⟩ := exists_sided hdouble hx
      rw [hsided]
      exact mem_append_left _ (mem_adjacent ha hb)
    · exact mem_append_right _ (ih (length_pairUp hdouble) (getElem?_pairUp_sided hdouble hx) p hp)

theorem ascend_siblings [Inhabited α] (hlevel : level.length = 2 ^ d) (hx : level[i]? = some x) :
    ascend node (siblings node d level i) i x = apex node d level := by
  induction d generalizing level i x with
  | zero =>
    obtain ⟨a, rfl⟩ := length_eq_one_iff.mp hlevel
    obtain rfl : i = 0 := Nat.lt_one_iff.mp (List.getElem?_eq_some_iff.mp hx).1
    cases hx
    rfl
  | succ d ih =>
    have hdouble : level.length = 2 * 2 ^ d := hlevel.trans (pow_succ' ..)
    rw [siblings, ascend, apex, Function.iterate_succ_apply, ← apex]
    exact ih (length_pairUp hdouble) (getElem?_pairUp_sided hdouble hx)

/-- A path reaches the top of a full tree exactly from the digest at its position and with the
siblings of the tree, if no two of the pairs on either way are combined to one digest. -/
theorem ascend_eq_apex_iff [Inhabited α] (hlevel : level.length = 2 ^ d) (hi : i < 2 ^ d)
    (hsibs : sibs.length = d) (hinj : Set.InjOn (fun p : α × α => node p.1 p.2)
      {p | p ∈ treePairs node d level ∨ p ∈ ascentPairs node sibs i x}) :
    ascend node sibs i x = apex node d level ↔
      level[i]? = some x ∧ sibs = siblings node d level i := by
  induction d generalizing level sibs i x with
  | zero =>
    obtain rfl := length_eq_zero_iff.mp hsibs
    obtain rfl : i = 0 := by omega
    obtain ⟨a, rfl⟩ := length_eq_one_iff.mp hlevel
    simp [ascend, apex, siblings, eq_comm]
  | succ d ih =>
    obtain ⟨s, sibs, rfl⟩ := exists_cons_of_length_eq_add_one hsibs
    have hdouble : level.length = 2 * 2 ^ d := hlevel.trans (pow_succ' ..)
    have hbound : 2 * (i / 2) + 1 < level.length := by omega
    -- the two neighbours below the digest the ascend has to meet
    obtain ⟨a, ha⟩ : ∃ a, level[2 * (i / 2)]? = some a := ⟨_, List.getElem?_eq_getElem (by omega)⟩
    obtain ⟨b, hb⟩ : ∃ b, level[2 * (i / 2) + 1]? = some b := ⟨_, List.getElem?_eq_getElem hbound⟩
    have hup : (pairUp node (fun _ => []) level)[i / 2]? = some (node a b) := getElem?_pairUp ha hb
    have hpairs : {p | p ∈ treePairs node d (pairUp node (fun _ => []) level) ∨
        p ∈ ascentPairs node sibs (i / 2) (node (sided i x s).1 (sided i x s).2)} ⊆
          {p | p ∈ treePairs node (d + 1) level ∨ p ∈ ascentPairs node (s :: sibs) i x} := by
      rintro p (hp | hp)
      · exact .inl (mem_append_right _ hp)
      · exact .inr (mem_cons_of_mem _ hp)
    have hnode : node a b = node (sided i x s).1 (sided i x s).2 ↔ sided i x s = (a, b) := by
      refine ⟨fun h => ?_, fun h => by rw [h]⟩
      exact (hinj (.inl (mem_append_left _ (mem_adjacent ha hb)))
        (.inr mem_cons_self) h).symm
    have hrest := ih (length_pairUp hdouble) (by omega : i / 2 < 2 ^ d) (by simpa using hsibs)
      (hinj.mono hpairs)
    rw [ascend, apex, Function.iterate_succ_apply, ← apex, hrest, hup, Option.some_inj, hnode,
      sided_eq_iff ha hb, siblings, List.cons.injEq, and_assoc]

section Padded

variable (node : α → α → α)

def paddedPairs : List α → List (α × α)
  | a :: b :: rest => (a, b) :: paddedPairs rest
  | [a] => [(a, a)]
  | [] => []

def paddedLevels : ℕ → List α → List (List α)
  | 0, level => [level]
  | fuel + 1, level =>
    if level.length ≤ 1 then [level]
    else level :: paddedLevels fuel ((paddedPairs level).map fun p => node p.1 p.2)

def paddedTreePairs : ℕ → List α → List (α × α)
  | 0, _ => []
  | fuel + 1, level =>
    if level.length ≤ 1 then []
    else paddedPairs level ++ paddedTreePairs fuel ((paddedPairs level).map fun p => node p.1 p.2)

def paddedSibling [Inhabited α] (level : List α) (i : ℕ) : α :=
  if i % 2 = 0 then level.getD (i + 1) (level.getD i default) else level.getD (i - 1) default

/-- The digests beside the way up, one for each level but the last. -/
def paddedSiblings [Inhabited α] : List (List α) → ℕ → List α
  | level :: next :: rest, i => paddedSibling level i :: paddedSiblings (next :: rest) (i / 2)
  | _, _ => []

def topOf [Inhabited α] (levels : List (List α)) : α := (levels.getLastD []).headD default

end Padded

theorem length_paddedPairs (level : List α) :
    (paddedPairs level).length = (level.length + 1) / 2 := by
  induction level using paddedPairs.induct with
  | case1 a b rest ih =>
    rw [paddedPairs, length_cons, ih, length_cons, length_cons]
    omega
  | case2 | case3 => simp [paddedPairs]

theorem mem_of_mem_paddedPairs {p : α × α} (hp : p ∈ paddedPairs level) :
    p.1 ∈ level ∧ p.2 ∈ level := by
  induction level using paddedPairs.induct with
  | case1 a b rest ih =>
    rcases mem_cons.mp hp with rfl | hp
    · simp
    · simp [ih hp]
  | case2 a =>
    rw [mem_singleton.mp hp]
    simp
  | case3 => cases hp

theorem getElem?_paddedPairs [Inhabited α] (hx : level[i]? = some x) :
    (paddedPairs level)[i / 2]? = some (sided i x (paddedSibling level i)) := by
  induction level using paddedPairs.induct generalizing i with
  | case1 a b rest ih =>
    match i, hx with
    | 0, hx | 1, hx =>
      cases hx
      rfl
    | i + 2, hx =>
      have hsided : sided (i + 2) x (paddedSibling (a :: b :: rest) (i + 2)) =
          sided i x (paddedSibling rest i) := by
        match i with
        | 0 => rfl
        | i + 1 => simp [sided, paddedSibling, Nat.add_mod_right]
      rw [hsided, show (i + 2) / 2 = i / 2 + 1 by omega, paddedPairs, List.getElem?_cons_succ]
      exact ih hx
  | case2 a =>
    obtain rfl : i = 0 := by simpa using (List.getElem?_eq_some_iff.mp hx).1
    cases hx
    rfl
  | case3 => cases hx

theorem getElem?_map_paddedPairs [Inhabited α] (node : α → α → α) (hx : level[i]? = some x) :
    ((paddedPairs level).map fun p => node p.1 p.2)[i / 2]? =
      some (node (sided i x (paddedSibling level i)).1 (sided i x (paddedSibling level i)).2) := by
  rw [List.getElem?_map, getElem?_paddedPairs hx]
  rfl

theorem paddedLevels_eq_cons (node : α → α → α) (fuel : ℕ) (level : List α) :
    ∃ rest, paddedLevels node fuel level = level :: rest := by
  cases fuel with
  | zero => exact ⟨[], rfl⟩
  | succ fuel =>
    rw [paddedLevels]
    split
    · exact ⟨[], rfl⟩
    · exact ⟨_, rfl⟩

theorem ascend_paddedSiblings [Inhabited α] (hfuel : level.length ≤ fuel)
    (hx : level[i]? = some x) :
    ascend node (paddedSiblings (paddedLevels node fuel level) i) i x =
      topOf (paddedLevels node fuel level) := by
  have hi := (List.getElem?_eq_some_iff.mp hx).1
  induction fuel generalizing level i x with
  | zero => omega
  | succ fuel ih =>
    rw [paddedLevels]
    split
    · next hone =>
      obtain ⟨a, rfl⟩ := length_eq_one_iff.mp (by omega : level.length = 1)
      obtain rfl : i = 0 := by simpa using hi
      cases hx
      rfl
    · next hmany =>
      have hlength := length_paddedPairs level
      have hrest := ih (by rw [length_map]; omega) (getElem?_map_paddedPairs node hx)
        (by rw [length_map]; omega)
      obtain ⟨rest, hlevels⟩ := paddedLevels_eq_cons node fuel
        ((paddedPairs level).map fun p => node p.1 p.2)
      rw [hlevels] at hrest ⊢
      exact hrest

theorem mem_flatten_paddedLevels (hy : y ∈ (paddedLevels node fuel level).flatten) : y ∈ level ∨
      ∃ p ∈ paddedTreePairs node fuel level, y = node p.1 p.2 ∧
        p.1 ∈ (paddedLevels node fuel level).flatten ∧
        p.2 ∈ (paddedLevels node fuel level).flatten := by
  induction fuel generalizing level with
  | zero => exact .inl (by simpa [paddedLevels] using hy)
  | succ fuel ih =>
    rw [paddedLevels, paddedTreePairs] at *
    split at hy
    · exact .inl (by simpa using hy)
    · next hmany =>
      rw [if_neg hmany, if_neg hmany]
      rw [flatten_cons] at hy ⊢
      rcases mem_append.mp hy with hy | hy
      · exact .inl hy
      · refine .inr ?_
        rcases ih hy with hlevel | ⟨p, hp, rfl, hfst, hsnd⟩
        · obtain ⟨p, hp, rfl⟩ := mem_map.mp hlevel
          obtain ⟨hfst, hsnd⟩ := mem_of_mem_paddedPairs hp
          exact ⟨p, mem_append_left _ hp, rfl, mem_append_left _ hfst,
            mem_append_left _ hsnd⟩
        · exact ⟨p, mem_append_right _ hp, rfl, mem_append_right _ hfst,
            mem_append_right _ hsnd⟩

theorem forall_paddedTreePairs (hnode : ∀ a b, B (node a b)) (h : ∀ a ∈ level, B a) :
    ∀ p ∈ paddedTreePairs node fuel level, B p.1 ∧ B p.2 := by
  induction fuel generalizing level with
  | zero => exact fun p hp => (not_mem_nil hp).elim
  | succ fuel ih =>
    intro p hp
    rw [paddedTreePairs] at hp
    split at hp
    · cases hp
    rcases mem_append.mp hp with hp | hp
    · obtain ⟨hfst, hsnd⟩ := mem_of_mem_paddedPairs hp
      exact ⟨h _ hfst, h _ hsnd⟩
    · refine ih (fun y hy => ?_) p hp
      obtain ⟨q, -, rfl⟩ := mem_map.mp hy
      exact hnode _ _

theorem forall_paddedSiblings [Inhabited α] (hdefault : B default) {levels : List (List α)}
    (h : ∀ y ∈ levels.flatten, B y) :
    ∀ s ∈ paddedSiblings levels i, B s := by
  induction levels, i using paddedSiblings.induct with
  | case1 level next rest i ih =>
    have hget : ∀ (j : ℕ) (fallback : α), B fallback → B (level.getD j fallback) := by
      intro j fallback hfallback
      rw [getD_eq_getElem?_getD]
      cases hj : level[j]? with
      | none => exact hfallback
      | some y => exact h y (mem_append_left _ (mem_of_getElem? hj))
    intro s hs
    rcases mem_cons.mp hs with rfl | hs
    · unfold paddedSibling
      split
      · exact hget _ _ (hget _ _ hdefault)
      · exact hget _ _ hdefault
    · exact ih (forall_mem_append.mp h).2 s hs
  | case2 levels i hlevels =>
    intro s hs
    rw [paddedSiblings] at hs
    · cases hs
    · exact hlevels

theorem topOf_mem [Inhabited α] (hlevel : level ≠ []) :
    topOf (paddedLevels node fuel level) ∈ (paddedLevels node fuel level).flatten := by
  induction fuel generalizing level with
  | zero =>
    obtain ⟨a, rest, rfl⟩ := exists_cons_of_ne_nil hlevel
    simp [paddedLevels, topOf]
  | succ fuel ih =>
    rw [paddedLevels]
    split
    · obtain ⟨a, rest, rfl⟩ := exists_cons_of_ne_nil hlevel
      simp [topOf]
    · have hlength := length_paddedPairs level
      have hnext : ((paddedPairs level).map fun p => node p.1 p.2) ≠ [] := by
        rw [← length_pos_iff, length_map]
        omega
      obtain ⟨rest, hlevels⟩ := paddedLevels_eq_cons node fuel
        ((paddedPairs level).map fun p => node p.1 p.2)
      have hmem := ih hnext
      rw [hlevels] at hmem ⊢
      exact mem_append_right _ hmem

/-- A way up that ends in a tree begins in it, if no two pairs are combined to one digest and none
on the way to a digest of the lowest level. Its length does not matter. -/
theorem mem_of_ascend_mem (hinj : Set.InjOn (fun p : α × α => node p.1 p.2)
      {p | p ∈ paddedTreePairs node fuel level ∨ p ∈ ascentPairs node sibs i x})
    (hleaf : ∀ p ∈ ascentPairs node sibs i x, node p.1 p.2 ∉ level)
    (htop : ascend node sibs i x ∈ (paddedLevels node fuel level).flatten) :
    x ∈ (paddedLevels node fuel level).flatten := by
  induction sibs generalizing i x with
  | nil => exact htop
  | cons s sibs ih =>
    have hsub : {p | p ∈ paddedTreePairs node fuel level ∨
        p ∈ ascentPairs node sibs (i / 2) (node (sided i x s).1 (sided i x s).2)} ⊆
          {p | p ∈ paddedTreePairs node fuel level ∨ p ∈ ascentPairs node (s :: sibs) i x} := by
      rintro p (hp | hp)
      · exact .inl hp
      · exact .inr (mem_cons_of_mem _ hp)
    have hnext := ih (hinj.mono hsub) (forall_mem_cons.mp hleaf).2 htop
    rcases mem_flatten_paddedLevels hnext with hlevel | ⟨p, hp, heq, hfst, hsnd⟩
    · exact absurd hlevel (hleaf _ mem_cons_self)
    · have hpair : sided i x s = p := hinj (.inr mem_cons_self) (.inl hp) heq
      unfold sided at hpair
      split at hpair
      · subst hpair
        exact hfst
      · subst hpair
        exact hsnd

theorem ascend_inj (hinj : Set.InjOn (fun p : α × α => node p.1 p.2)
      {p | p ∈ ascentPairs node sibs i x ∨ p ∈ ascentPairs node sibs i y})
    (h : ascend node sibs i x = ascend node sibs i y) : x = y := by
  induction sibs generalizing i x y with
  | nil => exact h
  | cons s sibs ih =>
    have hsub : {p | p ∈ ascentPairs node sibs (i / 2) (node (sided i x s).1 (sided i x s).2) ∨
        p ∈ ascentPairs node sibs (i / 2) (node (sided i y s).1 (sided i y s).2)} ⊆
          {p | p ∈ ascentPairs node (s :: sibs) i x ∨ p ∈ ascentPairs node (s :: sibs) i y} := by
      rintro p (hp | hp)
      · exact .inl (mem_cons_of_mem _ hp)
      · exact .inr (mem_cons_of_mem _ hp)
    have hpair : sided i x s = sided i y s :=
      hinj (.inl mem_cons_self) (.inr mem_cons_self) (ih (hinj.mono hsub) h)
    unfold sided at hpair
    split at hpair
    · exact (Prod.mk.inj hpair).1
    · exact (Prod.mk.inj hpair).2

theorem ascentPairs_paddedSiblings [Inhabited α] (hx : level[i]? = some x) :
    ∀ p ∈ ascentPairs node (paddedSiblings (paddedLevels node fuel level) i) i x,
      p ∈ paddedTreePairs node fuel level := by
  induction fuel generalizing level i x with
  | zero => exact fun p hp => (not_mem_nil hp).elim
  | succ fuel ih =>
    rw [paddedLevels, paddedTreePairs]
    split
    · exact fun p hp => (not_mem_nil hp).elim
    · have hrest := ih (getElem?_map_paddedPairs node hx)
      obtain ⟨rest, hlevels⟩ := paddedLevels_eq_cons node fuel
        ((paddedPairs level).map fun p => node p.1 p.2)
      rw [hlevels] at hrest ⊢
      intro p hp
      rcases mem_cons.mp hp with rfl | hp
      · exact mem_append_left _ (mem_of_getElem? (getElem?_paddedPairs hx))
      · exact mem_append_right _ (hrest p hp)

/-- The way up from the position `2 ^ k`, taken as if it were position zero, misses the top, unless
the digest is also the first one. -/
theorem getElem?_zero_of_ascend_zero [Inhabited α] {k : ℕ} (hfuel : level.length ≤ fuel)
    (hx : level[2 ^ k]? = some x) (hinj : Set.InjOn (fun p : α × α => node p.1 p.2)
      {p | p ∈ paddedTreePairs node fuel level ∨
      p ∈ ascentPairs node (paddedSiblings (paddedLevels node fuel level) (2 ^ k)) 0 x})
    (htop : ascend node (paddedSiblings (paddedLevels node fuel level) (2 ^ k)) 0 x =
      topOf (paddedLevels node fuel level)) : level[0]? = some x := by
  have hk := (List.getElem?_eq_some_iff.mp hx).1
  induction fuel generalizing level k x with
  | zero => exact absurd (hk.trans_le hfuel) (Nat.not_lt_zero _)
  | succ fuel ih =>
    have hpos := Nat.two_pow_pos k
    have hmany : ¬ level.length ≤ 1 := by omega
    obtain ⟨first, hfirst⟩ : ∃ first, level[0]? = some first :=
      ⟨_, List.getElem?_eq_getElem (by omega)⟩
    have hup := getElem?_map_paddedPairs node hx
    have hfirstUp := getElem?_map_paddedPairs node hfirst
    have hlength : ((paddedPairs level).map fun p => node p.1 p.2).length =
        (level.length + 1) / 2 := by
      rw [length_map, length_paddedPairs]
    rw [paddedTreePairs, if_neg hmany] at hinj
    rw [paddedLevels, if_neg hmany] at hinj htop
    generalize hnext : ((paddedPairs level).map fun p => node p.1 p.2) = next at *
    obtain ⟨rest, hlevels⟩ := paddedLevels_eq_cons node fuel next
    rw [hlevels, paddedSiblings] at hinj htop
    cases k with
    | zero =>
      have hsibling : paddedSibling level (2 ^ 0) = first := by
        simp [paddedSibling, hfirst]
      rw [hsibling] at hup hinj htop
      -- the pair of the tree is the pair of the way up turned round
      have hhonest :
          ascend node (paddedSiblings (next :: rest) (2 ^ 0 / 2)) (0 / 2) (node first x) =
            topOf (next :: rest) :=
        hlevels ▸ ascend_paddedSiblings (by omega) hup
      have hturned : node x first = node first x := by
        refine ascend_inj (hinj.mono ?_) (htop.trans hhonest.symm)
        rintro p (hp | hp)
        · exact .inr (mem_cons_of_mem _ hp)
        · exact .inl (mem_append_right _
            (ascentPairs_paddedSiblings hup p (by rw [hlevels]; exact hp)))
      have hpair : (first, x) ∈ paddedPairs level :=
        hsibling ▸ mem_of_getElem? (getElem?_paddedPairs hx)
      have heq : (x, first) = (first, x) :=
        hinj (.inr mem_cons_self) (.inl (mem_append_left _ hpair)) hturned
      rw [hfirst, (Prod.mk.inj heq).1]
    | succ k =>
      have hhalf : 2 ^ (k + 1) / 2 = 2 ^ k := by rw [Nat.pow_succ, Nat.mul_div_cancel _ Nat.two_pos]
      have heven : 2 ^ (k + 1) % 2 = 0 := by rw [Nat.pow_succ, Nat.mul_mod_left]
      have hsided : ∀ s : α, sided (2 ^ (k + 1)) x s = (x, s) := fun s => if_pos heven
      rw [hsided, hhalf] at hup
      rw [hhalf] at hinj htop
      have htopUp : ascend node (paddedSiblings (next :: rest) (2 ^ k)) 0
          (node x (paddedSibling level (2 ^ (k + 1)))) = topOf (next :: rest) := htop
      rw [← hlevels] at hinj htopUp
      have hnextFirst := ih (by omega) hup (hinj.mono ?_) htopUp (by omega)
      · have hpair := mem_of_getElem? (getElem?_paddedPairs hx)
        have hfirstPair := mem_of_getElem? (getElem?_paddedPairs hfirst)
        have heq := hinj (.inl (mem_append_left _ hfirstPair))
          (.inl (mem_append_left _ hpair))
          (by simpa only [hsided] using Option.some.inj (hfirstUp.symm.trans hnextFirst))
        rw [hsided] at heq
        rw [hfirst, (Prod.mk.inj heq).1]
      · rintro p (hp | hp)
        · exact .inl (mem_append_right _ hp)
        · exact .inr (mem_cons_of_mem _ hp)

end Misaka.Core
