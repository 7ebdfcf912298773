import Misaka.Core.Merkle
import Misaka.Palw.Payload

/-!
# Trees of keyed digests

What the trees of `consensus/core/src/palw.rs` and `palw/da.rs` share: an inner node is the keyed
digest of its two children under the domain of the tree. A path is told apart from every other one
as long as no two of the messages hashed on either side have the same digest.
-/

namespace Misaka.Palw

open Misaka.Core Dns List

variable (P : PalwPrimitives)

/-- `blake2b_512_keyed` of a message: its domain and its text. -/
def PalwPrimitives.digest (message : Bytes × Bytes) : Hash64 :=
  P.blake2b512Keyed message.1 message.2

structure NoCollision (messages : List (Bytes × Bytes)) : Prop where
  sized : ∀ message, P.digest message < 256 ^ 64
  inj : ∀ m ∈ messages, ∀ m' ∈ messages, P.digest m = P.digest m' → m = m'

def pairMessage (dom : Bytes) (pair : Hash64 × Hash64) : Bytes × Bytes :=
  (dom, hash64Bytes pair.1 ++ hash64Bytes pair.2)

def pairNode (dom : Bytes) (left right : Hash64) : Hash64 :=
  P.digest (pairMessage dom (left, right))

def treeMessages (dom : Bytes) (d : ℕ) (level : List Hash64) : List (Bytes × Bytes) :=
  (treePairs (pairNode P dom) d level).map (pairMessage dom)

def pathMessages (dom : Bytes) (sibs : List Hash64) (i : ℕ) (x : Hash64) : List (Bytes × Bytes) :=
  (ascentPairs (pairNode P dom) sibs i x).map (pairMessage dom)

def paddedMessages (dom : Bytes) (leaves : List Hash64) : List (Bytes × Bytes) :=
  (paddedTreePairs (pairNode P dom) leaves.length leaves).map (pairMessage dom)

def openingMessages (dom : Bytes) (leaves : List (Bytes × Bytes)) (m : Bytes × Bytes)
    (sibs : List Hash64) (i : ℕ) : List (Bytes × Bytes) :=
  leaves ++ paddedMessages P dom (leaves.map P.digest) ++
    m :: pathMessages P dom sibs i (P.digest m)

variable {P} {messages : List (Bytes × Bytes)} {dom : Bytes} {d i : ℕ} {level sibs : List Hash64}
  {x : Hash64}

theorem pairMessage_inj {p q : Hash64 × Hash64} (hp : p.1 < 256 ^ 64 ∧ p.2 < 256 ^ 64)
    (hq : q.1 < 256 ^ 64 ∧ q.2 < 256 ^ 64) (h : pairMessage dom p = pairMessage dom q) : p = q := by
  obtain ⟨hfst, hrest⟩ := selfDelimiting_hash64Bytes hp.1 hq.1 (Prod.mk.inj h).2
  exact Prod.ext hfst (hash64Bytes_inj hp.2 hq.2 hrest)

namespace NoCollision

theorem mono (h : NoCollision P messages) {fewer : List (Bytes × Bytes)}
    (hsub : fewer ⊆ messages) : NoCollision P fewer :=
  ⟨h.sized, fun m hm m' hm' => h.inj m (hsub hm) m' (hsub hm')⟩

theorem ascend_lt (h : NoCollision P messages) (hx : x < 256 ^ 64) :
    ascend (pairNode P dom) sibs i x < 256 ^ 64 :=
  forall_ascend (B := (· < 256 ^ 64)) (fun _ _ => h.sized _) hx

theorem apex_lt (h : NoCollision P messages) (hlevel : level.length = 2 ^ d)
    (hsized : ∀ a ∈ level, a < 256 ^ 64) : apex (pairNode P dom) d level < 256 ^ 64 :=
  forall_apex (B := (· < 256 ^ 64)) (fun _ _ => h.sized _) hlevel hsized

/-- A path ends in the top of a tree exactly from the digest at its position and with the siblings
of the tree. -/
theorem ascend_eq_apex_iff
    (h : NoCollision P (treeMessages P dom d level ++ pathMessages P dom sibs i x))
    (hlevel : level.length = 2 ^ d) (hi : i < 2 ^ d) (hsibs : sibs.length = d)
    (hlevelSized : ∀ a ∈ level, a < 256 ^ 64) (hsibsSized : ∀ s ∈ sibs, s < 256 ^ 64)
    (hx : x < 256 ^ 64) :
    ascend (pairNode P dom) sibs i x = apex (pairNode P dom) d level ↔
      level[i]? = some x ∧ sibs = siblings (pairNode P dom) d level i := by
  have hnode : ∀ a b, pairNode P dom a b < 256 ^ 64 := fun _ _ => h.sized _
  refine Core.ascend_eq_apex_iff hlevel hi hsibs ?_
  have hsized : ∀ p, p ∈ treePairs (pairNode P dom) d level ∨
      p ∈ ascentPairs (pairNode P dom) sibs i x → p.1 < 256 ^ 64 ∧ p.2 < 256 ^ 64 := by
    rintro p (hp | hp)
    · exact forall_treePairs (B := (· < 256 ^ 64)) hnode hlevelSized p hp
    · exact forall_ascentPairs (B := (· < 256 ^ 64)) hnode hx hsibsSized p hp
  have hmem : ∀ p, p ∈ treePairs (pairNode P dom) d level ∨
      p ∈ ascentPairs (pairNode P dom) sibs i x →
        pairMessage dom p ∈ treeMessages P dom d level ++ pathMessages P dom sibs i x := by
    rintro p (hp | hp)
    · exact mem_append_left _ (mem_map_of_mem hp)
    · exact mem_append_right _ (mem_map_of_mem hp)
  intro p hp q hq heq
  exact pairMessage_inj (hsized p hp) (hsized q hq) (h.inj _ (hmem p hp) _ (hmem q hq) heq)

section Opening

variable {leaves : List (Bytes × Bytes)} {m : Bytes × Bytes}

theorem leaves_subset_opening : leaves ⊆ openingMessages P dom leaves m sibs i :=
  fun _ hm => mem_append_left _ (mem_append_left _ hm)

theorem tree_subset_opening :
    paddedMessages P dom (leaves.map P.digest) ⊆ openingMessages P dom leaves m sibs i :=
  fun _ hp => mem_append_left _ (mem_append_right _ hp)

theorem path_subset_opening :
    pathMessages P dom sibs i (P.digest m) ⊆ openingMessages P dom leaves m sibs i :=
  fun _ hp => mem_append_right _ (mem_cons_of_mem _ hp)

theorem digests_lt (h : NoCollision P messages) : ∀ a ∈ leaves.map P.digest, a < 256 ^ 64 := by
  intro a ha
  obtain ⟨m', -, rfl⟩ := mem_map.mp ha
  exact h.sized m'

theorem injOn_opening (h : NoCollision P (openingMessages P dom leaves m sibs i))
    (hsibs : ∀ s ∈ sibs, s < 256 ^ 64) :
    Set.InjOn (fun p : Hash64 × Hash64 => pairNode P dom p.1 p.2)
      {p | p ∈ paddedTreePairs (pairNode P dom) (leaves.map P.digest).length (leaves.map P.digest) ∨
        p ∈ ascentPairs (pairNode P dom) sibs i (P.digest m)} := by
  have hnode : ∀ a b, pairNode P dom a b < 256 ^ 64 := fun _ _ => h.sized _
  have hpair : ∀ p, p ∈ paddedTreePairs (pairNode P dom) (leaves.map P.digest).length
      (leaves.map P.digest) ∨ p ∈ ascentPairs (pairNode P dom) sibs i (P.digest m) →
        (p.1 < 256 ^ 64 ∧ p.2 < 256 ^ 64) ∧
          pairMessage dom p ∈ openingMessages P dom leaves m sibs i := by
    rintro p (hp | hp)
    · exact ⟨forall_paddedTreePairs (B := (· < 256 ^ 64)) hnode h.digests_lt p hp,
        tree_subset_opening (mem_map_of_mem hp)⟩
    · exact ⟨forall_ascentPairs (B := (· < 256 ^ 64)) hnode (h.sized m) hsibs p hp,
        path_subset_opening (mem_map_of_mem hp)⟩
  intro p hp q hq heq
  exact pairMessage_inj (hpair p hp).1 (hpair q hq).1
    (h.inj _ (hpair p hp).2 _ (hpair q hq).2 heq)

/-- A path of any length to the top of a padded tree starts at one of its leaves, if leaves and
inner nodes have different domains. -/
theorem mem_of_ascend_eq_topOf (h : NoCollision P (openingMessages P dom leaves m sibs i))
    (hleaves : ∀ m' ∈ leaves, m'.1 ≠ dom) (hm : m.1 ≠ dom) (hsibs : ∀ s ∈ sibs, s < 256 ^ 64)
    (hne : leaves ≠ [])
    (htop : ascend (pairNode P dom) sibs i (P.digest m) =
      topOf (paddedLevels (pairNode P dom) (leaves.map P.digest).length (leaves.map P.digest))) :
    m ∈ leaves := by
  have hself : m ∈ openingMessages P dom leaves m sibs i :=
    mem_append_right _ mem_cons_self
  have hstart : P.digest m ∈ (paddedLevels (pairNode P dom) (leaves.map P.digest).length
      (leaves.map P.digest)).flatten := by
    refine mem_of_ascend_mem (h.injOn_opening hsibs) (fun p hp hin => ?_)
      (htop ▸ topOf_mem (by simpa using hne))
    obtain ⟨m', hm', heq⟩ := mem_map.mp hin
    have hsame := h.inj _ (leaves_subset_opening hm') _
      (path_subset_opening (mem_map_of_mem hp)) heq
    exact hleaves m' hm' (congrArg Prod.fst hsame)
  rcases mem_flatten_paddedLevels hstart with hin | ⟨p, hp, heq, -⟩
  · obtain ⟨m', hm', heq⟩ := mem_map.mp hin
    exact h.inj _ (leaves_subset_opening hm') _ hself heq ▸ hm'
  · have hsame := h.inj _ hself _ (tree_subset_opening (mem_map_of_mem hp)) heq
    exact absurd (congrArg Prod.fst hsame) hm

/-- The path of the leaf at `2 ^ k` does not verify at position zero, unless that leaf is also the
first. -/
theorem getElem?_zero_of_ascend_zero {k : ℕ} (hm : leaves[2 ^ k]? = some m)
    (hsibs : sibs = paddedSiblings
      (paddedLevels (pairNode P dom) (leaves.map P.digest).length (leaves.map P.digest)) (2 ^ k))
    (h : NoCollision P (openingMessages P dom leaves m sibs 0))
    (htop : ascend (pairNode P dom) sibs 0 (P.digest m) =
      topOf (paddedLevels (pairNode P dom) (leaves.map P.digest).length (leaves.map P.digest))) :
    leaves[0]? = some m := by
  have hsibsSized : ∀ s ∈ sibs, s < 256 ^ 64 := by
    rw [hsibs]
    refine forall_paddedSiblings (B := (· < 256 ^ 64)) (by decide) fun y hy => ?_
    rcases mem_flatten_paddedLevels hy with hin | ⟨p, -, rfl, -⟩
    · exact h.digests_lt y hin
    · exact h.sized _
  have hinj := h.injOn_opening hsibsSized
  have hdigest : (leaves.map P.digest)[2 ^ k]? = some (P.digest m) := by
    rw [List.getElem?_map, hm]
    rfl
  rw [hsibs] at hinj htop
  have hfirst := Core.getElem?_zero_of_ascend_zero (Nat.le_refl _) hdigest hinj htop
  rw [List.getElem?_map] at hfirst
  obtain ⟨m', hm', heq⟩ := Option.map_eq_some_iff.mp hfirst
  rw [hm', h.inj _ (leaves_subset_opening (mem_of_getElem? hm')) _
    (leaves_subset_opening (mem_of_getElem? hm)) heq]

end Opening

end NoCollision

theorem samplePalwPrimitives_sized (message : Bytes × Bytes) :
    samplePalwPrimitives.digest message < 256 ^ 64 := by
  have hfold : ∀ (bytes : Bytes) (h : ℕ), h < 65521 →
      bytes.foldl (fun h b => (31 * h + b.toNat) % 65521) h < 65521 := by
    intro bytes
    induction bytes with
    | nil => exact fun h hh => hh
    | cons b bytes ih => exact fun h _ => ih _ (Nat.mod_lt _ (by decide))
  exact (hfold (message.2.take 400) 7 (by decide)).trans (by decide)

end Misaka.Palw
