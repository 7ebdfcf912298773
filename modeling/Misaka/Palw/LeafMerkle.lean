import Mathlib.Data.Nat.Size
import Misaka.Palw.HashTree

/-!
# Membership of a leaf in its batch

The leaf tree of `consensus/core/src/palw.rs`: the digests of the leaves, each bound to its index,
are padded to a power of two with a constant and combined pairwise; the root binds the number of
leaves. A proof lists the siblings from the bottom up.
-/

namespace Misaka.Palw

open Misaka.Core Dns List

def PALW_LEAF_ROOT_DOMAIN : Bytes := domain "misaka-palw-leaf-root-v1"
def PALW_LEAF_MERKLE_LEAF_DOMAIN : Bytes := domain "misaka-palw-leaf-merkle-leaf-v1"
def PALW_LEAF_MERKLE_NODE_DOMAIN : Bytes := domain "misaka-palw-leaf-merkle-node-v1"
def PALW_LEAF_MERKLE_EMPTY_DOMAIN : Bytes := domain "misaka-palw-leaf-merkle-empty-v1"

variable (P : PalwPrimitives)

/-- The bit length of `leaf_count - 1`. -/
def palwLeafMerkleDepth (leafCount : ℕ) : ℕ :=
  let n := max leafCount 1
  if n ≤ 1 then 0 else Nat.size (n - 1)

def palwLeafMerkleEmpty : Hash64 := P.digest (PALW_LEAF_MERKLE_EMPTY_DOMAIN, [])

def leafMessage (leafIndex : ℕ) (leafHash : Hash64) : Bytes × Bytes :=
  (PALW_LEAF_MERKLE_LEAF_DOMAIN, leBytes 4 leafIndex ++ hash64Bytes leafHash)

def palwLeafMerkleLeafNode (leafIndex : ℕ) (leafHash : Hash64) : Hash64 :=
  P.digest (leafMessage leafIndex leafHash)

def palwLeafMerkleInternalNode : Hash64 → Hash64 → Hash64 := pairNode P PALW_LEAF_MERKLE_NODE_DOMAIN

def rootMessage (leafCount : ℕ) (apex : Hash64) : Bytes × Bytes :=
  (PALW_LEAF_ROOT_DOMAIN, leBytes 8 leafCount ++ hash64Bytes apex)

def palwLeafMerkleFinalize (leafCount : ℕ) (apex : Hash64) : Hash64 :=
  P.digest (rootMessage leafCount apex)

def leafMerkleLevel (orderedLeafHashes : List Hash64) : List Hash64 :=
  let nodes := orderedLeafHashes.zipIdx.map fun (h, i) => palwLeafMerkleLeafNode P i h
  nodes ++ List.replicate
    (2 ^ palwLeafMerkleDepth orderedLeafHashes.length - orderedLeafHashes.length)
    (palwLeafMerkleEmpty P)

def leafMerkleApex (orderedLeafHashes : List Hash64) : Hash64 :=
  apex (palwLeafMerkleInternalNode P) (palwLeafMerkleDepth orderedLeafHashes.length)
    (leafMerkleLevel P orderedLeafHashes)

def palwLeafMerkleRoot (orderedLeafHashes : List Hash64) : Hash64 :=
  palwLeafMerkleFinalize P orderedLeafHashes.length (leafMerkleApex P orderedLeafHashes)

def palwLeafMerkleProof (orderedLeafHashes : List Hash64) (leafIndex : ℕ) :
    Option PalwLeafMembershipProofV1 :=
  if leafIndex ≥ orderedLeafHashes.length then none
  else some ⟨siblings (palwLeafMerkleInternalNode P)
    (palwLeafMerkleDepth orderedLeafHashes.length) (leafMerkleLevel P orderedLeafHashes) leafIndex⟩

/-- The walk of `palw_verify_leaf_membership`, the bits of the index choosing the side. -/
def leafMerkleWalk (leafHash : Hash64) (leafIndex : ℕ) (sibs : List Hash64) : Hash64 :=
  ascend (palwLeafMerkleInternalNode P) sibs leafIndex (palwLeafMerkleLeafNode P leafIndex leafHash)

def palwVerifyLeafMembership (leafHash : Hash64) (leafIndex leafCount : ℕ)
    (proof : PalwLeafMembershipProofV1) (expectedRoot : Hash64) : Bool :=
  if leafIndex ≥ leafCount then false
  else if proof.siblings.length ≠ palwLeafMerkleDepth leafCount then false
  else palwLeafMerkleFinalize P leafCount (leafMerkleWalk P leafHash leafIndex proof.siblings) ==
    expectedRoot

/-- The messages `palw_leaf_merkle_root` hashes. -/
def leafRootMessages (hashes : List Hash64) : List (Bytes × Bytes) :=
  rootMessage hashes.length (leafMerkleApex P hashes) :: (PALW_LEAF_MERKLE_EMPTY_DOMAIN, []) ::
    hashes.zipIdx.map (fun (h, i) => leafMessage i h) ++
    treeMessages P PALW_LEAF_MERKLE_NODE_DOMAIN (palwLeafMerkleDepth hashes.length)
      (leafMerkleLevel P hashes)

/-- The messages `palw_verify_leaf_membership` hashes. -/
def leafProofMessages (leafHash : Hash64) (leafIndex leafCount : ℕ) (sibs : List Hash64) :
    List (Bytes × Bytes) :=
  rootMessage leafCount (leafMerkleWalk P leafHash leafIndex sibs) ::
    leafMessage leafIndex leafHash :: pathMessages P PALW_LEAF_MERKLE_NODE_DOMAIN sibs leafIndex
      (palwLeafMerkleLeafNode P leafIndex leafHash)

variable {P} {hashes : List Hash64}

theorem le_two_pow_palwLeafMerkleDepth (n : ℕ) : n ≤ 2 ^ palwLeafMerkleDepth n := by
  unfold palwLeafMerkleDepth
  dsimp only
  split
  · rw [pow_zero]
    omega
  · have := Nat.lt_size_self (max n 1 - 1)
    omega

theorem length_leafMerkleLevel : (leafMerkleLevel P hashes).length =
    2 ^ palwLeafMerkleDepth hashes.length := by
  have := le_two_pow_palwLeafMerkleDepth hashes.length
  simp only [leafMerkleLevel, length_append, length_map, length_zipIdx,
    length_replicate]
  omega

theorem getElem?_leafMerkleLevel {i : ℕ} (hi : i < hashes.length) :
    (leafMerkleLevel P hashes)[i]? = hashes[i]?.map (palwLeafMerkleLeafNode P i) := by
  rw [leafMerkleLevel, List.getElem?_append_left (by simpa using hi)]
  simp [hi]

theorem leafMerkleLevel_lt (hsized : ∀ message, P.digest message < 256 ^ 64) :
    ∀ node ∈ leafMerkleLevel P hashes, node < 256 ^ 64 := by
  intro node hnode
  rcases mem_append.mp hnode with hnode | hnode
  · obtain ⟨-, -, rfl⟩ := mem_map.mp hnode
    exact hsized _
  · rw [eq_of_mem_replicate hnode]
    exact hsized _

theorem palwLeafMerkleProof_eq_some_iff {leafIndex : ℕ} {sibs : List Hash64} :
    palwLeafMerkleProof P hashes leafIndex = some ⟨sibs⟩ ↔ leafIndex < hashes.length ∧
      sibs = siblings (palwLeafMerkleInternalNode P) (palwLeafMerkleDepth hashes.length)
        (leafMerkleLevel P hashes) leafIndex := by
  unfold palwLeafMerkleProof
  split_ifs with hindex
  · simp [not_lt.mpr hindex]
  · simp [Nat.lt_of_not_le hindex, eq_comm]

variable {messages : List (Bytes × Bytes)}

section Membership

variable {leafHash : Hash64} {leafIndex leafCount : ℕ} {sibs : List Hash64}

theorem palwVerifyLeafMembership_iff {root : Hash64} :
    palwVerifyLeafMembership P leafHash leafIndex leafCount ⟨sibs⟩ root = true ↔
      leafIndex < leafCount ∧ sibs.length = palwLeafMerkleDepth leafCount ∧
        palwLeafMerkleFinalize P leafCount (leafMerkleWalk P leafHash leafIndex sibs) = root := by
  unfold palwVerifyLeafMembership
  split_ifs with hindex hdepth
  · simp [not_lt.mpr hindex]
  · simp [hdepth]
  · simp only [not_not, ge_iff_le, not_le] at hindex hdepth
    simp [hindex, hdepth]

theorem NoCollision.finalize_eq_iff (h : NoCollision P messages) {n m : ℕ} {x y : Hash64}
    (hn : rootMessage n x ∈ messages) (hm : rootMessage m y ∈ messages) (hn64 : n < 2 ^ 64)
    (hm64 : m < 2 ^ 64) (hx : x < 256 ^ 64) (hy : y < 256 ^ 64) :
    palwLeafMerkleFinalize P n x = palwLeafMerkleFinalize P m y ↔ n = m ∧ x = y := by
  refine ⟨fun heq => ?_, by rintro ⟨rfl, rfl⟩; rfl⟩
  have htext := (Prod.mk.inj (h.inj _ hn _ hm heq)).2
  obtain ⟨hcount, hrest⟩ :=
    selfDelimiting_leBytes 8 (by simpa using hn64) (by simpa using hm64) htext
  exact ⟨hcount, hash64Bytes_inj hx hy hrest⟩

theorem NoCollision.leafNode_eq_iff (h : NoCollision P messages) {i : ℕ} {x y : Hash64}
    (hx : leafMessage i x ∈ messages) (hy : leafMessage i y ∈ messages) (hx64 : x < 256 ^ 64)
    (hy64 : y < 256 ^ 64) :
    palwLeafMerkleLeafNode P i x = palwLeafMerkleLeafNode P i y ↔ x = y := by
  refine ⟨fun heq => ?_, by rintro rfl; rfl⟩
  have htext := (Prod.mk.inj (h.inj _ hx _ hy heq)).2
  exact hash64Bytes_inj hx64 hy64 (append_cancel_left htext)

/-- The walk of a proof ends in the top of the tree exactly from the leaf of its index and with the
siblings of the tree. -/
theorem NoCollision.leafMerkleWalk_eq_iff
    (h : NoCollision P (leafRootMessages P hashes ++
      leafProofMessages P leafHash leafIndex leafCount sibs))
    (hhashes : ∀ x ∈ hashes, x < 256 ^ 64) (hleaf : leafHash < 256 ^ 64)
    (hsibs : ∀ s ∈ sibs, s < 256 ^ 64) (hindex : leafIndex < hashes.length)
    (hdepth : sibs.length = palwLeafMerkleDepth hashes.length) :
    leafMerkleWalk P leafHash leafIndex sibs = leafMerkleApex P hashes ↔
      hashes[leafIndex]? = some leafHash ∧
        sibs = siblings (palwLeafMerkleInternalNode P) (palwLeafMerkleDepth hashes.length)
          (leafMerkleLevel P hashes) leafIndex := by
  have hwidth := le_two_pow_palwLeafMerkleDepth hashes.length
  have hmem := getElem_mem hindex
  have hmessage : leafMessage leafIndex hashes[leafIndex] ∈ leafRootMessages P hashes := by
    refine mem_append_left _ (mem_cons_of_mem _ (mem_cons_of_mem _ ?_))
    exact mem_map.mpr ⟨(hashes[leafIndex], leafIndex),
      mem_zipIdx_iff_getElem?.mpr (List.getElem?_eq_getElem hindex), rfl⟩
  have hnode := h.leafNode_eq_iff (mem_append_left _ hmessage)
    (mem_append_right _ (mem_cons_of_mem _ mem_cons_self)) (hhashes _ hmem) hleaf
  have hinner : NoCollision P (treeMessages P PALW_LEAF_MERKLE_NODE_DOMAIN
      (palwLeafMerkleDepth hashes.length) (leafMerkleLevel P hashes) ++
      pathMessages P PALW_LEAF_MERKLE_NODE_DOMAIN sibs leafIndex
        (palwLeafMerkleLeafNode P leafIndex leafHash)) := by
    refine h.mono (append_subset.mpr ⟨fun m hm => ?_, fun m hm => ?_⟩)
    · exact mem_append_left _ (mem_append_right _ hm)
    · exact mem_append_right _ (mem_cons_of_mem _ (mem_cons_of_mem _ hm))
  rw [leafMerkleWalk, leafMerkleApex, palwLeafMerkleInternalNode,
    hinner.ascend_eq_apex_iff length_leafMerkleLevel (by omega) hdepth (leafMerkleLevel_lt h.sized)
      hsibs (h.sized _),
    getElem?_leafMerkleLevel hindex, List.getElem?_eq_getElem hindex, Option.map_some,
    Option.some_inj, Option.some_inj, hnode]

/-- A proof is accepted against the root of a list exactly for the true count, the leaf of its index
and the siblings of the tree. -/
theorem palwVerifyLeafMembership_root_iff {proof : PalwLeafMembershipProofV1}
    (hlength : hashes.length < 2 ^ 32) (hcount : leafCount < 2 ^ 32)
    (hhashes : ∀ h ∈ hashes, h < 256 ^ 64) (hleaf : leafHash < 256 ^ 64)
    (hsibs : ∀ s ∈ proof.siblings, s < 256 ^ 64)
    (hno : NoCollision P (leafRootMessages P hashes ++
      leafProofMessages P leafHash leafIndex leafCount proof.siblings)) :
    palwVerifyLeafMembership P leafHash leafIndex leafCount proof (palwLeafMerkleRoot P hashes) =
        true ↔
      leafCount = hashes.length ∧ leafIndex < leafCount ∧ hashes[leafIndex]? = some leafHash ∧
        palwLeafMerkleProof P hashes leafIndex = some proof := by
  obtain ⟨sibs⟩ := proof
  have hroot := hno.finalize_eq_iff (mem_append_right _ mem_cons_self)
    (mem_append_left _ mem_cons_self) (by omega) (by omega) (hno.ascend_lt (hno.sized _))
    (hno.apex_lt length_leafMerkleLevel (leafMerkleLevel_lt hno.sized))
  rw [palwVerifyLeafMembership_iff, palwLeafMerkleProof_eq_some_iff]
  constructor
  · rintro ⟨hindex, hdepth, heq⟩
    obtain ⟨rfl, htop⟩ := hroot.mp heq
    obtain ⟨hmember, hproof⟩ :=
      (hno.leafMerkleWalk_eq_iff hhashes hleaf hsibs hindex hdepth).mp htop
    exact ⟨rfl, hindex, hmember, hindex, hproof⟩
  · rintro ⟨rfl, hindex, hmember, -, rfl⟩
    have hdepth : (siblings (palwLeafMerkleInternalNode P) (palwLeafMerkleDepth hashes.length)
        (leafMerkleLevel P hashes) leafIndex).length = palwLeafMerkleDepth hashes.length :=
      length_siblings ..
    have htop := (hno.leafMerkleWalk_eq_iff hhashes hleaf hsibs hindex hdepth).mpr ⟨hmember, rfl⟩
    exact ⟨hindex, hdepth, hroot.mpr ⟨rfl, htop⟩⟩

def sampleLeafProof : PalwLeafMembershipProofV1 :=
  ⟨siblings (palwLeafMerkleInternalNode samplePalwPrimitives) 2
    (leafMerkleLevel samplePalwPrimitives [11, 12, 13]) 2⟩

theorem palwVerifyLeafMembership_root_iff_three :
    palwVerifyLeafMembership samplePalwPrimitives 13 2 3 sampleLeafProof
      (palwLeafMerkleRoot samplePalwPrimitives [11, 12, 13]) = true :=
  (palwVerifyLeafMembership_root_iff (by decide) (by decide) (by decide) (by decide)
    (by decide +kernel) ⟨samplePalwPrimitives_sized, by decide +kernel⟩).mpr
    ⟨rfl, by decide, rfl, rfl⟩

end Membership

end Misaka.Palw
