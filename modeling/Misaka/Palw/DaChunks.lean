import Misaka.Palw.DaState
import Misaka.Palw.HashTree

/-!
# Chunks of a receipt object

The chunk tree of `consensus/core/src/palw/da.rs`: an object is cut into chunks of one size, the
last one holding the rest; the digests of the chunks are padded to a power of two and combined
pairwise.
-/

namespace Misaka.Palw

open Misaka.Core Dns PalwDaStateV1 List

def PALW_DA_CHUNK_EMPTY_DOMAIN : Bytes := domain "misaka-palw-da-chunk-empty-v1"

def objectChunk (object : Bytes) (index : ℕ) : Bytes :=
  (object.take (min ((index + 1) * PALW_DA_CHUNK_BYTES) object.length)).drop
    (index * PALW_DA_CHUNK_BYTES)

def chunkLeafMessage (objectVersion objectLen chunkCount chunkIndex : ℕ) (chunk : Bytes) :
    Bytes × Bytes :=
  (PALW_DA_CHUNK_LEAF_DOMAIN,
    leBytes 2 objectVersion ++ leBytes 4 objectLen ++ leBytes 2 chunkCount ++
      leBytes 2 chunkIndex ++ leBytes 4 chunk.length ++ chunk)

def emptyLeafMessage (objectVersion objectLen chunkCount paddedIndex : ℕ) : Bytes × Bytes :=
  (PALW_DA_CHUNK_EMPTY_DOMAIN,
    leBytes 2 objectVersion ++ leBytes 4 objectLen ++ leBytes 2 chunkCount ++ leBytes 2 paddedIndex)

def objectRootMessage (objectVersion objectLen chunkCount : ℕ) (apex : Hash64) : Bytes × Bytes :=
  (PALW_DA_OBJECT_ROOT_DOMAIN,
    leBytes 2 objectVersion ++ leBytes 4 objectLen ++ leBytes 2 chunkCount ++ hash64Bytes apex)

def treeLeafMessage (objectVersion : ℕ) (object : Bytes) (chunkCount index : ℕ) : Bytes × Bytes :=
  if index < chunkCount then
    chunkLeafMessage objectVersion object.length chunkCount index (objectChunk object index)
  else emptyLeafMessage objectVersion object.length chunkCount index

variable (P : PalwPrimitives)

def treeLeaves (objectVersion : ℕ) (object : Bytes) (chunkCount : ℕ) : List Hash64 :=
  (List.range (2 ^ Nat.clog 2 chunkCount)).map fun index =>
    P.digest (treeLeafMessage objectVersion object chunkCount index)

def chunkApex (objectVersion : ℕ) (object : Bytes) (chunkCount : ℕ) : Hash64 :=
  apex (nodeHash P) (Nat.clog 2 chunkCount) (treeLeaves P objectVersion object chunkCount)

def palwReceiptDaCommitment (objectVersion : ℕ) (object : Bytes) :
    Except PalwDaError PalwReceiptDaCommitmentV1 := do
  failIf (!supportedObjectVersion objectVersion) (.unsupportedVersion objectVersion)
  let chunkCount ← expectedChunkCount object.length
  return {
    objectVersion
    objectLen := object.length
    chunkCount
    root := finalizeRoot P objectVersion object.length chunkCount
      (chunkApex P objectVersion object chunkCount) }

def palwReceiptDaChunkProof (objectVersion : ℕ) (object : Bytes) (chunkIndex : ℕ) :
    Except PalwDaError PalwReceiptDaChunkProofV1 := do
  let chunkCount ← expectedChunkCount object.length
  failIf (!supportedObjectVersion objectVersion) (.unsupportedVersion objectVersion)
  failIf (chunkIndex ≥ chunkCount) .chunkIndex
  return {
    version := PALW_RECEIPT_DA_PROOF_VERSION_V1
    objectVersion
    objectLen := object.length
    chunkCount
    chunkIndex
    chunk := objectChunk object chunkIndex
    siblings := siblings (nodeHash P) (Nat.clog 2 chunkCount)
      (treeLeaves P objectVersion object chunkCount) chunkIndex }

def commitmentMessages (objectVersion : ℕ) (object : Bytes) (chunkCount : ℕ) :
    List (Bytes × Bytes) :=
  objectRootMessage objectVersion object.length chunkCount
      (chunkApex P objectVersion object chunkCount) ::
    (List.range (2 ^ Nat.clog 2 chunkCount)).map
      (treeLeafMessage objectVersion object chunkCount) ++
    treeMessages P PALW_DA_CHUNK_NODE_DOMAIN (Nat.clog 2 chunkCount)
      (treeLeaves P objectVersion object chunkCount)

def proofLeafMessage (proof : PalwReceiptDaChunkProofV1) : Bytes × Bytes :=
  chunkLeafMessage proof.objectVersion proof.objectLen proof.chunkCount proof.chunkIndex proof.chunk

def chunkProofMessages (proof : PalwReceiptDaChunkProofV1) : List (Bytes × Bytes) :=
  objectRootMessage proof.objectVersion proof.objectLen proof.chunkCount
      (climb P proof.siblings proof.chunkIndex (chunkLeafHash P proof)) :: proofLeafMessage proof ::
    pathMessages P PALW_DA_CHUNK_NODE_DOMAIN proof.siblings proof.chunkIndex (chunkLeafHash P proof)

variable {P} {objectVersion : ℕ} {object : Bytes} {chunkCount : ℕ}

variable {count : ℕ} {proof : PalwReceiptDaChunkProofV1}

variable {n index chunkIndex version : ℕ}

theorem expectedChunkCount_eq_ok_iff :
    expectedChunkCount n = .ok count ↔
      0 < n ∧ n ≤ PALW_DA_MAX_OBJECT_BYTES ∧ count = divCeil n PALW_DA_CHUNK_BYTES := by
  simp only [expectedChunkCount, check_bind_eq_ok, failIf_eq_ok, Bool.or_eq_false_iff,
    beq_eq_false_iff_ne, decide_eq_false_iff_not, pure, Except.pure, Except.ok.injEq]
  simp only [divCeil, PALW_DA_MAX_CHUNKS, PALW_DA_MAX_OBJECT_BYTES, PALW_DA_CHUNK_BYTES]
  omega

theorem expectedChunkCount_bounds (h : expectedChunkCount n = .ok count) :
    0 < count ∧ count ≤ 16 ∧ (count - 1) * PALW_DA_CHUNK_BYTES < n ∧
      n ≤ count * PALW_DA_CHUNK_BYTES := by
  obtain ⟨hpos, hmax, rfl⟩ := expectedChunkCount_eq_ok_iff.mp h
  simp only [divCeil, PALW_DA_MAX_OBJECT_BYTES, PALW_DA_CHUNK_BYTES] at hmax ⊢
  omega

theorem flatMap_objectChunk (object : Bytes) (n : ℕ) :
    (List.range n).flatMap (objectChunk object) = object.take (n * PALW_DA_CHUNK_BYTES) := by
  induction n with
  | zero => simp
  | succ n ih =>
    have hcut : object.take (min ((n + 1) * PALW_DA_CHUNK_BYTES) object.length) =
        object.take ((n + 1) * PALW_DA_CHUNK_BYTES) := (take_eq_take_min ..).symm
    have hfront : object.take (n * PALW_DA_CHUNK_BYTES) =
        (object.take ((n + 1) * PALW_DA_CHUNK_BYTES)).take (n * PALW_DA_CHUNK_BYTES) := by
      rw [take_take, Nat.min_eq_left (Nat.mul_le_mul_right _ (Nat.le_succ n))]
    rw [range_succ, flatMap_append, ih, flatMap_singleton, objectChunk, hcut, hfront,
      take_append_drop]

theorem flatMap_objectChunk_all (h : expectedChunkCount object.length = .ok chunkCount) :
    (List.range chunkCount).flatMap (objectChunk object) = object := by
  rw [flatMap_objectChunk, take_of_length_le (expectedChunkCount_bounds h).2.2.2]

theorem length_objectChunk (h : expectedChunkCount object.length = .ok chunkCount)
    (hindex : index < chunkCount) :
    (objectChunk object index).length = if index + 1 = chunkCount then
      object.length - index * PALW_DA_CHUNK_BYTES else PALW_DA_CHUNK_BYTES := by
  obtain ⟨-, -, hlast, hall⟩ := expectedChunkCount_bounds h
  simp only [objectChunk, length_drop, length_take]
  simp only [PALW_DA_CHUNK_BYTES] at hlast hall ⊢
  split <;> omega

theorem climb_eq_ascend (sibs : List Hash64) (i : ℕ) (x : Hash64) :
    climb P sibs i x = ascend (pairNode P PALW_DA_CHUNK_NODE_DOMAIN) sibs i x := by
  induction sibs generalizing i x with
  | nil => rfl
  | cons s sibs ih =>
    rw [climb, ascend, ih, sided]
    split <;> rfl

theorem NoCollision.climb_lt {messages : List (Bytes × Bytes)} (h : NoCollision P messages)
    (proof : PalwReceiptDaChunkProofV1) :
    climb P proof.siblings proof.chunkIndex (chunkLeafHash P proof) < 256 ^ 64 := by
  rw [climb_eq_ascend]
  exact h.ascend_lt (h.sized (proofLeafMessage proof))

theorem length_treeLeaves :
    (treeLeaves P objectVersion object chunkCount).length = 2 ^ Nat.clog 2 chunkCount := by
  simp [treeLeaves]

theorem getElem?_treeLeaves {i : ℕ} (hi : i < chunkCount) :
    (treeLeaves P objectVersion object chunkCount)[i]? =
      some (P.digest (chunkLeafMessage objectVersion object.length chunkCount i
        (objectChunk object i))) := by
  have hwidth := hi.trans_le (Nat.le_pow_clog Nat.one_lt_two chunkCount)
  simp [treeLeaves, treeLeafMessage, hwidth, hi]

theorem chunkLeafMessage_mem (hindex : index < chunkCount) :
    chunkLeafMessage objectVersion object.length chunkCount index (objectChunk object index) ∈
      commitmentMessages P objectVersion object chunkCount := by
  refine mem_append_left _ (mem_cons_of_mem _ (mem_map.mpr ⟨index, mem_range.mpr ?_, ?_⟩))
  · exact hindex.trans_le (Nat.le_pow_clog Nat.one_lt_two chunkCount)
  · rw [treeLeafMessage, if_pos hindex]

theorem treeLeaves_lt (hsized : ∀ message, P.digest message < 256 ^ 64) :
    ∀ a ∈ treeLeaves P objectVersion object chunkCount, a < 256 ^ 64 := by
  intro a ha
  obtain ⟨-, -, rfl⟩ := mem_map.mp ha
  exact hsized _

theorem verifyPalwReceiptDaChunk_eq_ok_iff {root : Hash64} :
    verifyPalwReceiptDaChunk P root proof = .ok () ↔
      proof.version = PALW_RECEIPT_DA_PROOF_VERSION_V1 ∧
      supportedObjectVersion proof.objectVersion = true ∧
      expectedChunkCount proof.objectLen = .ok proof.chunkCount ∧
      proof.chunkIndex < proof.chunkCount ∧ proof.chunk.length = expectedChunkLen proof ∧
      proof.siblings.length = Nat.clog 2 proof.chunkCount ∧
      finalizeRoot P proof.objectVersion proof.objectLen proof.chunkCount
        (climb P proof.siblings proof.chunkIndex (chunkLeafHash P proof)) = root := by
  rw [verifyPalwReceiptDaChunk, check_bind_eq_ok, check_bind_eq_ok, bind_eq_ok]
  simp only [check_bind_eq_ok, failIf_eq_ok, Bool.or_eq_false_iff, decide_eq_false_iff_not,
    Bool.not_eq_false', ne_eq, not_not, not_lt, not_le]
  constructor
  · rintro ⟨hversion, hobject, count, hcount, ⟨rfl, -⟩, hindex, ⟨hlen, -⟩, ⟨hdepth, -⟩, hroot⟩
    exact ⟨hversion, hobject, hcount, hindex, hlen, hdepth, hroot⟩
  · -- the limits on the count, the length and the depth hold by the count of the object
    rintro ⟨hversion, hobject, hcount, hindex, hlen, hdepth, hroot⟩
    obtain ⟨-, hmax, -, hall⟩ := expectedChunkCount_bounds hcount
    have hchunk : proof.chunk.length ≤ PALW_DA_CHUNK_BYTES := by
      rw [hlen, expectedChunkLen]
      split
      · rename_i hlast
        rw [← hlast, Nat.succ_mul] at hall
        omega
      · exact le_rfl
    have hlog : proof.siblings.length ≤ PALW_DA_MAX_PROOF_DEPTH := by
      rw [hdepth]
      exact Nat.clog_le_of_le_pow hmax
    exact ⟨hversion, hobject, _, hcount, ⟨rfl, hmax⟩, hindex, ⟨hlen, hchunk⟩, ⟨hdepth, hlog⟩, hroot⟩

theorem palwReceiptDaChunkProof_eq_ok_iff (hversion : supportedObjectVersion objectVersion = true)
    (hcount : expectedChunkCount object.length = .ok chunkCount) :
    palwReceiptDaChunkProof P objectVersion object chunkIndex = .ok proof ↔
      chunkIndex < chunkCount ∧ proof =
        { version := PALW_RECEIPT_DA_PROOF_VERSION_V1
          objectVersion
          objectLen := object.length
          chunkCount
          chunkIndex
          chunk := objectChunk object chunkIndex
          siblings := siblings (nodeHash P) (Nat.clog 2 chunkCount)
            (treeLeaves P objectVersion object chunkCount) chunkIndex } := by
  rw [palwReceiptDaChunkProof, bind_eq_ok]
  simp only [check_bind_eq_ok, failIf_eq_ok, hcount, hversion, Except.ok.injEq, exists_eq_left',
    Bool.not_true, decide_eq_false_iff_not, not_le, true_and, ge_iff_le, pure, Except.pure]
  rw [eq_comm (a := proof)]

theorem verifyPalwReceiptDaChunk_proof (hversion : supportedObjectVersion objectVersion = true)
    (hcount : expectedChunkCount object.length = .ok chunkCount)
    (hproof : palwReceiptDaChunkProof P objectVersion object chunkIndex = .ok proof) :
    verifyPalwReceiptDaChunk P (finalizeRoot P objectVersion object.length chunkCount
      (chunkApex P objectVersion object chunkCount)) proof = .ok () := by
  obtain ⟨hindex, rfl⟩ := (palwReceiptDaChunkProof_eq_ok_iff hversion hcount).mp hproof
  refine verifyPalwReceiptDaChunk_eq_ok_iff.mpr ⟨rfl, hversion, hcount, hindex,
    length_objectChunk hcount hindex, length_siblings .., ?_⟩
  rw [climb_eq_ascend]
  exact congrArg _ (ascend_siblings length_treeLeaves (getElem?_treeLeaves hindex))

/-- The proof of a chunk hashes nothing that the commitment to the object does not. -/
theorem chunkProofMessages_subset (hversion : supportedObjectVersion objectVersion = true)
    (hcount : expectedChunkCount object.length = .ok chunkCount)
    (hproof : palwReceiptDaChunkProof P objectVersion object chunkIndex = .ok proof) :
    chunkProofMessages P proof ⊆ commitmentMessages P objectVersion object chunkCount := by
  obtain ⟨hindex, rfl⟩ := (palwReceiptDaChunkProof_eq_ok_iff hversion hcount).mp hproof
  refine cons_subset.mpr ⟨?_, cons_subset.mpr ⟨chunkLeafMessage_mem hindex, ?_⟩⟩
  · rw [climb_eq_ascend]
    refine mem_append_left _ (mem_cons.mpr (.inl (congrArg _ ?_)))
    exact ascend_siblings length_treeLeaves (getElem?_treeLeaves hindex)
  · refine Subset.trans (map_subset _ fun p hp => ?_) (subset_append_right ..)
    exact ascentPairs_siblings length_treeLeaves (getElem?_treeLeaves hindex) p hp

theorem objectRootMessage_inj {version' len len' count' : ℕ} {x x' : Hash64}
    (hversion : version < 256 ^ 2 ∧ version' < 256 ^ 2) (hlen : len < 256 ^ 4 ∧ len' < 256 ^ 4)
    (hcount : count < 256 ^ 2 ∧ count' < 256 ^ 2) (hx : x < 256 ^ 64 ∧ x' < 256 ^ 64)
    (h : objectRootMessage version len count x = objectRootMessage version' len' count' x') :
    version = version' ∧ len = len' ∧ count = count' ∧ x = x' := by
  have htext := (Prod.mk.inj h).2
  simp only [append_assoc] at htext
  obtain ⟨hv, htext⟩ := selfDelimiting_leBytes 2 hversion.1 hversion.2 htext
  obtain ⟨hl, htext⟩ := selfDelimiting_leBytes 4 hlen.1 hlen.2 htext
  obtain ⟨hc, htext⟩ := selfDelimiting_leBytes 2 hcount.1 hcount.2 htext
  exact ⟨hv, hl, hc, hash64Bytes_inj hx.1 hx.2 htext⟩

theorem chunkLeafMessage_inj {len : ℕ} {chunk chunk' : Bytes}
    (h : chunkLeafMessage version len count index chunk =
      chunkLeafMessage version len count index chunk') : chunk = chunk' := by
  have htext := (Prod.mk.inj h).2
  simp only [append_assoc, append_cancel_left_eq] at htext
  exact (append_inj htext (by simp)).2

theorem lt_of_supportedObjectVersion (h : supportedObjectVersion version = true) :
    version < 256 ^ 2 := by
  simp only [supportedObjectVersion, Bool.or_eq_true, beq_iff_eq] at h
  rcases h with rfl | rfl <;> decide

theorem lt_of_expectedChunkCount (h : expectedChunkCount n = .ok count) :
    n < 256 ^ 4 ∧ count < 256 ^ 2 := by
  obtain ⟨-, hcount, -, -⟩ := expectedChunkCount_bounds h
  obtain ⟨-, hmax, -⟩ := expectedChunkCount_eq_ok_iff.mp h
  rw [PALW_DA_MAX_OBJECT_BYTES] at hmax
  omega

theorem NoCollision.chunkProof_of_verify
    (h : NoCollision P (commitmentMessages P objectVersion object chunkCount ++
      chunkProofMessages P proof)) (hversion : supportedObjectVersion objectVersion = true)
    (hcount : expectedChunkCount object.length = .ok chunkCount)
    (hsibs : ∀ s ∈ proof.siblings, s < 256 ^ 64)
    (hverify : verifyPalwReceiptDaChunk P (finalizeRoot P objectVersion object.length chunkCount
      (chunkApex P objectVersion object chunkCount)) proof = .ok ()) :
    palwReceiptDaChunkProof P objectVersion object proof.chunkIndex = .ok proof := by
  obtain ⟨version, version', len, count, index, chunk, sibs⟩ := proof
  obtain ⟨rfl, hversion', hcount', hindex, -, hdepth, hroot⟩ :=
    verifyPalwReceiptDaChunk_eq_ok_iff.mp hverify
  dsimp only at hversion' hcount' hindex hdepth hroot hsibs
  have hmessage := h.inj _ (mem_append_right _ mem_cons_self) _
    (mem_append_left _ mem_cons_self) hroot
  have happex : chunkApex P objectVersion object chunkCount < 256 ^ 64 :=
    h.apex_lt length_treeLeaves (treeLeaves_lt h.sized)
  obtain ⟨rfl, rfl, rfl, htop⟩ := objectRootMessage_inj
    ⟨lt_of_supportedObjectVersion hversion', lt_of_supportedObjectVersion hversion⟩
    ⟨(lt_of_expectedChunkCount hcount').1, (lt_of_expectedChunkCount hcount).1⟩
    ⟨(lt_of_expectedChunkCount hcount').2, (lt_of_expectedChunkCount hcount).2⟩
    ⟨h.climb_lt ⟨_, version', len, count, index, chunk, sibs⟩, happex⟩ hmessage
  have hinner : NoCollision P (treeMessages P PALW_DA_CHUNK_NODE_DOMAIN (Nat.clog 2 count)
      (treeLeaves P version' object count) ++ pathMessages P PALW_DA_CHUNK_NODE_DOMAIN sibs index
        (P.digest (chunkLeafMessage version' object.length count index chunk))) := by
    refine h.mono (append_subset.mpr ⟨fun m hm => ?_, fun m hm => ?_⟩)
    · exact mem_append_left _ (mem_append_right _ hm)
    · exact mem_append_right _ (mem_cons_of_mem _ (mem_cons_of_mem _ hm))
  have hwidth := hindex.trans_le (Nat.le_pow_clog Nat.one_lt_two count)
  rw [climb_eq_ascend] at htop
  obtain ⟨hleaf, hpath⟩ := (hinner.ascend_eq_apex_iff length_treeLeaves hwidth hdepth
    (treeLeaves_lt h.sized) hsibs (h.sized _)).mp htop
  rw [getElem?_treeLeaves hindex, Option.some_inj] at hleaf
  have hchunk := chunkLeafMessage_inj (h.inj _ (mem_append_left _ (chunkLeafMessage_mem hindex)) _
    (mem_append_right _ (mem_cons_of_mem _ mem_cons_self)) hleaf)
  refine (palwReceiptDaChunkProof_eq_ok_iff hversion hcount).mpr ⟨hindex, ?_⟩
  rw [hpath, hchunk]
  rfl

/-- The chunks of an object make it up, the proof of each is accepted against the commitment, and an
accepted proof is the one of the object's bytes at its index. -/
theorem receiptDaChunks_faithful (hversion : supportedObjectVersion objectVersion = true)
    (hpos : 0 < object.length) (hmax : object.length ≤ PALW_DA_MAX_OBJECT_BYTES) :
    ∃ commitment, palwReceiptDaCommitment P objectVersion object = .ok commitment ∧
      commitment.objectLen = object.length ∧
      expectedChunkCount object.length = .ok commitment.chunkCount ∧
      (List.range commitment.chunkCount).flatMap (objectChunk object) = object ∧
      ((List.range commitment.chunkCount).map fun i => (objectChunk object i).length).sum =
        commitment.objectLen ∧
      (∀ i < commitment.chunkCount, ∃ proof,
        palwReceiptDaChunkProof P objectVersion object i = .ok proof ∧
          proof.chunk = objectChunk object i ∧
          verifyPalwReceiptDaChunk P commitment.root proof = .ok ()) ∧
      ∀ proof : PalwReceiptDaChunkProofV1, (∀ s ∈ proof.siblings, s < 256 ^ 64) →
        NoCollision P (commitmentMessages P objectVersion object commitment.chunkCount ++
          chunkProofMessages P proof) →
        verifyPalwReceiptDaChunk P commitment.root proof = .ok () →
          proof.chunkIndex < commitment.chunkCount ∧
            proof.chunk = objectChunk object proof.chunkIndex ∧
            palwReceiptDaChunkProof P objectVersion object proof.chunkIndex = .ok proof := by
  obtain ⟨count, hcount⟩ : ∃ count, expectedChunkCount object.length = .ok count :=
    ⟨_, expectedChunkCount_eq_ok_iff.mpr ⟨hpos, hmax, rfl⟩⟩
  have hall := flatMap_objectChunk_all hcount
  refine ⟨⟨objectVersion, object.length, count, finalizeRoot P objectVersion object.length count
    (chunkApex P objectVersion object count)⟩, ?_, rfl, hcount, hall, ?_, ?_, ?_⟩
  · rw [palwReceiptDaCommitment, hversion, hcount]
    rfl
  · rw [← length_flatMap, hall]
  · intro i hi
    refine ⟨_, (palwReceiptDaChunkProof_eq_ok_iff hversion hcount).mpr ⟨hi, rfl⟩, rfl, ?_⟩
    exact verifyPalwReceiptDaChunk_proof hversion hcount
      ((palwReceiptDaChunkProof_eq_ok_iff hversion hcount).mpr ⟨hi, rfl⟩)
  · intro proof hsibs hno hverify
    have hproof := hno.chunkProof_of_verify hversion hcount hsibs hverify
    obtain ⟨hindex, heq⟩ := (palwReceiptDaChunkProof_eq_ok_iff hversion hcount).mp hproof
    exact ⟨hindex, congrArg PalwReceiptDaChunkProofV1.chunk heq, hproof⟩

def twoChunks : Bytes := replicate PALW_DA_CHUNK_BYTES 5 ++ [6]

theorem receiptDaChunks_faithful_twoChunks :
    ∃ commitment proof,
      palwReceiptDaCommitment samplePalwPrimitives 1 twoChunks = .ok commitment ∧
      commitment.chunkCount = 2 ∧
      palwReceiptDaChunkProof samplePalwPrimitives 1 twoChunks 1 = .ok proof ∧
      verifyPalwReceiptDaChunk samplePalwPrimitives commitment.root proof = .ok () ∧
      NoCollision samplePalwPrimitives (commitmentMessages samplePalwPrimitives 1 twoChunks 2 ++
        chunkProofMessages samplePalwPrimitives proof) ∧
      proof.chunkIndex < 2 ∧ proof.chunk = objectChunk twoChunks proof.chunkIndex := by
  have htwo : expectedChunkCount twoChunks.length = .ok 2 := by
    rw [twoChunks, length_append, length_replicate]
    rfl
  obtain ⟨hpos, hmax, -⟩ := expectedChunkCount_eq_ok_iff.mp htwo
  have hversion : supportedObjectVersion 1 = true := rfl
  obtain ⟨commitment, hok, -, hcount, -, -, hcomplete, hsound⟩ :=
    receiptDaChunks_faithful (P := samplePalwPrimitives) hversion hpos hmax
  have hchunks : commitment.chunkCount = 2 := Except.ok.inj (hcount.symm.trans htwo)
  rw [hchunks] at hcomplete hsound
  obtain ⟨proof, hproof, -, hverify⟩ := hcomplete 1 Nat.one_lt_two
  have hinj := inj_on_of_nodup_map (f := samplePalwPrimitives.digest)
    (l := commitmentMessages samplePalwPrimitives 1 twoChunks 2) (by decide +kernel)
  have hno : NoCollision samplePalwPrimitives
      (commitmentMessages samplePalwPrimitives 1 twoChunks 2 ++
        chunkProofMessages samplePalwPrimitives proof) :=
    NoCollision.mono ⟨samplePalwPrimitives_sized, fun _ hm _ hm' heq => hinj hm hm' heq⟩
      (append_subset.mpr ⟨Subset.refl _, chunkProofMessages_subset hversion htwo hproof⟩)
  have hsibs : ∀ s ∈ proof.siblings, s < 256 ^ 64 := by
    rw [((palwReceiptDaChunkProof_eq_ok_iff hversion htwo).mp hproof).2]
    refine forall_mem_singleton.mpr (?_ : (treeLeaves _ 1 twoChunks 2).getD 0 default < _)
    rw [getD_eq_getElem?_getD, getElem?_treeLeaves Nat.two_pos, Option.getD_some]
    exact samplePalwPrimitives_sized _
  obtain ⟨hindex, hchunk, -⟩ := hsound proof hsibs hno hverify
  exact ⟨_, _, hok, hchunks, hproof, hverify, hno, hindex, hchunk⟩

end Misaka.Palw
