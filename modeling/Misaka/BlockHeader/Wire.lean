import Misaka.BlockHeader.Preimage

/-!
# Headers on the wire

The conversions between a header and the protocol message, `protocol/p2p/src/convert/header.rs`, in
the legacy format, which lists the parents of every level, and in the compressed one, which lists
the runs. A header is hashed while it is decoded.
-/

namespace Misaka.BlockHeader

open Misaka.Core List

/-! ## Messages -/

inductive HeaderFormat where
  | legacy
  | compressed
  deriving DecidableEq, Repr

/-- `protowire::Hash`. -/
abbrev WireHash := Bytes

structure BlockLevelParents where
  parentHashes : List WireHash
  cumulativeLevel : UInt32
  deriving DecidableEq

/-- `protowire::BlockHeader`. -/
structure WireHeader where
  version : UInt32
  parents : List BlockLevelParents
  hashMerkleRoot : Option WireHash
  acceptedIdMerkleRoot : Option WireHash
  utxoCommitment : Option WireHash
  timestamp : Int64
  bits : UInt32
  nonce : UInt64
  daaScore : UInt64
  blueWork : Bytes
  pruningPoint : Option WireHash
  blueScore : UInt64
  powAlgoId : UInt32
  evmPayloadHash : Option WireHash
  evmCommitmentRoot : Option WireHash
  overlayCommitmentRoot : Option WireHash
  blueHashWork : Bytes
  blueComputeWork : Bytes
  palwBatchId : Option WireHash
  palwLeafIndex : UInt32
  palwTicketNullifier : Option WireHash
  palwEpochCertificateHash : Option WireHash
  palwChainCommit : Option WireHash
  palwTargetDaaInterval : UInt64
  palwAuthorizationHash : Option WireHash
  palwProofType : UInt32
  palwBeaconSeed : Option WireHash
  palwSpamAccumulatorCommitment : Option WireHash
  palwSpamNonce : UInt64
  deriving DecidableEq

inductive ConversionError where
  | noneValue
  | arrayBytesSizeError
  | uintBytesSizeError
  | intCastingError
  | compressedParentsError (e : CompressedParentsError)
  deriving DecidableEq, Repr

inductive DecodeExit where
  | error (e : ConversionError)
  | panic (p : Panic)
  deriving DecidableEq, Repr

structure FinalizedHeader where
  header : Header
  hash : Digest
  deriving DecidableEq

/-! ## Decoding -/

def tryU8 (n : UInt32) : Except ConversionError UInt8 :=
  if n.toNat < 256 then .ok n.toUInt8 else .error .intCastingError

def tryU16 (n : UInt32) : Except ConversionError UInt16 :=
  if n.toNat < 65536 then .ok n.toUInt16 else .error .intCastingError

def tryU64 (n : Int64) : Except ConversionError UInt64 :=
  if 0 ≤ n then .ok n.toUInt64 else .error .intCastingError

/-- `Hash64::try_from`. -/
def tryDigest (bytes : WireHash) : Except ConversionError Digest :=
  if h : bytes.length = 64 then .ok ⟨bytes, h⟩ else .error .arrayBytesSizeError

/-- `try_into_ex`: the field must be there. -/
def tryRequired : Option WireHash → Except ConversionError Digest
  | none => .error .noneValue
  | some bytes => tryDigest bytes

/-- `map(try_from).transpose()?.unwrap_or_default()`. -/
def tryOptional : Option WireHash → Except ConversionError Digest
  | none => .ok zeroDigest
  | some bytes => tryDigest bytes

theorem leNat_lt (bytes : Bytes) : leNat bytes < 256 ^ bytes.length := by
  induction bytes with
  | nil => decide
  | cons b bytes ih =>
    have hb := b.toNat_lt
    rw [leNat, length_cons, Nat.pow_succ]
    omega

theorem leNat_reverse_lt {bytes : Bytes} (h : bytes.length ≤ 72) :
    leNat bytes.reverse < 256 ^ 72 :=
  (leNat_lt _).trans_le (Nat.pow_le_pow_right (by decide) (by rwa [length_reverse]))

def fromBeBytesVar (bytes : Bytes) : Except ConversionError BlueWork :=
  if h : bytes.length ≤ 72 then .ok ⟨leNat bytes.reverse, leNat_reverse_lt h⟩
  else .error .uintBytesSizeError

def decodeRun (p : BlockLevelParents) : Except ConversionError Run := do
  let cum ← tryU8 p.cumulativeLevel
  let hashes ← p.parentHashes.mapM tryDigest
  return (cum, hashes)

def decodeLevel (p : BlockLevelParents) : Except ConversionError (List Digest) :=
  p.parentHashes.mapM tryDigest

def decodeParents : HeaderFormat → List BlockLevelParents →
    Except ConversionError CompressedParents
  | .compressed, parents => do
    let runs ← parents.mapM decodeRun
    (CompressedParents.tryFromRuns runs).mapError .compressedParentsError
  | .legacy, parents => do
    let levels ← parents.mapM decodeLevel
    (CompressedParents.tryFromLevels levels).mapError .compressedParentsError

/-- The arguments of `new_finalized`; every other field is zero at first. -/
def newHeader (item : WireHeader) (parents : CompressedParents) :
    Except ConversionError Header := do
  let version ← tryU16 item.version
  let hashMerkleRoot ← tryRequired item.hashMerkleRoot
  let acceptedIdMerkleRoot ← tryRequired item.acceptedIdMerkleRoot
  let utxoCommitment ← tryRequired item.utxoCommitment
  let timestamp ← tryU64 item.timestamp
  let blueWork ← fromBeBytesVar item.blueWork
  let pruningPoint ← tryRequired item.pruningPoint
  return {
    version, parentsByLevel := parents, hashMerkleRoot, acceptedIdMerkleRoot, utxoCommitment
    timestamp, bits := item.bits, nonce := item.nonce, powAlgoId := item.powAlgoId.toUInt8
    daaScore := item.daaScore, blueWork, blueScore := item.blueScore, pruningPoint
    evmPayloadHash := zeroDigest, evmCommitmentRoot := zeroDigest
    overlayCommitmentRoot := zeroDigest, blueHashWork := 0, blueComputeWork := 0
    palwBatchId := zeroDigest, palwLeafIndex := 0, palwTicketNullifier := zeroDigest
    palwEpochCertificateHash := zeroDigest, palwChainCommit := zeroDigest
    palwTargetDaaInterval := 0, palwAuthorizationHash := zeroDigest, palwProofType := 0
    palwBeaconSeed := zeroDigest, palwSpamAccumulatorCommitment := zeroDigest, palwSpamNonce := 0 }

def setPalwFields (item : WireHeader) (h : Header) : Except ConversionError Header := do
  let blueHashWork ← fromBeBytesVar item.blueHashWork
  let blueComputeWork ← fromBeBytesVar item.blueComputeWork
  let palwBatchId ← tryOptional item.palwBatchId
  let palwTicketNullifier ← tryOptional item.palwTicketNullifier
  let palwEpochCertificateHash ← tryOptional item.palwEpochCertificateHash
  let palwChainCommit ← tryOptional item.palwChainCommit
  let palwAuthorizationHash ← tryOptional item.palwAuthorizationHash
  let palwBeaconSeed ← tryOptional item.palwBeaconSeed
  let palwSpamAccumulatorCommitment ← tryOptional item.palwSpamAccumulatorCommitment
  return { h with
    blueHashWork, blueComputeWork, palwBatchId, palwLeafIndex := item.palwLeafIndex
    palwTicketNullifier, palwEpochCertificateHash, palwChainCommit
    palwTargetDaaInterval := item.palwTargetDaaInterval, palwAuthorizationHash
    palwProofType := item.palwProofType.toUInt8, palwBeaconSeed, palwSpamAccumulatorCommitment
    palwSpamNonce := item.palwSpamNonce }

section Decode

variable (H : Bytes → Digest)

def finalize (h : Header) : Except DecodeExit FinalizedHeader := do
  let bytes ← h.preimage.mapError .panic
  return ⟨h, H bytes⟩

def convert {α : Type} (x : Except ConversionError α) : Except DecodeExit α := x.mapError .error

/-- The builders after `new_finalized`, each of which hashes the header again. -/
def restoreFields (item : WireHeader) (f : FinalizedHeader) :
    Except DecodeExit FinalizedHeader := do
  let evmPayloadHash ← convert (tryOptional item.evmPayloadHash)
  let f ← finalize H { f.header with evmPayloadHash }
  let evmCommitmentRoot ← convert (tryOptional item.evmCommitmentRoot)
  let f ← finalize H { f.header with evmCommitmentRoot }
  let overlayCommitmentRoot ← convert (tryOptional item.overlayCommitmentRoot)
  let f ← finalize H { f.header with overlayCommitmentRoot }
  let h ← convert (setPalwFields item f.header)
  finalize H h

/-- `TryFrom<Versioned<protowire::BlockHeader>>`: the header is hashed as soon as it is built. -/
def decodeHeader (format : HeaderFormat) (item : WireHeader) :
    Except DecodeExit FinalizedHeader := do
  let parents ← convert (decodeParents format item.parents)
  let h ← convert (newHeader item parents)
  let f ← finalize H h
  restoreFields H item f

end Decode

/-! ## Encoding -/

def encodeParents (format : HeaderFormat) (p : CompressedParents) :
    Except Panic (List BlockLevelParents) :=
  match format with
  | .legacy => p.expandedIter.map fun levels => levels.map fun level => ⟨level.map (·.val), 0⟩
  | .compressed => .ok (p.runs.map fun run => ⟨run.2.map (·.val), run.1.toUInt32⟩)

/-- `i64::try_from` of a timestamp, under `expect`. -/
def encodeTimestamp (timestamp : UInt64) : Except Panic Int64 :=
  if timestamp.toNat < 2 ^ 63 then .ok timestamp.toInt64 else .error .timestampNotConvertible

/-- `From<(HeaderFormat, &Header)>`. -/
def encodeHeader (format : HeaderFormat) (h : Header) : Except Panic WireHeader := do
  let parents ← encodeParents format h.parentsByLevel
  let timestamp ← encodeTimestamp h.timestamp
  return {
    version := h.version.toUInt32, parents, hashMerkleRoot := some h.hashMerkleRoot.val
    acceptedIdMerkleRoot := some h.acceptedIdMerkleRoot.val
    utxoCommitment := some h.utxoCommitment.val, timestamp, bits := h.bits, nonce := h.nonce
    daaScore := h.daaScore, blueWork := toBeBytesVar h.blueWork
    pruningPoint := some h.pruningPoint.val, blueScore := h.blueScore
    powAlgoId := h.powAlgoId.toUInt32, evmPayloadHash := some h.evmPayloadHash.val
    evmCommitmentRoot := some h.evmCommitmentRoot.val
    overlayCommitmentRoot := some h.overlayCommitmentRoot.val
    blueHashWork := toBeBytesVar h.blueHashWork, blueComputeWork := toBeBytesVar h.blueComputeWork
    palwBatchId := some h.palwBatchId.val, palwLeafIndex := h.palwLeafIndex
    palwTicketNullifier := some h.palwTicketNullifier.val
    palwEpochCertificateHash := some h.palwEpochCertificateHash.val
    palwChainCommit := some h.palwChainCommit.val
    palwTargetDaaInterval := h.palwTargetDaaInterval
    palwAuthorizationHash := some h.palwAuthorizationHash.val
    palwProofType := h.palwProofType.toUInt32, palwBeaconSeed := some h.palwBeaconSeed.val
    palwSpamAccumulatorCommitment := some h.palwSpamAccumulatorCommitment.val
    palwSpamNonce := h.palwSpamNonce }

/-! ## Reading back -/

section ReadBack

theorem tryU8_toUInt32 (n : UInt8) : tryU8 n.toUInt32 = .ok n := by
  have hn := n.toNat_lt
  rw [tryU8, if_pos (by simpa using hn), UInt8.toUInt8_toUInt32]

theorem tryU16_toUInt32 (n : UInt16) : tryU16 n.toUInt32 = .ok n := by
  have hn := n.toNat_lt
  rw [tryU16, if_pos (by simpa using hn), UInt16.toUInt16_toUInt32]

theorem tryDigest_val (d : Digest) : tryDigest d.val = .ok d := dif_pos d.property

theorem fromBeBytesVar_toBeBytesVar (work : BlueWork) :
    fromBeBytesVar (toBeBytesVar work) = .ok work := by
  rw [fromBeBytesVar, dif_pos (length_toBeBytesVar_le work), Except.ok.injEq, Fin.ext_iff]
  exact leNat_toBeBytesVar work

theorem mapM_tryDigest (level : List Digest) :
    (level.map (·.val)).mapM tryDigest = .ok level := by
  rw [mapM_eq_ok, forall₂_map_left_iff, forall₂_same]
  exact fun d _ => tryDigest_val d

theorem nonneg_iff (n : Int64) : 0 ≤ n ↔ n.toUInt64.toNat < 2 ^ 63 := by
  have hint : n.toInt = n.toBitVec.toInt := rfl
  have hnat : n.toUInt64.toNat = n.toBitVec.toNat := rfl
  rw [Int64.le_iff_toInt_le, Int64.toInt_zero, hint, hnat, BitVec.toInt_eq_toNat_cond]
  split <;> omega

theorem tryU64_encodeTimestamp {timestamp : UInt64} (h : timestamp.toNat < 2 ^ 63) :
    encodeTimestamp timestamp = .ok timestamp.toInt64 ∧
      tryU64 timestamp.toInt64 = .ok timestamp := by
  refine ⟨if_pos h, ?_⟩
  rw [tryU64, if_pos, UInt64.toUInt64_toInt64]
  rwa [nonneg_iff, UInt64.toUInt64_toInt64]

theorem lt_of_tryU64 {n : Int64} {timestamp : UInt64} (h : tryU64 n = .ok timestamp) :
    timestamp.toNat < 2 ^ 63 := by
  unfold tryU64 at h
  split at h
  · next hle =>
    cases h
    exact (nonneg_iff n).mp hle
  · cases h

theorem exists_encodeParents {p : CompressedParents}
    (h : CompressedParents.FirstCounts p.runs) (format : HeaderFormat) :
    ∃ parents, encodeParents format p = .ok parents ∧ decodeParents format parents = .ok p := by
  obtain ⟨levels, hreads⟩ := CompressedParents.exists_readsAs h
  cases format with
  | compressed =>
    refine ⟨_, rfl, bind_eq_ok.mpr ⟨p.runs, ?_, mapError_eq_ok.mpr ?_⟩⟩
    · rw [mapM_eq_ok, forall₂_map_left_iff, forall₂_same]
      intro run _
      simp only [decodeRun, bind_eq_ok]
      exact ⟨run.1, tryU8_toUInt32 run.1, run.2, mapM_tryDigest run.2, rfl⟩
    · exact CompressedParents.tryFromRuns_of_follows p
  | legacy =>
    refine ⟨levels.map fun level => ⟨level.map (·.val), 0⟩, map_eq_ok.mpr
      ⟨levels, hreads.expanded, rfl⟩, bind_eq_ok.mpr ⟨levels, ?_, mapError_eq_ok.mpr ?_⟩⟩
    · rw [mapM_eq_ok, forall₂_map_left_iff, forall₂_same]
      exact fun level _ => mapM_tryDigest level
    · exact hreads.tryFromLevels

end ReadBack

/-! ## What decoding yields -/

section Decoding

variable {H : Bytes → Digest} {format : HeaderFormat} {item : WireHeader} {h : Header}
  {f : FinalizedHeader}

theorem exists_preimage_iff : (∃ bytes, h.preimage = .ok bytes) ↔
    CompressedParents.FirstCounts h.parentsByLevel.runs := by
  constructor
  · rintro ⟨bytes, hbytes⟩
    obtain ⟨levels, hlevels, -⟩ := bind_eq_ok.mp hbytes
    by_contra hzero
    rw [CompressedParents.expandedIter_of_zero hzero] at hlevels
    cases hlevels
  · intro hfirst
    obtain ⟨levels, hreads⟩ := CompressedParents.exists_readsAs hfirst
    exact ⟨_, bind_eq_ok.mpr ⟨levels, hreads.expanded, rfl⟩⟩

theorem finalize_eq_ok : finalize H h = .ok f ↔
    ∃ bytes, h.preimage = .ok bytes ∧ f = ⟨h, H bytes⟩ := by
  simp only [finalize, bind_eq_ok, mapError_eq_ok]
  exact exists_congr fun bytes => and_congr_right fun _ =>
    ⟨fun heq => (Except.ok.inj heq).symm, fun heq => congrArg _ heq.symm⟩

theorem finalize_of_zero (hzero : ¬CompressedParents.FirstCounts h.parentsByLevel.runs) :
    ∃ p, finalize H h = .error (.panic p) := by
  refine ⟨.countsNotIncreasing, ?_⟩
  simp only [finalize, Header.preimage, CompressedParents.expandedIter_of_zero hzero]
  rfl

def decodeFields (format : HeaderFormat) (item : WireHeader) : Except ConversionError Header := do
  let parents ← decodeParents format item.parents
  let h ← newHeader item parents
  let evmPayloadHash ← tryOptional item.evmPayloadHash
  let evmCommitmentRoot ← tryOptional item.evmCommitmentRoot
  let overlayCommitmentRoot ← tryOptional item.overlayCommitmentRoot
  setPalwFields item { h with evmPayloadHash, evmCommitmentRoot, overlayCommitmentRoot }

theorem newHeader_eq_ok {parents : CompressedParents} (heq : newHeader item parents = .ok h) :
    h.parentsByLevel = parents ∧ h.timestamp.toNat < 2 ^ 63 := by
  simp only [newHeader, bind_eq_ok] at heq
  obtain ⟨_, -, _, -, _, -, _, -, _, htimestamp, _, -, _, -, heq⟩ := heq
  cases heq
  exact ⟨rfl, lt_of_tryU64 htimestamp⟩

theorem setPalwFields_eq_ok {h' : Header} (heq : setPalwFields item h = .ok h') :
    h'.parentsByLevel = h.parentsByLevel ∧ h'.timestamp = h.timestamp := by
  simp only [setPalwFields, bind_eq_ok] at heq
  obtain ⟨_, -, _, -, _, -, _, -, _, -, _, -, _, -, _, -, _, -, heq⟩ := heq
  cases heq
  exact ⟨rfl, rfl⟩

theorem decodeHeader_eq_ok :
    decodeHeader H format item = .ok f ↔
      decodeFields format item = .ok f.header ∧ finalize H f.header = .ok f := by
  simp only [decodeHeader, restoreFields, decodeFields, convert, bind_eq_ok, mapError_eq_ok]
  constructor
  · rintro ⟨parents, hparents, h, hnew, f₀, hf₀, payload, hpayload, f₁, hf₁, root, hroot, f₂, hf₂,
      overlay, hoverlay, f₃, hf₃, h', hpalw, hf⟩
    obtain ⟨_, -, rfl⟩ := finalize_eq_ok.mp hf₀
    obtain ⟨_, -, rfl⟩ := finalize_eq_ok.mp hf₁
    obtain ⟨_, -, rfl⟩ := finalize_eq_ok.mp hf₂
    obtain ⟨_, -, rfl⟩ := finalize_eq_ok.mp hf₃
    have hheader : h' = f.header := by
      obtain ⟨_, -, rfl⟩ := finalize_eq_ok.mp hf
      rfl
    subst hheader
    exact ⟨⟨parents, hparents, h, hnew, payload, hpayload, root, hroot, overlay, hoverlay, hpalw⟩,
      hf⟩
  · rintro ⟨⟨parents, hparents, h, hnew, payload, hpayload, root, hroot, overlay, hoverlay, hpalw⟩,
      hf⟩
    obtain ⟨hsame, -⟩ := setPalwFields_eq_ok hpalw
    obtain ⟨bytes, hbytes, -⟩ := finalize_eq_ok.mp hf
    have hfirst : CompressedParents.FirstCounts h.parentsByLevel.runs := by
      have hfirst := exists_preimage_iff.mp ⟨bytes, hbytes⟩
      rwa [hsame] at hfirst
    have hhash (g : Header) (hg : g.parentsByLevel = h.parentsByLevel) :
        ∃ bytes, finalize H g = .ok ⟨g, H bytes⟩ := by
      obtain ⟨bytes, hbytes⟩ := exists_preimage_iff.mpr (hg ▸ hfirst)
      exact ⟨bytes, finalize_eq_ok.mpr ⟨bytes, hbytes, rfl⟩⟩
    obtain ⟨_, h₀⟩ := hhash h rfl
    obtain ⟨_, h₁⟩ := hhash { h with evmPayloadHash := payload } rfl
    obtain ⟨_, h₂⟩ := hhash { h with evmPayloadHash := payload, evmCommitmentRoot := root } rfl
    obtain ⟨_, h₃⟩ := hhash { h with
      evmPayloadHash := payload, evmCommitmentRoot := root, overlayCommitmentRoot := overlay } rfl
    exact ⟨parents, hparents, h, hnew, _, h₀, payload, hpayload, _, h₁, root, hroot, _, h₂,
      overlay, hoverlay, _, h₃, f.header, hpalw, hf⟩

theorem exists_roundTrip (hf : finalize H f.header = .ok f)
    (htimestamp : f.header.timestamp.toNat < 2 ^ 63) (format : HeaderFormat) :
    ∃ msg, encodeHeader format f.header = .ok msg ∧ decodeHeader H format msg = .ok f := by
  obtain ⟨bytes, hbytes, -⟩ := finalize_eq_ok.mp hf
  obtain ⟨parents, hsent, hread⟩ :=
    exists_encodeParents (exists_preimage_iff.mp ⟨bytes, hbytes⟩) format
  obtain ⟨htime, htime'⟩ := tryU64_encodeTimestamp htimestamp
  refine ⟨_, bind_eq_ok.mpr ⟨parents, hsent, bind_eq_ok.mpr ⟨_, htime, rfl⟩⟩,
    decodeHeader_eq_ok.mpr ⟨?_, hf⟩⟩
  simp only [decodeFields, newHeader, setPalwFields, tryRequired, tryOptional, hread, htime',
    tryU16_toUInt32, tryDigest_val, fromBeBytesVar_toBeBytesVar, UInt8.toUInt8_toUInt32]
  rfl

end Decoding

/-- What a peer's header may be: a conversion error, or a header whose parents read the same in
every way, whose hash is that of its preimage, and which survives the wire in both formats. -/
def Canonical (H : Bytes → Digest) (format : HeaderFormat) (item : WireHeader) : Prop :=
  (∃ e, decodeHeader H format item = .error (.error e)) ∨
    ∃ f, decodeHeader H format item = .ok f ∧
      (∃ levels, f.header.parentsByLevel.ReadsAs levels) ∧
      (∃ bytes, f.header.preimage = .ok bytes ∧ f.hash = H bytes) ∧
      ∀ format', ∃ msg, encodeHeader format' f.header = .ok msg ∧
        decodeHeader H format' msg = .ok f

/-- The message is compressed, its first run has the cumulative level zero, and nothing that is
converted before the header is hashed fails. -/
def ZeroFirstRun (format : HeaderFormat) (item : WireHeader) : Prop :=
  format = .compressed ∧ (∃ p ∈ item.parents.head?, p.cumulativeLevel = 0) ∧
    ∃ parents, decodeParents format item.parents = .ok parents ∧
      ∃ h, newHeader item parents = .ok h

section Zero

variable {H : Bytes → Digest} {format : HeaderFormat} {item : WireHeader}
  {parents : CompressedParents}

theorem firstCounts_ofLevels (levels : List (List Digest)) (h : levels.length ≤ 255) :
    CompressedParents.FirstCounts (CompressedParents.ofLevels levels h).runs := by
  intro run hrun
  obtain ⟨r, hr, rfl⟩ := mem_map.mp (mem_of_mem_head? hrun)
  have hpos := (canonicalFrom_rleFrom 0 levels).lt_of_mem hr
  have hle := le_of_mem_rleFrom hr
  intro hzero
  have hnat : (UInt8.ofNat r.1).toNat = 0 := congrArg UInt8.toNat hzero
  rw [UInt8.toNat_ofNat'] at hnat
  omega

theorem tryU8_eq_zero {n : UInt32} {m : UInt8} (h : tryU8 n = .ok m) : m = 0 ↔ n = 0 := by
  unfold tryU8 at h
  split at h
  · next hlt =>
    cases h
    rw [← UInt8.toNat_inj, ← UInt32.toNat_inj, UInt32.toNat_toUInt8, Nat.mod_eq_of_lt hlt]
    rfl
  · cases h

theorem not_firstCounts_iff (h : decodeParents format item.parents = .ok parents) :
    ¬CompressedParents.FirstCounts parents.runs ↔
      format = .compressed ∧ ∃ p ∈ item.parents.head?, p.cumulativeLevel = 0 := by
  cases format with
  | legacy =>
    obtain ⟨levels, -, hlevels⟩ := bind_eq_ok.mp h
    have hbuilt := mapError_eq_ok.mp hlevels
    unfold CompressedParents.tryFromLevels at hbuilt
    split at hbuilt
    · cases hbuilt
      exact iff_of_false (not_not_intro (firstCounts_ofLevels levels _)) (by simp)
    · cases hbuilt
  | compressed =>
    obtain ⟨runs, hruns, hbuilt⟩ := bind_eq_ok.mp h
    have hbuilt := mapError_eq_ok.mp hbuilt
    have hsame : parents.runs = runs := by
      unfold CompressedParents.tryFromRuns at hbuilt
      split at hbuilt
      · cases hbuilt
      · cases hbuilt
        rfl
    rw [hsame]
    have hall := mapM_eq_ok.mp hruns
    generalize item.parents = sent at hall
    cases hall with
    | nil => simp [CompressedParents.FirstCounts]
    | cons hrun _ =>
      obtain ⟨cum, hcum, hrun⟩ := bind_eq_ok.mp hrun
      obtain ⟨hashes, -, hrun⟩ := bind_eq_ok.mp hrun
      cases hrun
      simp [CompressedParents.FirstCounts, tryU8_eq_zero hcum]

def DecodeExit.IsError : DecodeExit → Prop
  | .error _ => True
  | .panic _ => False

theorem post_convert {α : Type} (x : Except ConversionError α) :
    Post (x = .ok ·) DecodeExit.IsError (convert x) := by
  cases x with
  | error e => trivial
  | ok a => rfl

theorem post_finalize {h : Header}
    (hfirst : CompressedParents.FirstCounts h.parentsByLevel.runs) :
    Post (·.header = h) DecodeExit.IsError (finalize H h) := by
  obtain ⟨bytes, hbytes⟩ := exists_preimage_iff.mpr hfirst
  rw [finalize_eq_ok.mpr ⟨bytes, hbytes, rfl⟩]
  rfl

/-- Only a zero first run makes decoding panic: then the first hashing of the header fails. -/
theorem post_decodeHeader (hnot : ¬ZeroFirstRun format item) :
    Post (fun _ => True) DecodeExit.IsError (decodeHeader H format item) := by
  refine Post.bind (post_convert _) fun parents hparents => ?_
  refine Post.bind (post_convert _) fun h hnew => ?_
  have hfirst : CompressedParents.FirstCounts parents.runs := by
    by_contra hzero
    obtain ⟨hformat, hlevel⟩ := (not_firstCounts_iff hparents).mp hzero
    exact hnot ⟨hformat, hlevel, parents, hparents, h, hnew⟩
  have hfinalize {g : Header} (hg : g.parentsByLevel = h.parentsByLevel) :
      Post (·.header = g) DecodeExit.IsError (finalize H g) :=
    post_finalize (by rwa [hg, (newHeader_eq_ok hnew).1])
  refine Post.bind (hfinalize rfl) fun f₀ h₀ => Post.bind (post_convert _) fun payload _ => ?_
  refine Post.bind (hfinalize (by rw [h₀])) fun f₁ h₁ => Post.bind (post_convert _) fun root _ => ?_
  refine Post.bind (hfinalize (by rw [h₁, h₀])) fun f₂ h₂ =>
    Post.bind (post_convert _) fun overlay _ => ?_
  refine Post.bind (hfinalize (by rw [h₂, h₁, h₀])) fun f₃ h₃ =>
    Post.bind (post_convert _) fun h' hpalw => ?_
  exact (hfinalize (by rw [(setPalwFields_eq_ok hpalw).1, h₃, h₂, h₁, h₀])).imp fun _ _ => trivial

theorem canonical_of_decodeHeader {f : FinalizedHeader} (h : decodeHeader H format item = .ok f) :
    Canonical H format item := by
  obtain ⟨hfields, hf⟩ := decodeHeader_eq_ok.mp h
  obtain ⟨bytes, hbytes, heq⟩ := finalize_eq_ok.mp hf
  have htimestamp : f.header.timestamp.toNat < 2 ^ 63 := by
    simp only [decodeFields, bind_eq_ok] at hfields
    obtain ⟨_, -, g, hnew, _, -, _, -, _, -, hpalw⟩ := hfields
    rw [(setPalwFields_eq_ok hpalw).2]
    exact (newHeader_eq_ok hnew).2
  exact .inr ⟨f, h, CompressedParents.exists_readsAs (exists_preimage_iff.mp ⟨bytes, hbytes⟩),
    ⟨bytes, hbytes, congrArg FinalizedHeader.hash heq⟩, exists_roundTrip hf htimestamp⟩

theorem decodeHeader_of_zero {h : Header}
    (hparents : decodeParents format item.parents = .ok parents)
    (hnew : newHeader item parents = .ok h)
    (hzero : ¬CompressedParents.FirstCounts parents.runs) :
    ∃ p, decodeHeader H format item = .error (.panic p) := by
  obtain ⟨p, hp⟩ := finalize_of_zero (H := H) (h := h) (by rwa [(newHeader_eq_ok hnew).1])
  refine ⟨p, ?_⟩
  rw [decodeHeader, hparents]
  change (convert (newHeader item parents) >>= _) = _
  rw [hnew]
  change (finalize H h >>= _) = _
  exact bind_of_error hp

end Zero

/-- Decoding a peer's header is total and canonical exactly if the message is not a compressed one
whose first run has the cumulative level zero. -/
theorem decode_header_canonical_iff (H : Bytes → Digest) (format : HeaderFormat)
    (item : WireHeader) : Canonical H format item ↔ ¬ZeroFirstRun format item := by
  constructor
  · rintro hcanonical ⟨hformat, hlevel, parents, hparents, h, hnew⟩
    obtain ⟨p, hpanic⟩ := decodeHeader_of_zero (H := H) hparents hnew
      ((not_firstCounts_iff hparents).mpr ⟨hformat, hlevel⟩)
    rcases hcanonical with ⟨e, he⟩ | ⟨f, hf, -⟩
    · rw [hpanic] at he
      cases he
    · rw [hpanic] at hf
      cases hf
  · intro hnot
    have hpost := post_decodeHeader (H := H) hnot
    cases hresult : decodeHeader H format item with
    | ok f => exact canonical_of_decodeHeader hresult
    | error exit =>
      rw [hresult] at hpost
      cases exit with
      | error e => exact .inl ⟨e, hresult⟩
      | panic p => exact hpost.elim

def zeroRunMessage : WireHeader where
  version := 1
  parents := [⟨[], 0⟩]
  hashMerkleRoot := some zeroDigest.val
  acceptedIdMerkleRoot := some zeroDigest.val
  utxoCommitment := some zeroDigest.val
  timestamp := 0
  bits := 0
  nonce := 0
  daaScore := 0
  blueWork := []
  pruningPoint := some zeroDigest.val
  blueScore := 0
  powAlgoId := 3
  evmPayloadHash := none
  evmCommitmentRoot := none
  overlayCommitmentRoot := none
  blueHashWork := []
  blueComputeWork := []
  palwBatchId := none
  palwLeafIndex := 0
  palwTicketNullifier := none
  palwEpochCertificateHash := none
  palwChainCommit := none
  palwTargetDaaInterval := 0
  palwAuthorizationHash := none
  palwProofType := 0
  palwBeaconSeed := none
  palwSpamAccumulatorCommitment := none
  palwSpamNonce := 0

/-- Decoding it panics, before anything of the header has been validated. -/
theorem zero_first_run_panics :
    decodeHeader (fun _ => zeroDigest) .compressed zeroRunMessage =
      .error (.panic .countsNotIncreasing) := by
  decide +kernel

end Misaka.BlockHeader
