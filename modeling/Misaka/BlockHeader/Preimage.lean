import Misaka.BlockHeader.Parents

/-!
# The header preimage

`write_header_preimage` of `consensus/core/src/hashing/header.rs`: the bytes under the block id.
Three groups of fields enter from a header version on; what a version leaves out,
`check_header_version` forces to zero.
-/

namespace Misaka.BlockHeader

open Misaka.Core List

/-- `BlueWorkType`, an integer of 72 bytes. -/
abbrev BlueWork := Fin (256 ^ 72)

instance neZeroBlueWork : NeZero (256 ^ 72) := ⟨(Nat.pow_pos (by decide)).ne'⟩

/-- `Hash64::default()`. -/
def zeroDigest : Digest := ⟨List.replicate 64 0, List.length_replicate⟩

@[ext] structure Header where
  version : UInt16
  parentsByLevel : CompressedParents
  hashMerkleRoot : Digest
  acceptedIdMerkleRoot : Digest
  utxoCommitment : Digest
  timestamp : UInt64
  bits : UInt32
  nonce : UInt64
  powAlgoId : UInt8
  daaScore : UInt64
  blueWork : BlueWork
  blueScore : UInt64
  pruningPoint : Digest
  evmPayloadHash : Digest
  evmCommitmentRoot : Digest
  overlayCommitmentRoot : Digest
  blueHashWork : BlueWork
  blueComputeWork : BlueWork
  palwBatchId : Digest
  palwLeafIndex : UInt32
  palwTicketNullifier : Digest
  palwEpochCertificateHash : Digest
  palwChainCommit : Digest
  palwTargetDaaInterval : UInt64
  palwAuthorizationHash : Digest
  palwProofType : UInt8
  palwBeaconSeed : Digest
  palwSpamAccumulatorCommitment : Digest
  palwSpamNonce : UInt64
  deriving DecidableEq

def writeLen (n : ℕ) : Bytes := leBytes 8 n

def writeU16 (n : UInt16) : Bytes := leBytes 2 n.toNat
def writeU32 (n : UInt32) : Bytes := leBytes 4 n.toNat
def writeU64 (n : UInt64) : Bytes := leBytes 8 n.toNat

def writeVarBytes (bytes : Bytes) : Bytes := writeLen bytes.length ++ bytes

/-- Big endian without leading zeros. -/
def toBeBytesVar (work : BlueWork) : Bytes := (leBytes 72 work.val).reverse.dropWhile (· == 0)

def writeBlueWork (work : BlueWork) : Bytes := writeVarBytes (toBeBytesVar work)

def writeVarArray (level : List Digest) : Bytes := writeLen level.length ++ level.flatMap (·.val)

namespace Header

variable (h : Header)

def corePart : Bytes :=
  h.hashMerkleRoot.val ++ h.acceptedIdMerkleRoot.val ++ h.utxoCommitment.val ++
    writeU64 h.timestamp ++ writeU32 h.bits ++ writeU64 h.nonce ++ [h.powAlgoId] ++
    writeU64 h.daaScore ++ writeU64 h.blueScore ++ writeBlueWork h.blueWork ++ h.pruningPoint.val

def evmPart : Bytes :=
  if EVM_HEADER_VERSION ≤ h.version then h.evmPayloadHash.val ++ h.evmCommitmentRoot.val else []

def palwPart : Bytes :=
  if PALW_HEADER_VERSION ≤ h.version then
    writeBlueWork h.blueHashWork ++ writeBlueWork h.blueComputeWork ++ h.palwBatchId.val ++
      writeU32 h.palwLeafIndex ++ h.palwTicketNullifier.val ++ h.palwEpochCertificateHash.val ++
      h.palwChainCommit.val ++ writeU64 h.palwTargetDaaInterval ++ h.palwAuthorizationHash.val ++
      [h.palwProofType] ++ h.palwBeaconSeed.val
  else []

def antispamPart : Bytes :=
  if PALW_ANTISPAM_HEADER_VERSION ≤ h.version then
    h.palwSpamAccumulatorCommitment.val ++ writeU64 h.palwSpamNonce
  else []

/-- The bytes that are hashed. -/
def preimage : Except Panic Bytes := do
  let levels ← h.parentsByLevel.expandedIter
  return writeU16 h.version ++ (writeLen h.parentsByLevel.expandedLen ++
    levels.flatMap writeVarArray) ++ h.corePart ++ h.evmPart ++ h.overlayCommitmentRoot.val ++
    h.palwPart ++ h.antispamPart

/-- The header that is signed: the root without the authorization transaction, and no authorization
or stamp. -/
def substituted (authedRoot : Digest) : Header :=
  { h with
    hashMerkleRoot := authedRoot
    palwAuthorizationHash := zeroDigest
    palwSpamNonce := 0 }

/-- What `palw_authorization_commitment` hashes. -/
def authorizationPreimage (networkId : UInt32) (authedRoot : Digest) : Except Panic Bytes := do
  let bytes ← (h.substituted authedRoot).preimage
  return writeU32 networkId ++ bytes

def hasNonzeroPalwFields : Bool :=
  h.blueHashWork ≠ 0 || h.blueComputeWork ≠ 0 || h.palwBatchId ≠ zeroDigest ||
    h.palwLeafIndex ≠ 0 || h.palwTicketNullifier ≠ zeroDigest ||
    h.palwEpochCertificateHash ≠ zeroDigest || h.palwChainCommit ≠ zeroDigest ||
    h.palwTargetDaaInterval ≠ 0 || h.palwAuthorizationHash ≠ zeroDigest || h.palwProofType ≠ 0 ||
    h.palwBeaconSeed ≠ zeroDigest || h.palwSpamAccumulatorCommitment ≠ zeroDigest ||
    h.palwSpamNonce ≠ 0

end Header

structure VersionParams where
  evmActivationDaaScore : UInt64
  palwActivationDaaScore : UInt64
  /-- `palw_spam.is_inert()`. -/
  palwSpamInert : Bool
  deriving DecidableEq, Repr

inductive HeaderRuleError where
  | wrongBlockVersion (version expected : UInt16)
  | nonZeroEvmHeaderFieldsBeforeActivation
  | nonZeroPalwHeaderFieldsBeforeActivation
  deriving DecidableEq, Repr

namespace VersionParams

variable (params : VersionParams) (h : Header)

def evmActive : Bool := params.evmActivationDaaScore ≤ h.daaScore

def palwActive : Bool := params.palwActivationDaaScore ≤ h.daaScore

def expectedVersion : UInt16 :=
  if params.palwActive h && !params.palwSpamInert then PALW_ANTISPAM_HEADER_VERSION
  else if params.palwActive h then PALW_HEADER_VERSION
  else if params.evmActive h then EVM_HEADER_VERSION
  else BLOCK_VERSION

def ticketFieldsZero : Bool :=
  h.palwBatchId = zeroDigest && h.palwLeafIndex = 0 && h.palwTicketNullifier = zeroDigest &&
    h.palwEpochCertificateHash = zeroDigest && h.palwChainCommit = zeroDigest &&
    h.palwTargetDaaInterval = 0 && h.palwAuthorizationHash = zeroDigest && h.palwProofType = 0 &&
    h.palwSpamNonce = 0

/-- Fields of a lane are zero before its activation. -/
def checkHeaderVersion : Except HeaderRuleError Unit := do
  failIf (h.version ≠ params.expectedVersion h)
    (.wrongBlockVersion h.version (params.expectedVersion h))
  failIf (!params.evmActive h &&
    (h.evmPayloadHash ≠ zeroDigest || h.evmCommitmentRoot ≠ zeroDigest))
    .nonZeroEvmHeaderFieldsBeforeActivation
  failIf (!params.palwActive h && h.hasNonzeroPalwFields) .nonZeroPalwHeaderFieldsBeforeActivation
  failIf (h.version < PALW_ANTISPAM_HEADER_VERSION &&
    (h.palwSpamAccumulatorCommitment ≠ zeroDigest || h.palwSpamNonce ≠ 0))
    .nonZeroPalwHeaderFieldsBeforeActivation
  failIf (params.palwActive h && h.powAlgoId ≠ POW_ALGO_ID_PALW_REPLICA && !ticketFieldsZero h)
    .nonZeroPalwHeaderFieldsBeforeActivation

end VersionParams

section Writers

theorem selfDelimiting_u16 : SelfDelimiting Set.univ writeU16 :=
  (selfDelimiting_leBytes 2).comp (fun n _ => n.toNat_lt) fun _ _ _ _ => UInt16.toNat_inj.mp

theorem selfDelimiting_u32 : SelfDelimiting Set.univ writeU32 :=
  (selfDelimiting_leBytes 4).comp (fun n _ => n.toNat_lt) fun _ _ _ _ => UInt32.toNat_inj.mp

theorem selfDelimiting_u64 : SelfDelimiting Set.univ writeU64 :=
  (selfDelimiting_leBytes 8).comp (fun n _ => n.toNat_lt) fun _ _ _ _ => UInt64.toNat_inj.mp

theorem selfDelimiting_digest : SelfDelimiting Set.univ fun d : Digest => d.val :=
  .of_length (fun d _ => d.property) fun _ _ _ _ h => Subtype.ext h

abbrev Lengths : Set ℕ := {n | n < 256 ^ 8}

theorem selfDelimiting_varBytes :
    SelfDelimiting {l : Bytes | l.length ∈ Lengths} writeVarBytes := by
  intro l hl l' hl' t u heq
  have hcounted := selfDelimiting_byte.counted (selfDelimiting_leBytes 8)
  refine hcounted ⟨hl, fun _ _ => trivial⟩ ⟨hl', fun _ _ => trivial⟩ ?_
  simpa [writeVarBytes, writeLen] using heq

theorem leNat_append_zero (l : Bytes) : leNat (l ++ [0]) = leNat l := by
  induction l with
  | nil => rfl
  | cons b l ih => rw [cons_append, leNat, leNat, ih]

theorem leNat_reverse_dropWhile (l : Bytes) :
    leNat (l.dropWhile (· == 0)).reverse = leNat l.reverse := by
  induction l with
  | nil => rfl
  | cons b l ih =>
    by_cases hb : b = 0
    · subst hb
      rw [dropWhile_cons_of_pos (by rfl), ih, reverse_cons, leNat_append_zero]
    · rw [dropWhile_cons_of_neg (by simpa using hb)]

theorem leNat_toBeBytesVar (work : BlueWork) : leNat (toBeBytesVar work).reverse = work.val := by
  rw [toBeBytesVar, leNat_reverse_dropWhile, reverse_reverse]
  exact leNat_leBytes work.isLt

theorem length_toBeBytesVar_le (work : BlueWork) : (toBeBytesVar work).length ≤ 72 := by
  have hle := (dropWhile_sublist (l := (leBytes 72 work.val).reverse) (· == 0)).length_le
  rwa [length_reverse, length_leBytes] at hle

theorem selfDelimiting_blueWork : SelfDelimiting Set.univ writeBlueWork := by
  refine selfDelimiting_varBytes.comp (fun work _ => ?_) fun a _ b _ heq => ?_
  · exact (length_toBeBytesVar_le work).trans_lt (by decide)
  · rw [Fin.ext_iff, ← leNat_toBeBytesVar a, heq, leNat_toBeBytesVar]

theorem selfDelimiting_varArray :
    SelfDelimiting {level : List Digest | level.length ∈ Lengths} writeVarArray := by
  intro l hl l' hl' t u heq
  exact selfDelimiting_digest.counted (selfDelimiting_leBytes 8) ⟨hl, fun _ _ => trivial⟩
    ⟨hl', fun _ _ => trivial⟩ heq

end Writers

namespace Header

variable {a b h : Header}

def InMemory (h : Header) : Prop := ∀ run ∈ h.parentsByLevel.runs, run.2.length < 256 ^ 8

structure HiddenZero (h : Header) : Prop where
  evm : ¬EVM_HEADER_VERSION ≤ h.version →
    h.evmPayloadHash = zeroDigest ∧ h.evmCommitmentRoot = zeroDigest
  palw : ¬PALW_HEADER_VERSION ≤ h.version → h.hasNonzeroPalwFields = false
  antispam : ¬PALW_ANTISPAM_HEADER_VERSION ≤ h.version →
    h.palwSpamAccumulatorCommitment = zeroDigest ∧ h.palwSpamNonce = 0

theorem hiddenZero_of_checkHeaderVersion {params : VersionParams}
    (hcheck : params.checkHeaderVersion h = .ok ()) : HiddenZero h := by
  simp only [VersionParams.checkHeaderVersion, check_bind_eq_ok, failIf_eq_ok] at hcheck
  obtain ⟨hversion, hevm, hpalw, hspam, -⟩ := hcheck
  have hexpected : h.version = params.expectedVersion h := by simpa using hversion
  unfold VersionParams.expectedVersion at hexpected
  have hspam' (hlow : ¬PALW_ANTISPAM_HEADER_VERSION ≤ h.version) :
      h.palwSpamAccumulatorCommitment = zeroDigest ∧ h.palwSpamNonce = 0 := by
    simpa [UInt16.not_le.mp hlow] using hspam
  cases hpalwActive : params.palwActive h with
  | true =>
    have hge : PALW_HEADER_VERSION ≤ h.version := by
      rw [hexpected, hpalwActive]
      cases params.palwSpamInert with
      | false => exact (by decide : PALW_HEADER_VERSION ≤ PALW_ANTISPAM_HEADER_VERSION)
      | true => exact UInt16.le_refl _
    exact ⟨fun hlow => absurd (UInt16.le_trans (by decide) hge) hlow,
      fun hlow => absurd hge hlow, hspam'⟩
  | false =>
    rw [hpalwActive] at hpalw hexpected
    refine ⟨fun hlow => ?_, fun _ => by simpa using hpalw, hspam'⟩
    cases hevmActive : params.evmActive h with
    | true =>
      rw [hevmActive] at hexpected
      exact absurd (hexpected ▸ UInt16.le_refl _) hlow
    | false =>
      rw [hevmActive] at hevm
      simpa using hevm

variable {t u : Bytes}

theorem parents_cut {levels levels' : List (List Digest)} (ha : a.InMemory) (hb : b.InMemory)
    (hlevels : a.parentsByLevel.expandedIter = .ok levels)
    (hlevels' : b.parentsByLevel.expandedIter = .ok levels')
    (heq : writeLen a.parentsByLevel.expandedLen ++ levels.flatMap writeVarArray ++ t =
      writeLen b.parentsByLevel.expandedLen ++ levels'.flatMap writeVarArray ++ u) :
    a.parentsByLevel = b.parentsByLevel ∧ t = u := by
  have hfits {h : Header} {levels : List (List Digest)} (hmemory : h.InMemory)
      (hexpand : h.parentsByLevel.expandedIter = .ok levels) :
      levels.length ∈ Lengths ∧ ∀ level ∈ levels, level.length ∈ Lengths := by
    have hreads := CompressedParents.readsAs_of_expandedIter hexpand
    refine ⟨?_, fun level hlevel => ?_⟩
    · have hlt := h.parentsByLevel.expandedLen_lt
      rw [hreads.length] at hlt
      exact hlt.trans (by decide)
    · obtain ⟨run, hrun, rfl⟩ := CompressedParents.exists_run_of_expandedIter hexpand hlevel
      exact hmemory run hrun
  have hreads := CompressedParents.readsAs_of_expandedIter hlevels
  have hreads' := CompressedParents.readsAs_of_expandedIter hlevels'
  rw [hreads.length, hreads'.length] at heq
  obtain ⟨rfl, htail⟩ := selfDelimiting_varArray.counted (selfDelimiting_leBytes 8)
    (hfits ha hlevels) (hfits hb hlevels') heq
  exact ⟨CompressedParents.ext (hreads.raw.trans hreads'.raw.symm), htail⟩

structure SameCore (a b : Header) : Prop where
  hashMerkleRoot : a.hashMerkleRoot = b.hashMerkleRoot
  acceptedIdMerkleRoot : a.acceptedIdMerkleRoot = b.acceptedIdMerkleRoot
  utxoCommitment : a.utxoCommitment = b.utxoCommitment
  timestamp : a.timestamp = b.timestamp
  bits : a.bits = b.bits
  nonce : a.nonce = b.nonce
  powAlgoId : a.powAlgoId = b.powAlgoId
  daaScore : a.daaScore = b.daaScore
  blueScore : a.blueScore = b.blueScore
  blueWork : a.blueWork = b.blueWork
  pruningPoint : a.pruningPoint = b.pruningPoint

theorem corePart_cut (h : a.corePart ++ t = b.corePart ++ u) : SameCore a b ∧ t = u := by
  simp only [corePart, append_assoc] at h
  obtain ⟨h₁, h⟩ := selfDelimiting_digest trivial trivial h
  obtain ⟨h₂, h⟩ := selfDelimiting_digest trivial trivial h
  obtain ⟨h₃, h⟩ := selfDelimiting_digest trivial trivial h
  obtain ⟨h₄, h⟩ := selfDelimiting_u64 trivial trivial h
  obtain ⟨h₅, h⟩ := selfDelimiting_u32 trivial trivial h
  obtain ⟨h₆, h⟩ := selfDelimiting_u64 trivial trivial h
  obtain ⟨h₇, h⟩ := selfDelimiting_byte trivial trivial h
  obtain ⟨h₈, h⟩ := selfDelimiting_u64 trivial trivial h
  obtain ⟨h₉, h⟩ := selfDelimiting_u64 trivial trivial h
  obtain ⟨h₁₀, h⟩ := selfDelimiting_blueWork trivial trivial h
  obtain ⟨h₁₁, h⟩ := selfDelimiting_digest trivial trivial h
  exact ⟨⟨h₁, h₂, h₃, h₄, h₅, h₆, h₇, h₈, h₉, h₁₀, h₁₁⟩, h⟩

theorem evmPart_cut (hversion : a.version = b.version) (ha : a.HiddenZero) (hb : b.HiddenZero)
    (h : a.evmPart ++ t = b.evmPart ++ u) :
    a.evmPayloadHash = b.evmPayloadHash ∧ a.evmCommitmentRoot = b.evmCommitmentRoot ∧ t = u := by
  unfold evmPart at h
  rw [← hversion] at h
  split at h
  · simp only [append_assoc] at h
    obtain ⟨h₁, h⟩ := selfDelimiting_digest trivial trivial h
    obtain ⟨h₂, h⟩ := selfDelimiting_digest trivial trivial h
    exact ⟨h₁, h₂, h⟩
  · next hlow =>
    obtain ⟨hpayload, hroot⟩ := ha.evm hlow
    obtain ⟨hpayload', hroot'⟩ := hb.evm (hversion ▸ hlow)
    exact ⟨hpayload.trans hpayload'.symm, hroot.trans hroot'.symm, h⟩

structure SamePalw (a b : Header) : Prop where
  blueHashWork : a.blueHashWork = b.blueHashWork
  blueComputeWork : a.blueComputeWork = b.blueComputeWork
  palwBatchId : a.palwBatchId = b.palwBatchId
  palwLeafIndex : a.palwLeafIndex = b.palwLeafIndex
  palwTicketNullifier : a.palwTicketNullifier = b.palwTicketNullifier
  palwEpochCertificateHash : a.palwEpochCertificateHash = b.palwEpochCertificateHash
  palwChainCommit : a.palwChainCommit = b.palwChainCommit
  palwTargetDaaInterval : a.palwTargetDaaInterval = b.palwTargetDaaInterval
  palwAuthorizationHash : a.palwAuthorizationHash = b.palwAuthorizationHash
  palwProofType : a.palwProofType = b.palwProofType
  palwBeaconSeed : a.palwBeaconSeed = b.palwBeaconSeed

theorem palwPart_cut (hversion : a.version = b.version) (ha : a.HiddenZero) (hb : b.HiddenZero)
    (h : a.palwPart ++ t = b.palwPart ++ u) : SamePalw a b ∧ t = u := by
  unfold palwPart at h
  rw [← hversion] at h
  split at h
  · simp only [append_assoc] at h
    obtain ⟨h₁, h⟩ := selfDelimiting_blueWork trivial trivial h
    obtain ⟨h₂, h⟩ := selfDelimiting_blueWork trivial trivial h
    obtain ⟨h₃, h⟩ := selfDelimiting_digest trivial trivial h
    obtain ⟨h₄, h⟩ := selfDelimiting_u32 trivial trivial h
    obtain ⟨h₅, h⟩ := selfDelimiting_digest trivial trivial h
    obtain ⟨h₆, h⟩ := selfDelimiting_digest trivial trivial h
    obtain ⟨h₇, h⟩ := selfDelimiting_digest trivial trivial h
    obtain ⟨h₈, h⟩ := selfDelimiting_u64 trivial trivial h
    obtain ⟨h₉, h⟩ := selfDelimiting_digest trivial trivial h
    obtain ⟨h₁₀, h⟩ := selfDelimiting_byte trivial trivial h
    obtain ⟨h₁₁, h⟩ := selfDelimiting_digest trivial trivial h
    exact ⟨⟨h₁, h₂, h₃, h₄, h₅, h₆, h₇, h₈, h₉, h₁₀, h₁₁⟩, h⟩
  · next hlow =>
    have hzero := ha.palw hlow
    have hzero' := hb.palw (hversion ▸ hlow)
    simp only [hasNonzeroPalwFields, Bool.or_eq_false_iff, decide_eq_false_iff_not, not_not]
      at hzero hzero'
    refine ⟨⟨?_, ?_, ?_, ?_, ?_, ?_, ?_, ?_, ?_, ?_, ?_⟩, h⟩ <;> simp only [hzero, hzero']

theorem antispamPart_cut (hversion : a.version = b.version) (ha : a.HiddenZero) (hb : b.HiddenZero)
    (h : a.antispamPart = b.antispamPart) :
    a.palwSpamAccumulatorCommitment = b.palwSpamAccumulatorCommitment ∧
      a.palwSpamNonce = b.palwSpamNonce := by
  unfold antispamPart at h
  rw [← hversion] at h
  split at h
  · obtain ⟨h₁, h⟩ := selfDelimiting_digest trivial trivial h
    exact ⟨h₁, selfDelimiting_u64.injOn trivial trivial h⟩
  · next hlow =>
    obtain ⟨hroot, hnonce⟩ := ha.antispam hlow
    obtain ⟨hroot', hnonce'⟩ := hb.antispam (hversion ▸ hlow)
    exact ⟨hroot.trans hroot'.symm, hnonce.trans hnonce'.symm⟩

theorem eq_of_preimage (hma : a.InMemory) (hmb : b.InMemory) (hza : a.HiddenZero)
    (hzb : b.HiddenZero) {bytes : Bytes} (ha : a.preimage = .ok bytes)
    (hb : b.preimage = .ok bytes) : a = b := by
  obtain ⟨levels, hlevels, ha⟩ := bind_eq_ok.mp ha
  obtain ⟨levels', hlevels', hb⟩ := bind_eq_ok.mp hb
  have h := (Except.ok.inj ha).trans (Except.ok.inj hb).symm
  iterate 12 rw [append_assoc] at h
  obtain ⟨hversion, h⟩ := selfDelimiting_u16 trivial trivial h
  obtain ⟨hparents, h⟩ := parents_cut hma hmb hlevels hlevels' h
  obtain ⟨hcore, h⟩ := corePart_cut h
  obtain ⟨hpayload, hroot, h⟩ := evmPart_cut hversion hza hzb h
  obtain ⟨hoverlay, h⟩ := selfDelimiting_digest trivial trivial h
  obtain ⟨hpalw, h⟩ := palwPart_cut hversion hza hzb h
  obtain ⟨hspam, hnonce⟩ := antispamPart_cut hversion hza hzb h
  exact Header.ext hversion hparents hcore.hashMerkleRoot hcore.acceptedIdMerkleRoot
    hcore.utxoCommitment hcore.timestamp hcore.bits hcore.nonce hcore.powAlgoId hcore.daaScore
    hcore.blueWork hcore.blueScore hcore.pruningPoint hpayload hroot hoverlay hpalw.blueHashWork
    hpalw.blueComputeWork hpalw.palwBatchId hpalw.palwLeafIndex hpalw.palwTicketNullifier
    hpalw.palwEpochCertificateHash hpalw.palwChainCommit hpalw.palwTargetDaaInterval
    hpalw.palwAuthorizationHash hpalw.palwProofType hpalw.palwBeaconSeed hspam hnonce

theorem HiddenZero.substituted (h : a.HiddenZero) (authedRoot : Digest) :
    (a.substituted authedRoot).HiddenZero := by
  refine ⟨h.evm, fun hlow => ?_, fun hlow => ⟨(h.antispam hlow).1, rfl⟩⟩
  have hzero := h.palw hlow
  simp only [hasNonzeroPalwFields, Bool.or_eq_false_iff, decide_eq_false_iff_not, not_not]
    at hzero ⊢
  simp [Header.substituted, hzero]

def withoutAuthorization (h : Header) : Header := h.substituted zeroDigest

end Header

/-- Of two headers that pass the version check of a network, one block id preimage makes them equal,
and one authorization preimage makes them equal but for the transaction root, the authorization and
the stamp nonce. -/
theorem header_preimage_determines (params : VersionParams) (a b : Header) (hma : a.InMemory)
    (hmb : b.InMemory) (ha : params.checkHeaderVersion a = .ok ())
    (hb : params.checkHeaderVersion b = .ok ()) :
    (∀ bytes, a.preimage = .ok bytes → b.preimage = .ok bytes → a = b) ∧
      ∀ networkId networkId' authedRoot authedRoot' bytes,
        a.authorizationPreimage networkId authedRoot = .ok bytes →
        b.authorizationPreimage networkId' authedRoot' = .ok bytes →
        networkId = networkId' ∧ authedRoot = authedRoot' ∧
          a.withoutAuthorization = b.withoutAuthorization := by
  have hza := Header.hiddenZero_of_checkHeaderVersion ha
  have hzb := Header.hiddenZero_of_checkHeaderVersion hb
  refine ⟨fun bytes => Header.eq_of_preimage hma hmb hza hzb,
    fun networkId networkId' authedRoot authedRoot' bytes hauth hauth' => ?_⟩
  obtain ⟨rest, hrest, hauth⟩ := bind_eq_ok.mp hauth
  obtain ⟨rest', hrest', hauth'⟩ := bind_eq_ok.mp hauth'
  have h := (Except.ok.inj hauth).trans (Except.ok.inj hauth').symm
  obtain ⟨hnetwork, rfl⟩ := selfDelimiting_u32 trivial trivial h
  have hsub : a.substituted authedRoot = b.substituted authedRoot' :=
    Header.eq_of_preimage hma hmb (hza.substituted authedRoot) (hzb.substituted authedRoot') hrest
      hrest'
  refine ⟨hnetwork, congrArg Header.hashMerkleRoot hsub, ?_⟩
  change (a.substituted authedRoot).withoutAuthorization =
    (b.substituted authedRoot').withoutAuthorization
  rw [hsub]

def sampleHeader : Header where
  version := PALW_HEADER_VERSION
  parentsByLevel := .ofLevels [[zeroDigest], []] (by decide)
  hashMerkleRoot := zeroDigest
  acceptedIdMerkleRoot := zeroDigest
  utxoCommitment := zeroDigest
  timestamp := 5000
  bits := 0x1d00ffff
  nonce := 7
  powAlgoId := POW_ALGO_ID_PALW_REPLICA
  daaScore := 10
  blueWork := 300
  blueScore := 9
  pruningPoint := zeroDigest
  evmPayloadHash := zeroDigest
  evmCommitmentRoot := zeroDigest
  overlayCommitmentRoot := zeroDigest
  blueHashWork := 200
  blueComputeWork := 100
  palwBatchId := zeroDigest
  palwLeafIndex := 1
  palwTicketNullifier := zeroDigest
  palwEpochCertificateHash := zeroDigest
  palwChainCommit := zeroDigest
  palwTargetDaaInterval := 4
  palwAuthorizationHash := zeroDigest
  palwProofType := 1
  palwBeaconSeed := zeroDigest
  palwSpamAccumulatorCommitment := zeroDigest
  palwSpamNonce := 0

theorem inMemory_sampleHeader : sampleHeader.InMemory := by
  unfold Header.InMemory
  decide +kernel

theorem checkHeaderVersion_sampleHeader :
    VersionParams.checkHeaderVersion ⟨0, 0, true⟩ sampleHeader = .ok () := by
  decide +kernel

/-- No other nonce gives the bytes of the header. -/
theorem header_preimage_determines_sampleHeader : ∃ bytes, sampleHeader.preimage = .ok bytes ∧
    ∀ nonce, ({ sampleHeader with nonce }).preimage = .ok bytes → nonce = 7 := by
  obtain ⟨bytes, hbytes⟩ : ∃ bytes, sampleHeader.preimage = .ok bytes := by decide +kernel
  refine ⟨bytes, hbytes, fun nonce hnonce => ?_⟩
  have heq := (header_preimage_determines ⟨0, 0, true⟩ sampleHeader { sampleHeader with nonce }
    inMemory_sampleHeader inMemory_sampleHeader checkHeaderVersion_sampleHeader
    checkHeaderVersion_sampleHeader).1 bytes hbytes hnonce
  exact (congrArg Header.nonce heq).symm

end Misaka.BlockHeader
