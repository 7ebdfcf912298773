import Misaka.Palw.Attestation
import Misaka.Palw.DaChain
import Misaka.Palw.LeafMerkle

/-!
# The store of leaves

`apply_palw_overlay_effect` of `consensus/src/processes/palw.rs` writes manifests, leaves and
certificates to a store that is shared by all forks. The operations of the store may fail for
reasons of their own, also in the middle of a chunk.
-/

namespace Misaka.Palw

open Misaka.Core Dns List Table

structure PalwContent where
  manifests : Table Hash64 PalwBatchManifestV1
  leaves : Table (Hash64 × ℕ) PalwPublicLeafV1
  certificates : Table Hash64 PalwBatchCertificateV2

inductive StoreOp where
  | readManifest (batchId : Hash64)
  | readLeaf (batchId : Hash64) (leafIndex : ℕ)
  | insertManifest (batchId : Hash64)
  | insertLeaf (batchId : Hash64) (leafIndex : ℕ)
  | insertCertificate (certHash : Hash64)
  | beacon (epoch : ℕ)
  deriving DecidableEq, Repr

abbrev StoreFaults := StoreOp → Bool

variable (P : PalwPrimitives)

def PalwPublicLeafV1.projectedHash (leaf : PalwPublicLeafV1) : Hash64 :=
  ({ leaf with batchId := 0 } : PalwPublicLeafV1).leafHash P

namespace PalwContent

def empty : PalwContent := ⟨∅, ∅, ∅⟩

variable (faults : StoreFaults) (content : PalwContent)

def batchManifest (batchId : Hash64) : Except PalwContentError PalwBatchManifestV1 := do
  failIf (faults (.readManifest batchId)) .storeError
  (content.manifests.lookup batchId).elim (.error .unknownBatch) .ok

def leaf (batchId : Hash64) (leafIndex : ℕ) :
    Except PalwContentError (Option PalwPublicLeafV1) := do
  failIf (faults (.readLeaf batchId leafIndex)) .storeError
  return content.leaves.lookup (batchId, leafIndex)

def insertManifest (m : PalwBatchManifestV1) : Except PalwContentError PalwContent := do
  failIf (faults (.insertManifest m.batchId)) .storeError
  match content.manifests.lookup m.batchId with
  | some existing => if existing = m then .ok content else .error .storeError
  | none => .ok { content with manifests := content.manifests.insert m.batchId m }

def insertLeaf (batchId : Hash64) (leaf : PalwPublicLeafV1) :
    Except PalwContentError PalwContent := do
  failIf (faults (.insertLeaf batchId leaf.leafIndex)) .storeError
  match content.leaves.lookup (batchId, leaf.leafIndex) with
  | some existing =>
    if existing.leafHash P = leaf.leafHash P then .ok content else .error .storeError
  | none => .ok { content with leaves := content.leaves.insert (batchId, leaf.leafIndex) leaf }

def insertCertificate (c : PalwBatchCertificateV2) : Except PalwContentError PalwContent := do
  failIf (faults (.insertCertificate (c.hash P))) .storeError
  match content.certificates.lookup (c.hash P) with
  | some existing => if existing = c then .ok content else .error .storeError
  | none => .ok { content with certificates := content.certificates.insert (c.hash P) c }

end PalwContent

def preflightLeaf (faults : StoreFaults) (content : PalwContent) (manifest : PalwBatchManifestV1)
    (chunk : PalwLeafChunkV1) (leaf : PalwPublicLeafV1) (position : ℕ) :
    Except PalwContentError Unit := do
  failIf (leaf.leafIndex ≥ manifest.leafCount)
    (.leafIndexOutOfRange leaf.leafIndex manifest.leafCount)
  failIf (leaf.batchId ≠ chunk.batchId) .leafBatchIdMismatch
  failIf (leaf.registeredEpoch ≠ manifest.registrationEpoch)
    (.leafRegistrationEpochMismatch leaf.leafIndex leaf.registeredEpoch manifest.registrationEpoch)
  let proof ← chunk.proofs[position]?.elim
    (.error (.leafProofCountMismatch chunk.leaves.length chunk.proofs.length)) .ok
  failIf (proof.siblings.length ≠ palwLeafMerkleDepth manifest.leafCount)
    (.leafMembershipProofLengthInvalid leaf.leafIndex proof.siblings.length
      (palwLeafMerkleDepth manifest.leafCount))
  failIf (!palwVerifyLeafMembership P (leaf.projectedHash P) leaf.leafIndex manifest.leafCount proof
    manifest.leafRoot) (.leafMembershipProofInvalid leaf.leafIndex)
  let existing ← content.leaf faults chunk.batchId leaf.leafIndex
  failIf (existing.any (·.leafHash P ≠ leaf.leafHash P)) .leafImmutabilityViolation

/-- The part of the `LeafChunk` arm before the first write. -/
def preflight (faults : StoreFaults) (content : PalwContent) (chunk : PalwLeafChunkV1) :
    Except PalwContentError Unit := do
  let manifest ← content.batchManifest faults chunk.batchId
  failIf (manifest.batchId ≠ manifest.contentId P) .nonContentAddressedBatchId
  failIf (chunk.version ≠ PALW_LEAF_CHUNK_VERSION_V2) (.leafChunkUnsupportedVersion chunk.version)
  chunk.leaves.zipIdx.forM fun (leaf, position) =>
    preflightLeaf P faults content manifest chunk leaf position

def writeLeaves (faults : StoreFaults) (batchId : Hash64) :
    PalwContent → List PalwPublicLeafV1 → PalwContent × Except PalwContentError Unit
  | content, [] => (content, .ok ())
  | content, leaf :: leaves =>
    match content.insertLeaf P faults batchId leaf with
    | .error e => (content, .error e)
    | .ok content' => writeLeaves faults batchId content' leaves

def writingOnce (content : PalwContent) (result : Except PalwContentError PalwContent) :
    PalwContent × Except PalwContentError Unit :=
  match result with
  | .error e => (content, .error e)
  | .ok content' => (content', .ok ())

def applyCertificateEffect (faults : StoreFaults) (content : PalwContent)
    (attest : Option PalwCertificateAttestationCtx) (cert : PalwBatchCertificateV2) :
    Except PalwContentError PalwContent := do
  failIf (cert.version ≠ PALW_BATCH_CERTIFICATE_VERSION_V2)
    (.certificateUnsupportedVersion cert.version)
  let manifest ← content.batchManifest faults cert.batchId
  failIf (cert.manifestHash ≠ manifest.contentId P) .certificateManifestMismatch
  failIf (cert.leafRoot ≠ manifest.leafRoot) .certificateLeafRootMismatch
  failIf (cert.activationEpoch ≠ manifest.activationNotBeforeEpoch)
    .certificateActivationEpochMismatch
  failIf (cert.expiryEpoch ≠ manifest.expiryEpoch) .certificateExpiryEpochMismatch
  match attest with
  | none => content.insertCertificate P faults cert
  | some ctx => do
    failIf (cert.certificateEpoch ≠ ctx.inclusionEpoch) .certificateInclusionEpochMismatch
    let leaves ← (List.range manifest.leafCount).mapM fun index => do
      let leaf ← content.leaf faults cert.batchId index
      leaf.elim (.error .certificateLeafAbsent) .ok
    verifyCertificateAttestation P cert manifest ctx leaves
    content.insertCertificate P faults cert

/-- A chunk is checked whole before its leaves are written. -/
def applyPalwOverlayEffect (faults : StoreFaults) (attest : Option PalwCertificateAttestationCtx)
    (content : PalwContent) :
    PalwOverlayEffect → PalwContent × Except PalwContentError Unit
  | .beaconCommit c => (content, failIf (faults (.beacon c.epoch)) .storeError)
  | .beaconReveal r => (content, failIf (faults (.beacon r.epoch)) .storeError)
  | .blockAuthorization | .providerBond _ => (content, .ok ())
  | .manifest m =>
    if m.batchId ≠ m.contentId P then (content, .error .nonContentAddressedBatchId)
    else writingOnce content (content.insertManifest faults m)
  | .leafChunk chunk =>
    match preflight P faults content chunk with
    | .error e => (content, .error e)
    | .ok () => writeLeaves P faults chunk.batchId content chunk.leaves
  | .certificate cert => writingOnce content (applyCertificateEffect P faults content attest cert)

structure OverlayStep where
  effect : PalwOverlayEffect
  attest : Option PalwCertificateAttestationCtx
  faults : StoreFaults

def overlayRun (content : PalwContent) (steps : List OverlayStep) : PalwContent :=
  steps.foldl (fun content s => (applyPalwOverlayEffect P s.faults s.attest content s.effect).1)
    content

def LeafAdmitted (manifests : Table Hash64 PalwBatchManifestV1) (batchId : Hash64)
    (leaf : PalwPublicLeafV1) : Prop :=
  leaf.batchId = batchId ∧ ∃ manifest proof, manifests.lookup batchId = some manifest ∧
    palwVerifyLeafMembership P (leaf.projectedHash P) leaf.leafIndex manifest.leafCount proof
      manifest.leafRoot = true

inductive ContentStep (content : PalwContent) : PalwContent → Prop
  | manifest {m : PalwBatchManifestV1} (derived : m.batchId = m.contentId P)
      (fresh : content.manifests.lookup m.batchId = none) :
      ContentStep content { content with manifests := content.manifests.insert m.batchId m }
  | leaf {batchId : Hash64} {leaf : PalwPublicLeafV1}
      (admitted : LeafAdmitted P content.manifests batchId leaf)
      (fresh : content.leaves.lookup (batchId, leaf.leafIndex) = none) :
      ContentStep content
        { content with leaves := content.leaves.insert (batchId, leaf.leafIndex) leaf }
  | certificate {certificates : Table Hash64 PalwBatchCertificateV2} :
      ContentStep content { content with certificates }

section Steps

variable {P} {faults : StoreFaults} {attest : Option PalwCertificateAttestationCtx}
  {content content' : PalwContent} {chunk : PalwLeafChunkV1} {manifest : PalwBatchManifestV1}
  {leaf : PalwPublicLeafV1} {leaves : List PalwPublicLeafV1} {cert : PalwBatchCertificateV2}
  {batchId : Hash64}

open Relation (ReflTransGen)

theorem preflightLeaf_eq_ok {position : ℕ}
    (h : preflightLeaf P faults content manifest chunk leaf position = .ok ())
    (hmanifest : content.manifests.lookup chunk.batchId = some manifest) :
    LeafAdmitted P content.manifests chunk.batchId leaf ∧
      ∀ existing, content.leaves.lookup (chunk.batchId, leaf.leafIndex) = some existing →
        existing.leafHash P = leaf.leafHash P := by
  rw [preflightLeaf, check_bind_eq_ok, check_bind_eq_ok, check_bind_eq_ok, bind_eq_ok] at h
  obtain ⟨-, hbatch, -, proof, -, h⟩ := h
  rw [check_bind_eq_ok, check_bind_eq_ok, bind_eq_ok] at h
  obtain ⟨-, hopens, existing, hread, hsame⟩ := h
  obtain ⟨-, hlookup⟩ := check_bind_eq_ok.mp hread
  cases hlookup
  rw [failIf_eq_ok] at hbatch hopens hsame
  refine ⟨⟨by simpa using hbatch, manifest, proof, hmanifest, by simpa using hopens⟩, ?_⟩
  intro existing hexisting
  simpa [hexisting] using hsame

theorem preflight_eq_ok (h : preflight P faults content chunk = .ok ()) :
    ∀ leaf ∈ chunk.leaves, LeafAdmitted P content.manifests chunk.batchId leaf ∧
      ∀ existing, content.leaves.lookup (chunk.batchId, leaf.leafIndex) = some existing →
        existing.leafHash P = leaf.leafHash P := by
  rw [preflight, bind_eq_ok] at h
  obtain ⟨manifest, hread, h⟩ := h
  rw [check_bind_eq_ok, check_bind_eq_ok] at h
  obtain ⟨-, -, hleaves⟩ := h
  have hmanifest : content.manifests.lookup chunk.batchId = some manifest := by
    obtain ⟨-, hlookup⟩ := check_bind_eq_ok.mp hread
    exact elim_eq_ok.mp hlookup
  intro leaf hleaf
  obtain ⟨position, hlt, rfl⟩ := getElem_of_mem hleaf
  have hcheck := forM_eq_ok_iff.mp hleaves (chunk.leaves[position], position)
    (mem_zipIdx_iff_getElem?.mpr (List.getElem?_eq_getElem hlt))
  exact preflightLeaf_eq_ok hcheck hmanifest

theorem insertLeaf_eq_ok (h : content.insertLeaf P faults batchId leaf = .ok content') :
    content' = content ∨ content.leaves.lookup (batchId, leaf.leafIndex) = none ∧
      content' =
        { content with leaves := content.leaves.insert (batchId, leaf.leafIndex) leaf } := by
  obtain ⟨-, h⟩ := check_bind_eq_ok.mp h
  split at h
  · split at h
    · exact .inl (Except.ok.inj h).symm
    · cases h
  · next hfresh => exact .inr ⟨hfresh, (Except.ok.inj h).symm⟩

theorem writeLeaves_steps
    (hadmitted : ∀ leaf ∈ leaves, LeafAdmitted P content.manifests batchId leaf) :
    ReflTransGen (ContentStep P) content (writeLeaves P faults batchId content leaves).1 := by
  induction leaves generalizing content with
  | nil => exact .refl
  | cons leaf leaves ih =>
    rw [writeLeaves]
    split
    · exact .refl
    · next content' hinsert =>
      rw [forall_mem_cons] at hadmitted
      rcases insertLeaf_eq_ok hinsert with rfl | ⟨hfresh, rfl⟩
      · exact ih hadmitted.2
      · exact .head (.leaf hadmitted.1 hfresh) (ih hadmitted.2)

theorem insertCertificate_eq_ok (h : content.insertCertificate P faults cert = .ok content') :
    ∃ certificates, content' = { content with certificates } := by
  obtain ⟨-, h⟩ := check_bind_eq_ok.mp h
  split at h
  · split at h
    · exact ⟨content.certificates, (Except.ok.inj h).symm⟩
    · cases h
  · exact ⟨_, (Except.ok.inj h).symm⟩

theorem applyCertificateEffect_eq_ok
    (h : applyCertificateEffect P faults content attest cert = .ok content') :
    ∃ certificates, content' = { content with certificates } := by
  rw [applyCertificateEffect, check_bind_eq_ok, bind_eq_ok] at h
  obtain ⟨-, manifest, -, h⟩ := h
  rw [check_bind_eq_ok, check_bind_eq_ok, check_bind_eq_ok, check_bind_eq_ok] at h
  obtain ⟨-, -, -, -, h⟩ := h
  cases attest with
  | none => exact insertCertificate_eq_ok h
  | some ctx =>
    obtain ⟨-, h⟩ := check_bind_eq_ok.mp h
    obtain ⟨leaves, -, h⟩ := bind_eq_ok.mp h
    exact insertCertificate_eq_ok (check_bind_eq_ok.mp h).2

theorem applyPalwOverlayEffect_steps (effect : PalwOverlayEffect) :
    ReflTransGen (ContentStep P) content
      (applyPalwOverlayEffect P faults attest content effect).1 := by
  cases effect with
  | manifest m =>
    rw [applyPalwOverlayEffect]
    split
    · exact .refl
    · next hderived =>
      cases hinsert : content.insertManifest faults m with
      | error e => exact .refl
      | ok content' =>
        obtain ⟨-, h⟩ := check_bind_eq_ok.mp hinsert
        split at h
        · split at h
          · cases h
            exact .refl
          · cases h
        · next hfresh =>
          cases h
          exact .single (.manifest (not_not.mp hderived) hfresh)
  | leafChunk chunk =>
    rw [applyPalwOverlayEffect]
    split
    · exact .refl
    · next hpreflight =>
      exact writeLeaves_steps fun leaf hleaf => (preflight_eq_ok hpreflight leaf hleaf).1
  | certificate cert =>
    rw [applyPalwOverlayEffect]
    cases happly : applyCertificateEffect P faults content attest cert with
    | error e => exact .refl
    | ok content' =>
      obtain ⟨certificates, rfl⟩ := applyCertificateEffect_eq_ok happly
      exact .single .certificate
  | providerBond | beaconCommit | beaconReveal | blockAuthorization => exact .refl

theorem ContentStep.kept (h : ContentStep P content content') :
    (∀ k m, content.manifests.lookup k = some m → content'.manifests.lookup k = some m) ∧
      ∀ k l, content.leaves.lookup k = some l → content'.leaves.lookup k = some l := by
  cases h with
  | manifest derived fresh =>
    refine ⟨fun k m hm => ?_, fun _ _ hl => hl⟩
    rw [lookup_insert_eq, if_neg, hm]
    rintro rfl
    exact nomatch fresh.symm.trans hm
  | leaf admitted fresh =>
    refine ⟨fun _ _ hm => hm, fun k l hl => ?_⟩
    rw [lookup_insert_eq, if_neg, hl]
    rintro rfl
    exact nomatch fresh.symm.trans hl
  | certificate => exact ⟨fun _ _ hm => hm, fun _ _ hl => hl⟩

theorem LeafAdmitted.mono {manifests manifests' : Table Hash64 PalwBatchManifestV1}
    (h : LeafAdmitted P manifests batchId leaf)
    (hkept : ∀ k m, manifests.lookup k = some m → manifests'.lookup k = some m) :
    LeafAdmitted P manifests' batchId leaf := by
  obtain ⟨hbatch, manifest, proof, hmanifest, hopens⟩ := h
  exact ⟨hbatch, manifest, proof, hkept _ _ hmanifest, hopens⟩

structure ContentSound (P : PalwPrimitives) (content : PalwContent) : Prop where
  manifests : ∀ k m, content.manifests.lookup k = some m → m.contentId P = k
  leaves : ∀ batchId i l, content.leaves.lookup (batchId, i) = some l →
    l.leafIndex = i ∧ LeafAdmitted P content.manifests batchId l

theorem ContentSound.empty : ContentSound P .empty :=
  ⟨fun _ _ h => (nomatch h), fun _ _ _ h => (nomatch h)⟩

theorem ContentSound.step (hsound : ContentSound P content) (h : ContentStep P content content') :
    ContentSound P content' := by
  have hkept := h.kept.1
  have hold : ∀ batchId i l, content.leaves.lookup (batchId, i) = some l →
      l.leafIndex = i ∧ LeafAdmitted P content'.manifests batchId l := by
    intro batchId i l hl
    obtain ⟨hindex, hadmitted⟩ := hsound.leaves batchId i l hl
    exact ⟨hindex, hadmitted.mono hkept⟩
  cases h with
  | @manifest m derived fresh =>
    refine ⟨fun k m' hm' => ?_, hold⟩
    rw [lookup_insert_eq] at hm'
    split at hm'
    · next hk =>
      cases hm'
      rw [hk, derived]
    · exact hsound.manifests k m' hm'
  | @leaf b l admitted fresh =>
    refine ⟨hsound.manifests, fun batchId i l' hl' => ?_⟩
    rw [lookup_insert_eq] at hl'
    split at hl'
    · next hk =>
      cases hl'
      cases hk
      exact ⟨rfl, admitted⟩
    · exact hold batchId i l' hl'
  | certificate => exact ⟨hsound.manifests, hold⟩

theorem overlayRun_steps (steps : List OverlayStep) :
    ReflTransGen (ContentStep P) content (overlayRun P content steps) := by
  induction steps generalizing content with
  | nil => exact .refl
  | cons s steps ih => exact (applyPalwOverlayEffect_steps s.effect).trans ih

theorem kept_of_steps (h : ReflTransGen (ContentStep P) content content') {k : Hash64 × ℕ}
    (hleaf : content.leaves.lookup k = some leaf) : content'.leaves.lookup k = some leaf := by
  induction h with
  | refl => exact hleaf
  | tail _ hstep ih => exact hstep.kept.2 k leaf ih

theorem ContentSound.steps (hsound : ContentSound P content)
    (h : ReflTransGen (ContentStep P) content content') : ContentSound P content' := by
  induction h with
  | refl => exact hsound
  | tail _ hstep ih => exact ih.step hstep

theorem writeLeaves_error {error : PalwContentError}
    (h : (writeLeaves P faults batchId content leaves).2 = .error error) : error = .storeError := by
  induction leaves generalizing content with
  | nil => cases h
  | cons leaf leaves ih =>
    rw [writeLeaves] at h
    split at h
    · next e hinsert =>
      obtain rfl := Except.error.inj h
      unfold PalwContent.insertLeaf failIf at hinsert
      split at hinsert
      · exact (Except.error.inj hinsert).symm
      · split at hinsert
        · split at hinsert
          · cases hinsert
          · exact (Except.error.inj hinsert).symm
        · cases hinsert
    · exact ih h

theorem writeLeaves_eq_ok (hworks : ∀ op, faults op = false)
    (hsorted : (leaves.map (·.leafIndex)).Pairwise (· < ·)) (hfree : ∀ l ∈ leaves, ∀ existing,
      content.leaves.lookup (batchId, l.leafIndex) = some existing →
      existing.leafHash P = l.leafHash P) :
    (writeLeaves P faults batchId content leaves).2 = .ok () := by
  induction leaves generalizing content with
  | nil => rfl
  | cons leaf leaves ih =>
    rw [map_cons, pairwise_cons] at hsorted
    rw [forall_mem_cons] at hfree
    cases hlookup : content.leaves.lookup (batchId, leaf.leafIndex) with
    | some existing =>
      have hinsert : content.insertLeaf P faults batchId leaf = .ok content := by
        refine check_bind_eq_ok.mpr ⟨failIf_eq_ok.mpr (hworks _), ?_⟩
        rw [hlookup]
        exact if_pos (hfree.1 existing hlookup)
      rw [writeLeaves, hinsert]
      exact ih hsorted.2 hfree.2
    | none =>
      have hinsert : content.insertLeaf P faults batchId leaf =
          .ok { content with leaves := content.leaves.insert (batchId, leaf.leafIndex) leaf } := by
        refine check_bind_eq_ok.mpr ⟨failIf_eq_ok.mpr (hworks _), ?_⟩
        rw [hlookup]
      rw [writeLeaves, hinsert]
      refine ih hsorted.2 fun l hl existing hexisting => hfree.2 l hl existing ?_
      have hlater := hsorted.1 _ (mem_map_of_mem hl)
      rwa [lookup_insert_eq, if_neg (by simp [hlater.ne'])] at hexisting

theorem preflight_post (hworks : ∀ op, faults op = false) :
    Post (fun _ => True) (· ≠ .storeError) (preflight P faults content chunk) := by
  have hread : ∀ {α : Type} {op : StoreOp} {x : Except PalwContentError α},
      Post (fun _ => True) (· ≠ .storeError) x →
      Post (fun _ => True) (· ≠ .storeError) (failIf (faults op) .storeError >>= fun _ => x) :=
    fun {_ op _} hx => .bind (.failIf fun h => absurd h (by simp [hworks op])) fun _ _ => hx
  refine .bind (hread ?_) fun manifest _ => ?_
  · cases content.manifests.lookup chunk.batchId with
    | none => exact nofun
    | some m => trivial
  refine .bind (.failIf nofun) fun _ _ => .bind (.failIf nofun) fun _ _ => .forM fun entry _ => ?_
  refine .bind (.failIf nofun) fun _ _ => .bind (.failIf nofun) fun _ _ => ?_
  refine .bind (.failIf nofun) fun _ _ => .bind (Q := fun _ => True) ?_ fun proof _ => ?_
  · cases chunk.proofs[entry.2]? with
    | none => exact nofun
    | some proof => trivial
  refine .bind (.failIf nofun) fun _ _ => .bind (.failIf nofun) fun _ _ => ?_
  exact .bind (hread trivial) fun _ _ => .failIf nofun

/-- A chunk that is refused for what it says leaves the store as it was, and a chunk in canonical
order is never refused for another reason while the store works. Along every run a stored leaf stays
as it is and opens, at its index, to the root of the manifest with its batch's content id. -/
theorem leafChunks_atomic_writeOnce (P : PalwPrimitives) :
    (∀ content faults attest chunk error,
      (applyPalwOverlayEffect P faults attest content (.leafChunk chunk)).2 = .error error →
      error ≠ .storeError →
        (applyPalwOverlayEffect P faults attest content (.leafChunk chunk)).1 = content) ∧
    (∀ content faults attest, ∀ chunk : PalwLeafChunkV1, (∀ op, faults op = false) →
      (chunk.leaves.map (·.leafIndex)).Pairwise (· < ·) →
        (applyPalwOverlayEffect P faults attest content (.leafChunk chunk)).2 ≠
          .error .storeError) ∧
    (∀ content before after k leaf, (overlayRun P content before).leaves.lookup k = some leaf →
      (overlayRun P content (before ++ after)).leaves.lookup k = some leaf) ∧
    ∀ steps batchId index leaf,
      (overlayRun P .empty steps).leaves.lookup (batchId, index) = some leaf →
        leaf.batchId = batchId ∧ leaf.leafIndex = index ∧
          ∃ manifest proof, (overlayRun P .empty steps).manifests.lookup batchId = some manifest ∧
            manifest.contentId P = batchId ∧
            palwVerifyLeafMembership P (leaf.projectedHash P) index manifest.leafCount proof
              manifest.leafRoot = true := by
  refine ⟨fun content faults attest chunk error herror hsemantic => ?_,
    fun content faults attest chunk hworks hsorted herror => ?_,
    fun content before after k leaf hleaf => ?_, fun steps batchId index leaf hleaf => ?_⟩
  · rw [applyPalwOverlayEffect] at herror ⊢
    split at herror
    · rfl
    · exact absurd (writeLeaves_error herror) hsemantic
  · rw [applyPalwOverlayEffect] at herror
    have hpost : Post _ _ (preflight P faults content chunk) := preflight_post hworks
    split at herror
    · next hpreflight =>
      rw [hpreflight] at hpost
      exact hpost (Except.error.inj herror)
    · next hpreflight =>
      rw [writeLeaves_eq_ok hworks hsorted fun l hl =>
        (preflight_eq_ok hpreflight l hl).2] at herror
      cases herror
  · rw [overlayRun, foldl_append]
    exact kept_of_steps (overlayRun_steps after) hleaf
  · have hsound := ContentSound.empty.steps (overlayRun_steps (P := P) steps)
    obtain ⟨rfl, hbatch, manifest, proof, hmanifest, hopens⟩ :=
      hsound.leaves batchId index leaf hleaf
    exact ⟨hbatch, rfl, manifest, proof, hmanifest, hsound.manifests _ _ hmanifest, hopens⟩

def storedManifest : PalwBatchManifestV1 :=
  { sampleManifest 6 1 5 with
    leafRoot := palwLeafMerkleRoot samplePalwPrimitives
      [(sampleLeaf 6 1 1 2).projectedHash samplePalwPrimitives] }

def storedBatch : Hash64 := storedManifest.contentId samplePalwPrimitives

/-- A manifest of one leaf and the chunk with it; a second chunk proves another leaf wrongly. -/
def storedRun : List OverlayStep :=
  let chunk (leaf : PalwPublicLeafV1) : OverlayStep :=
    ⟨.leafChunk ⟨2, storedBatch, 0, [{ leaf with batchId := storedBatch }], [⟨[]⟩]⟩, none,
      fun _ => false⟩
  [⟨.manifest { storedManifest with batchId := storedBatch }, none, fun _ => false⟩,
    chunk (sampleLeaf 6 1 1 2), chunk (sampleLeaf 6 1 3 4)]

theorem leafChunks_atomic_writeOnce_storedRun :
    ∃ leaf manifest proof,
      (overlayRun samplePalwPrimitives .empty storedRun).leaves.lookup (storedBatch, 0) =
        some leaf ∧
      leaf = { sampleLeaf 6 1 1 2 with batchId := storedBatch } ∧
      (overlayRun samplePalwPrimitives .empty storedRun).manifests.lookup storedBatch =
        some manifest ∧
      palwVerifyLeafMembership samplePalwPrimitives (leaf.projectedHash samplePalwPrimitives) 0
        manifest.leafCount proof manifest.leafRoot = true := by
  obtain ⟨leaf, hleaf, hstored⟩ :
      ∃ leaf, (overlayRun samplePalwPrimitives .empty storedRun).leaves.lookup (storedBatch, 0) =
        some leaf ∧ leaf = { sampleLeaf 6 1 1 2 with batchId := storedBatch } := by
    decide +kernel
  obtain ⟨-, -, -, hopens⟩ := leafChunks_atomic_writeOnce samplePalwPrimitives
  obtain ⟨-, -, manifest, proof, hmanifest, -, hproof⟩ := hopens storedRun storedBatch 0 leaf hleaf
  exact ⟨leaf, manifest, proof, hleaf, hstored, hmanifest, hproof⟩

end Steps

end Misaka.Palw
