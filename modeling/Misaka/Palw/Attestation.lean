import Misaka.Palw.Auditors

/-!
# Attested certificates

`verify_certificate_attestation` re-derives the committee of a batch and the sample it had to check,
and accepts a certificate when distinct members of that committee signed for a quorum. The bonds of
the batch's own providers and of their operator groups are left out one by one, before the bonds are
collected into credentials.
-/

namespace Misaka.Palw

open Misaka.Core Dns List

def PALW_AUDITOR_VOTE_V2_DOMAIN : Bytes := domain "misaka-palw-auditor-vote-v2"
def PALW_AUDITOR_V2_MLDSA87_CONTEXT : Bytes := domain "PALWAuditorVoteV2"
def PALW_AUDIT_SAMPLE_DOMAIN : Bytes := domain "misaka-palw-audit-sample-v1"
def PALW_AUDIT_SAMPLE_ROOT_DOMAIN : Bytes := domain "misaka-palw-audit-sample-root-v1"
def U16_MAX : ℕ := 2 ^ 16 - 1

/-- The failures of `PalwOverlayError` past the parse. -/
inductive PalwContentError where
  | leafChunkUnsupportedVersion (version : ℕ)
  | invalidTransition
  | nonContentAddressedBatchId
  | unknownBatch
  | leafIndexOutOfRange (leafIndex leafCount : ℕ)
  | leafBatchIdMismatch
  | leafRegistrationEpochMismatch (leafIndex leafRegisteredEpoch manifestRegistrationEpoch : ℕ)
  | leafImmutabilityViolation
  | leafProofCountMismatch (leaves proofs : ℕ)
  | leafMembershipProofLengthInvalid (leafIndex got expected : ℕ)
  | leafMembershipProofInvalid (leafIndex : ℕ)
  | certificateManifestMismatch
  | certificateUnsupportedVersion (version : ℕ)
  | certificateLeafRootMismatch
  | certificateActivationEpochMismatch
  | certificateExpiryEpochMismatch
  | certificateInclusionEpochMismatch
  | certificateAuditEpochOutsideManifestWindow
  | certificateVoteBondNotActive
  | certificateVoteSignatureInvalid
  | certificateQuorumNotReached
  | certificateDuplicateVoteBond
  | certificateApprovingStakeMismatch
  | certificatePassedLeafCountOutOfRange
  | certificateVoteSummaryMismatch
  | certificateAuditEpochSeedUnresolved
  | certificateOutsideAuditInclusionWindow
  | certificateAuditorSetMismatch
  | certificateVoteOutsideCommittee
  | certificateAuditSampleRootMismatch
  | certificateLeafAbsent
  | storeError
  deriving DecidableEq, Repr

def ProviderBondView.WellKeyed (view : ProviderBondView) : Prop :=
  ∀ o record, view.lookup o = some record → record.bondOutpoint = o

structure PalwCertificateAttestationCtx where
  networkId : ℕ
  povDaaScore : ℕ
  providerBondView : ProviderBondView
  records : List PalwProviderBondRecord
  lists : providerBondView.Lists records
  keyed : providerBondView.WellKeyed
  prevSeed : Option Hash64
  inclusionEpoch : ℕ
  inclusionWindowEpochs : ℕ
  committeeSize : ℕ
  sampleSize : ℕ
  quorumNum : ℕ
  quorumDen : ℕ

/-! ## Exclusions -/

def namedRecords (view : ProviderBondView) (leaves : List PalwPublicLeafV1) :
    List PalwProviderBondRecord :=
  (leaves.flatMap fun leaf => [leaf.providerABond, leaf.providerBBond]).filterMap view.lookup

def excludedCredentials (view : ProviderBondView) (leaves : List PalwPublicLeafV1) : List Hash64 :=
  (namedRecords view leaves).map (·.ownerPubkeyHash)

def excludedOperatorGroups (view : ProviderBondView) (leaves : List PalwPublicLeafV1) :
    List Hash64 :=
  (namedRecords view leaves).map (·.operatorGroupId)

variable (P : PalwPrimitives) {records : List PalwProviderBondRecord}

/-! ## The sample -/

def palwAuditSampleDraw (seed batchId : Hash64) (round : ℕ) : ℕ :=
  digestU128 (P.blake2b512Keyed PALW_AUDIT_SAMPLE_DOMAIN
    (hash64Bytes seed ++ hash64Bytes batchId ++ leBytes 8 round))

def swapAt (pool : List ℕ) (i j : ℕ) : List ℕ :=
  (pool.set i (pool.getD j 0)).set j (pool.getD i 0)

def palwDeterministicSample (prevSeed batchId : Hash64) (leafCount sampleSize : ℕ) : List ℕ :=
  if leafCount = 0 ∨ sampleSize = 0 then []
  else
    let take := min sampleSize leafCount
    let pool := (List.range take).foldl
      (fun pool i => swapAt pool i (i + palwAuditSampleDraw P prevSeed batchId i % (leafCount - i)))
      (List.range leafCount)
    (pool.take take).insertionSort (· ≤ ·)

def palwAuditSampleRoot (receiptDaRoots : List Hash64) : Hash64 :=
  P.blake2b512Keyed PALW_AUDIT_SAMPLE_ROOT_DOMAIN
    (leBytes 8 receiptDaRoots.length ++ receiptDaRoots.flatMap hash64Bytes)

def rederivedSampleRoot (prevSeed batchId : Hash64) (leaves : List PalwPublicLeafV1)
    (sampleSize : ℕ) : Except PalwContentError Hash64 := do
  let roots ← (palwDeterministicSample P prevSeed batchId (leaves.length % 2 ^ 32)
    sampleSize).mapM fun idx =>
      leaves[idx]?.elim (.error .certificateAuditSampleRootMismatch) fun leaf =>
        .ok leaf.receiptDaRoot
  return palwAuditSampleRoot P roots

/-! ## Votes -/

def PalwAuditorVoteV2.signingHash (v : PalwAuditorVoteV2) (networkId : ℕ) (batchId : Hash64)
    (auditBeaconEpoch : ℕ) (auditSampleRoot : Hash64) : Hash64 :=
  P.blake2b512Keyed PALW_AUDITOR_VOTE_V2_DOMAIN
    (leBytes 4 networkId ++ hash64Bytes batchId ++ leBytes 8 auditBeaconEpoch ++
      hash64Bytes auditSampleRoot ++ outpointBytes v.bondOutpoint ++ leBytes 1 v.vote ++
      hash64Bytes v.checkedLeafBitmapRoot ++ leBytes 4 v.passedLeafCount ++
      hash64Bytes v.rejectedLeafBitmapRoot)

def stakeOf (slate : List PalwCredentialStake) (o : TransactionOutpoint) : ℕ :=
  ((slate.find? (·.representative == o)).map (·.weight)).getD 0

def passVotesStake (slate : List PalwCredentialStake) (votes : List PalwAuditorVoteV2) : ℕ :=
  ((votes.filter (·.vote == 1)).map fun v => stakeOf slate v.bondOutpoint).sum

def PalwBatchCertificateV2.passStake (cert : PalwBatchCertificateV2)
    (slate : List PalwCredentialStake) : ℕ :=
  passVotesStake slate cert.votes % (U128_MAX + 1)

/-- `num / den` of the auditors' stake passed. -/
def PalwBatchCertificateV2.quorumReached (cert : PalwBatchCertificateV2)
    (slate : List PalwCredentialStake) (totalAuditorStake num den : ℕ) : Bool :=
  if den == 0 || num == 0 || totalAuditorStake == 0 then false
  else min (totalAuditorStake * num) U128_MAX ≤ min (cert.passStake slate * den) U128_MAX

def palwCertificateIncludedWithinAuditWindow (auditBeaconEpoch includingBlockEpoch
    inclusionWindowEpochs : ℕ) : Bool :=
  auditBeaconEpoch ≤ includingBlockEpoch &&
    includingBlockEpoch - auditBeaconEpoch ≤ inclusionWindowEpochs

def tallyVote (cert : PalwBatchCertificateV2) (ctx : PalwCertificateAttestationCtx)
    (slate : List PalwCredentialStake) (sampleRoot : Hash64)
    (acc : List TransactionOutpoint × ℕ) (vote : PalwAuditorVoteV2) :
    Except PalwContentError (List TransactionOutpoint × ℕ) := do
  failIf (acc.1.contains vote.bondOutpoint) .certificateDuplicateVoteBond
  failIf (!(slate.map (·.representative)).contains vote.bondOutpoint)
    .certificateVoteOutsideCommittee
  failIf (vote.passedLeafCount ≠ cert.passedLeafCount ||
    vote.rejectedLeafBitmapRoot ≠ cert.rejectedLeafBitmapRoot) .certificateVoteSummaryMismatch
  let record ← ((ctx.providerBondView.lookup vote.bondOutpoint).filter
    (isProviderBondActiveAt · ctx.povDaaScore)).elim (.error .certificateVoteBondNotActive) .ok
  failIf (!signedWith P record.ownerPublicKey
    (hash64Bytes (vote.signingHash P ctx.networkId cert.batchId cert.auditBeaconEpoch sampleRoot))
    vote.signature PALW_AUDITOR_V2_MLDSA87_CONTEXT) .certificateVoteSignatureInvalid
  return (vote.bondOutpoint :: acc.1,
    if vote.vote == 1 then min (acc.2 + stakeOf slate vote.bondOutpoint) U128_MAX else acc.2)

/-- The committee `verify_certificate_attestation` re-derives. -/
def rederivedCommittee (prevSeed batchId : Hash64) (ctx : PalwCertificateAttestationCtx)
    (leaves : List PalwPublicLeafV1) : List PalwCredentialStake × Hash64 :=
  selectWeightedAuditorCommittee P prevSeed batchId ctx.records ctx.povDaaScore
    (excludedCredentials ctx.providerBondView leaves)
    (excludedOperatorGroups ctx.providerBondView leaves) ctx.committeeSize

/-- A certificate against the committee drawn again. -/
def verifyCertificateAttestation (cert : PalwBatchCertificateV2) (manifest : PalwBatchManifestV1)
    (ctx : PalwCertificateAttestationCtx) (leaves : List PalwPublicLeafV1) :
    Except PalwContentError Unit := do
  failIf (cert.version ≠ PALW_BATCH_CERTIFICATE_VERSION_V2)
    (.certificateUnsupportedVersion cert.version)
  failIf (cert.activationEpoch ≠ manifest.activationNotBeforeEpoch)
    .certificateActivationEpochMismatch
  failIf (cert.expiryEpoch ≠ manifest.expiryEpoch) .certificateExpiryEpochMismatch
  failIf (cert.auditBeaconEpoch < manifest.registrationEpoch ||
    cert.auditBeaconEpoch ≥ manifest.activationNotBeforeEpoch)
    .certificateAuditEpochOutsideManifestWindow
  failIf (cert.certificateEpoch ≠ ctx.inclusionEpoch) .certificateInclusionEpochMismatch
  failIf (cert.passedLeafCount == 0 || cert.passedLeafCount > leaves.length % 2 ^ 32)
    .certificatePassedLeafCountOutOfRange
  let prevSeed ← ctx.prevSeed.elim (.error .certificateAuditEpochSeedUnresolved) .ok
  failIf (!palwCertificateIncludedWithinAuditWindow cert.auditBeaconEpoch ctx.inclusionEpoch
    ctx.inclusionWindowEpochs) .certificateOutsideAuditInclusionWindow
  let committee := rederivedCommittee P prevSeed cert.batchId ctx leaves
  failIf (cert.auditorSetCommitment ≠ committee.2) .certificateAuditorSetMismatch
  let totalSlateStake := satSum U128_MAX (committee.1.map (·.weight))
  let sampleRoot ← rederivedSampleRoot P prevSeed cert.batchId leaves ctx.sampleSize
  failIf (cert.auditSampleRoot ≠ sampleRoot) .certificateAuditSampleRootMismatch
  let tally ← cert.votes.foldlM (tallyVote P cert ctx committee.1 sampleRoot) ([], 0)
  failIf (cert.approvingStake ≠ tally.2) .certificateApprovingStakeMismatch
  failIf (!cert.quorumReached committee.1 totalSlateStake ctx.quorumNum ctx.quorumDen)
    .certificateQuorumNotReached

/-! ## What an accepted certificate shows -/

variable {acc acc' : List TransactionOutpoint × ℕ} {votes : List PalwAuditorVoteV2}
  {m : PalwCredentialStake}

section Accepted

variable {P} {cert : PalwBatchCertificateV2} {manifest : PalwBatchManifestV1}
  {ctx : PalwCertificateAttestationCtx} {leaves : List PalwPublicLeafV1}
  {slate : List PalwCredentialStake} {sampleRoot : Hash64}

structure VoteSigned (P : PalwPrimitives) (cert : PalwBatchCertificateV2)
    (ctx : PalwCertificateAttestationCtx) (slate : List PalwCredentialStake) (sampleRoot : Hash64)
    (vote : PalwAuditorVoteV2) : Prop where
  member : ∃ m ∈ slate, m.representative = vote.bondOutpoint
  summary : vote.passedLeafCount = cert.passedLeafCount ∧
    vote.rejectedLeafBitmapRoot = cert.rejectedLeafBitmapRoot
  signed : ∃ record, ctx.providerBondView.lookup vote.bondOutpoint = some record ∧
    isProviderBondActiveAt record ctx.povDaaScore ∧
    signedWith P record.ownerPublicKey (hash64Bytes
      (vote.signingHash P ctx.networkId cert.batchId cert.auditBeaconEpoch sampleRoot))
      vote.signature PALW_AUDITOR_V2_MLDSA87_CONTEXT

theorem tallyVote_eq_ok {vote : PalwAuditorVoteV2}
    (h : tallyVote P cert ctx slate sampleRoot acc vote = .ok acc') :
    vote.bondOutpoint ∉ acc.1 ∧ VoteSigned P cert ctx slate sampleRoot vote ∧
      acc'.1 = vote.bondOutpoint :: acc.1 := by
  rw [tallyVote, check_bind_eq_ok, check_bind_eq_ok, check_bind_eq_ok, bind_eq_ok] at h
  simp only [check_bind_eq_ok, failIf_eq_ok, elim_eq_ok, Option.filter_eq_some_iff] at h
  obtain ⟨hseen, hmember, hsummary, record, ⟨hlookup, hactive⟩, hsigned, hacc⟩ := h
  cases hacc
  exact ⟨by simpa using hseen, ⟨by simpa using hmember, by simpa using hsummary, record, hlookup,
    hactive, by simpa using hsigned⟩, rfl⟩

theorem foldlM_tallyVote (h : votes.foldlM (tallyVote P cert ctx slate sampleRoot) acc = .ok acc') :
    (votes.map (·.bondOutpoint)).Nodup ∧ (∀ v ∈ votes, v.bondOutpoint ∉ acc.1) ∧
      ∀ v ∈ votes, VoteSigned P cert ctx slate sampleRoot v := by
  induction votes generalizing acc with
  | nil => simp
  | cons v votes ih =>
    obtain ⟨mid, hmid, hrest⟩ := foldlM_cons_eq_ok.mp h
    obtain ⟨hnew, hsigned, hseen⟩ := tallyVote_eq_ok hmid
    obtain ⟨hnodup, hdisjoint, hvotes⟩ := ih hrest
    simp only [hseen, mem_cons, not_or] at hdisjoint
    rw [map_cons, nodup_cons, forall_mem_cons, forall_mem_cons]
    refine ⟨⟨fun hmem => ?_, hnodup⟩, ⟨hnew, fun w hw => (hdisjoint w hw).2⟩, hsigned, hvotes⟩
    obtain ⟨w, hw, heq⟩ := mem_map.mp hmem
    exact (hdisjoint w hw).1 heq

theorem exists_voters (hmember : ∀ v ∈ votes, ∃ m ∈ slate, m.representative = v.bondOutpoint) :
    ∃ voters : List PalwCredentialStake, (∀ m ∈ voters, m ∈ slate) ∧
      voters.map (·.representative) = votes.map (·.bondOutpoint) := by
  induction votes with
  | nil => exact ⟨[], by simp⟩
  | cons v votes ih =>
    obtain ⟨m, hm, hrep⟩ := hmember v mem_cons_self
    obtain ⟨voters, hvoters, hmap⟩ := ih (forall_mem_cons.mp hmember).2
    refine ⟨m :: voters, ?_, by rw [map_cons, map_cons, hrep, hmap]⟩
    rintro w (_ | ⟨_, hw⟩)
    · exact hm
    · exact hvoters w hw

theorem verifyCertificateAttestation_eq_ok
    (h : verifyCertificateAttestation P cert manifest ctx leaves = .ok ()) :
    ∃ seed sampleRoot tally, ctx.prevSeed = some seed ∧
      cert.votes.foldlM (tallyVote P cert ctx (rederivedCommittee P seed cert.batchId ctx leaves).1
        sampleRoot) ([], 0) = .ok tally ∧
      cert.quorumReached (rederivedCommittee P seed cert.batchId ctx leaves).1
        (satSum U128_MAX ((rederivedCommittee P seed cert.batchId ctx leaves).1.map (·.weight)))
        ctx.quorumNum ctx.quorumDen = true := by
  rw [verifyCertificateAttestation, check_bind_eq_ok, check_bind_eq_ok, check_bind_eq_ok,
    check_bind_eq_ok, check_bind_eq_ok, check_bind_eq_ok, bind_eq_ok] at h
  obtain ⟨-, -, -, -, -, -, seed, hseed, h⟩ := h
  rw [check_bind_eq_ok, check_bind_eq_ok, bind_eq_ok] at h
  obtain ⟨-, -, sampleRoot, -, h⟩ := h
  rw [check_bind_eq_ok, bind_eq_ok] at h
  obtain ⟨-, tally, htally, h⟩ := h
  rw [check_bind_eq_ok, failIf_eq_ok, failIf_eq_ok] at h
  exact ⟨seed, sampleRoot, tally, elim_eq_ok.mp hseed, htally, by simpa using h.2⟩

theorem quorum_of_quorumReached {total num den : ℕ}
    (h : cert.quorumReached slate total num den = true) (hfits : total * num ≤ U128_MAX) :
    0 < total ∧ total * num ≤ passVotesStake slate cert.votes * den := by
  unfold PalwBatchCertificateV2.quorumReached at h
  split at h
  · cases h
  · rename_i hguard
    have hle := of_decide_eq_true h
    have hmod : cert.passStake slate ≤ passVotesStake slate cert.votes := Nat.mod_le _ _
    have hmul := Nat.mul_le_mul_right den hmod
    have htotal : total ≠ 0 := by
      intro hzero
      simp [hzero] at hguard
    omega

end Accepted

/-! ## Independence -/

/-- No bond the credential has Active at the snapshot lies in the operator group of a bond that the
leaves name, or has the owner of such a bond. -/
def IndependentAuditor (ctx : PalwCertificateAttestationCtx) (leaves : List PalwPublicLeafV1)
    (credential : Hash64) : Prop :=
  ∀ r ∈ ctx.records, r.ownerPubkeyHash = credential → isProviderBondActiveAt r ctx.povDaaScore →
    ∀ named ∈ namedRecords ctx.providerBondView leaves,
      r.operatorGroupId ≠ named.operatorGroupId ∧ r.ownerPubkeyHash ≠ named.ownerPubkeyHash

def candidateBond (ctx : PalwCertificateAttestationCtx) (leaves : List PalwPublicLeafV1)
    (r : PalwProviderBondRecord) : Bool :=
  eligibleAuditorBond ctx.povDaaScore (excludedCredentials ctx.providerBondView leaves)
    (excludedOperatorGroups ctx.providerBondView leaves) r

def NoDividedCredential (ctx : PalwCertificateAttestationCtx) (leaves : List PalwPublicLeafV1) :
    Prop :=
  ∀ clean ∈ ctx.records, candidateBond ctx leaves clean → 0 < clean.amountSompi →
    ∀ r ∈ ctx.records, r.ownerPubkeyHash = clean.ownerPubkeyHash →
      isProviderBondActiveAt r ctx.povDaaScore →
      r.operatorGroupId ∉ excludedOperatorGroups ctx.providerBondView leaves

section Independence

variable {P} {ctx : PalwCertificateAttestationCtx} {leaves : List PalwPublicLeafV1}
  {seed batchId : Hash64}

theorem candidateBond_iff {r : PalwProviderBondRecord} :
    candidateBond ctx leaves r ↔ isProviderBondActiveAt r ctx.povDaaScore ∧
      r.ownerPubkeyHash ∉ excludedCredentials ctx.providerBondView leaves ∧
      r.operatorGroupId ∉ excludedOperatorGroups ctx.providerBondView leaves := by
  simp [candidateBond, eligibleAuditorBond]

theorem member_bonds (hm : m ∈ (rederivedCommittee P seed batchId ctx leaves).1) :
    (∃ r ∈ ctx.records, candidateBond ctx leaves r ∧ r.ownerPubkeyHash = m.credential ∧
      0 < r.amountSompi) ∧
      ∃ r ∈ ctx.records, r.ownerPubkeyHash = m.credential ∧ r.bondOutpoint = m.representative := by
  obtain ⟨hweight, hstake⟩ := mem_aggregateProviderCredentialsAt.mp (slate_subperm.subset hm)
  have hrow {r : PalwProviderBondRecord} (hr : r ∈ (ctx.records.filter
      (eligibleAuditorBond ctx.povDaaScore (excludedCredentials ctx.providerBondView leaves)
        (excludedOperatorGroups ctx.providerBondView leaves))).filter
          (·.ownerPubkeyHash = m.credential)) :
      r ∈ ctx.records ∧ candidateBond ctx leaves r ∧ r.ownerPubkeyHash = m.credential := by
    obtain ⟨hmem, howner⟩ := mem_filter.mp hr
    obtain ⟨hmem, heligible⟩ := mem_filter.mp hmem
    exact ⟨hmem, heligible, of_decide_eq_true howner⟩
  constructor
  · rw [hstake.weight_eq] at hweight
    obtain ⟨n, hn, hpos⟩ := exists_mem_ne_zero_of_sum_ne_zero
      (lt_min_iff.mp hweight).1.ne'
    obtain ⟨r, hr, rfl⟩ := mem_map.mp hn
    obtain ⟨hmem, hcandidate, howner⟩ := hrow hr
    exact ⟨r, hmem, hcandidate, howner, Nat.pos_of_ne_zero hpos⟩
  · obtain ⟨r, hr, hrep⟩ := hstake.represented
    obtain ⟨hmem, -, howner⟩ := hrow hr
    exact ⟨r, hmem, howner, hrep⟩

theorem independent_of_noDivided (hdivided : NoDividedCredential ctx leaves)
    {m : PalwCredentialStake} (hm : m ∈ (rederivedCommittee P seed batchId ctx leaves).1) :
    IndependentAuditor ctx leaves m.credential := by
  obtain ⟨⟨clean, hclean, hcandidate, howner, hamount⟩, -⟩ := member_bonds hm
  obtain ⟨-, hcredential, -⟩ := candidateBond_iff.mp hcandidate
  intro r hr hrowner hactive named hnamed
  constructor
  · intro hgroup
    refine hdivided clean hclean hcandidate hamount r hr (hrowner.trans howner.symm) hactive ?_
    rw [hgroup]
    exact mem_map_of_mem hnamed
  · intro hsame
    refine hcredential ?_
    rw [howner, ← hrowner, hsame]
    exact mem_map_of_mem hnamed

theorem noDivided_of_independent
    (hfits : (ctx.records.map (·.amountSompi)).sum ≤ U128_MAX)
    (h : ∀ committeeSize, ∀ m ∈ (rederivedCommittee P seed batchId
      { ctx with committeeSize := committeeSize } leaves).1,
        IndependentAuditor ctx leaves m.credential) : NoDividedCredential ctx leaves := by
  intro clean hclean hcandidate hamount r hr howner hactive hgroup
  obtain ⟨m, hm, hcredential⟩ := exists_mem_aggregate hclean hcandidate hamount
  obtain ⟨named, hnamed, heq⟩ := mem_map.mp hgroup
  have hmember : m ∈ (rederivedCommittee P seed batchId { ctx with
      committeeSize := (aggregateProviderCredentialsAt ctx.records ctx.povDaaScore
        (excludedCredentials ctx.providerBondView leaves)
        (excludedOperatorGroups ctx.providerBondView leaves)).length } leaves).1 := by
    rw [rederivedCommittee]
    exact (slate_perm hfits le_rfl).mem_iff.mpr hm
  exact (h _ m hmember r hr (howner.trans hcredential.symm) hactive named hnamed).1 heq.symm

theorem owner_of_representative (hm : m ∈ (rederivedCommittee P seed batchId ctx leaves).1)
    {record : PalwProviderBondRecord}
    (hlookup : ctx.providerBondView.lookup m.representative = some record) :
    record.ownerPubkeyHash = m.credential := by
  obtain ⟨-, r, hr, howner, hrep⟩ := member_bonds hm
  have hmem : r ∈ Table.values ctx.providerBondView := ctx.lists ▸ Multiset.mem_coe.mpr hr
  obtain ⟨e, he, rfl⟩ := Multiset.mem_map.mp hmem
  have hrow : ctx.providerBondView.lookup e.1 = some e.2 := Finmap.lookup_eq_some_iff.mpr he
  have hkey : e.1 = m.representative := (ctx.keyed _ _ hrow).symm.trans hrep
  rw [hkey, hlookup] at hrow
  rw [Option.some.inj hrow, howner]

/-- What makes a certificate the word of a committee: distinct credentials of the committee signed
it, and those that pass it hold the quorum's share of the committee's whole weight. -/
structure SpokenBy (P : PalwPrimitives) (cert : PalwBatchCertificateV2)
    (ctx : PalwCertificateAttestationCtx) (slate voters : List PalwCredentialStake)
    (sampleRoot : Hash64) : Prop where
  votes : voters.map (·.representative) = cert.votes.map (·.bondOutpoint)
  members : ∀ m ∈ voters, m ∈ slate
  distinct : (voters.map (·.credential)).Nodup
  signed : ∀ v ∈ cert.votes, ∃ m ∈ voters, m.representative = v.bondOutpoint ∧
    ∃ record, ctx.providerBondView.lookup v.bondOutpoint = some record ∧
      record.ownerPubkeyHash = m.credential ∧ isProviderBondActiveAt record ctx.povDaaScore ∧
      signedWith P record.ownerPublicKey (hash64Bytes
        (v.signingHash P ctx.networkId cert.batchId cert.auditBeaconEpoch sampleRoot))
        v.signature PALW_AUDITOR_V2_MLDSA87_CONTEXT
  quorum : (slate.map (·.weight)).sum * ctx.quorumNum ≤
    passVotesStake slate cert.votes * ctx.quorumDen
  weighs : 0 < (slate.map (·.weight)).sum

theorem spokenBy_of_verify {cert : PalwBatchCertificateV2} {manifest : PalwBatchManifestV1}
    (hfits : (ctx.records.map (·.amountSompi)).sum * U16_MAX ≤ U128_MAX)
    (hnum : ctx.quorumNum ≤ U16_MAX)
    (h : verifyCertificateAttestation P cert manifest ctx leaves = .ok ()) :
    ∃ seed voters sampleRoot, ctx.prevSeed = some seed ∧
      SpokenBy P cert ctx (rederivedCommittee P seed cert.batchId ctx leaves).1 voters
        sampleRoot := by
  obtain ⟨seed, sampleRoot, tally, hseed, htally, hquorum⟩ := verifyCertificateAttestation_eq_ok h
  obtain ⟨hnodup, -, hsigned⟩ := foldlM_tallyVote htally
  obtain ⟨voters, hmembers, hvotes⟩ := exists_voters fun v hv => (hsigned v hv).member
  set slate := (rederivedCommittee P seed cert.batchId ctx leaves).1 with hslate
  have hweight : (slate.map (·.weight)).sum ≤ (ctx.records.map (·.amountSompi)).sum := by
    obtain ⟨l, hperm, hsublist⟩ : slate.Subperm _ := slate_subperm
    rw [← (hperm.map _).sum_eq]
    exact ((hsublist.map _).sum_le_sum fun _ _ => Nat.zero_le _).trans sum_weights_le
  have htotal : (slate.map (·.weight)).sum * ctx.quorumNum ≤ U128_MAX :=
    (Nat.mul_le_mul hweight hnum).trans hfits
  have hbound : (slate.map (·.weight)).sum ≤ U128_MAX :=
    (Nat.le_mul_of_pos_right _ (by decide)).trans ((Nat.mul_le_mul_right _ hweight).trans hfits)
  rw [satSum_eq, min_eq_left hbound] at hquorum
  obtain ⟨hpos, hshare⟩ := quorum_of_quorumReached hquorum htotal
  refine ⟨seed, voters, sampleRoot, hseed, hvotes, hmembers, ?_, fun v hv => ?_, hshare, hpos⟩
  · -- one outpoint has one vote, and one credential one place
    have hreps : (voters.map (·.representative)).Nodup := hvotes ▸ hnodup
    refine (nodup_map_iff_inj_on hreps.of_map).mpr fun a ha b hb hab => ?_
    exact inj_on_of_nodup_map nodup_slate (hmembers a ha) (hmembers b hb) hab
  · obtain ⟨record, hlookup, hactive, hsignature⟩ := (hsigned v hv).signed
    have hmem : v.bondOutpoint ∈ voters.map (·.representative) :=
      hvotes ▸ mem_map_of_mem hv
    obtain ⟨m, hm, hrep⟩ := mem_map.mp hmem
    exact ⟨m, hm, hrep, record, hlookup, owner_of_representative (hmembers m hm) (hrep ▸ hlookup),
      hactive, hsignature⟩

/-- A committee is free of conflicts, whatever the seed and its size, exactly when no credential
divides its Active bonds between an excluded operator group and a candidate bond. Every accepted
certificate is signed by a quorum of such a committee. -/
theorem committee_independent_iff (P : PalwPrimitives) (ctx : PalwCertificateAttestationCtx)
    (leaves : List PalwPublicLeafV1)
    (hfits : (ctx.records.map (·.amountSompi)).sum * U16_MAX ≤ U128_MAX)
    (hnum : ctx.quorumNum ≤ U16_MAX) :
    (∀ seed batchId : Hash64,
      (∀ committeeSize, ∀ m ∈ (rederivedCommittee P seed batchId
          { ctx with committeeSize := committeeSize } leaves).1,
        IndependentAuditor ctx leaves m.credential) ↔ NoDividedCredential ctx leaves) ∧
    ∀ cert manifest, verifyCertificateAttestation P cert manifest ctx leaves = .ok () →
      ∃ seed voters sampleRoot, ctx.prevSeed = some seed ∧
        SpokenBy P cert ctx (rederivedCommittee P seed cert.batchId ctx leaves).1 voters
          sampleRoot ∧
        (NoDividedCredential ctx leaves →
          ∀ m ∈ (rederivedCommittee P seed cert.batchId ctx leaves).1,
            IndependentAuditor ctx leaves m.credential) := by
  have hfits' : (ctx.records.map (·.amountSompi)).sum ≤ U128_MAX :=
    (Nat.le_mul_of_pos_right _ (by decide)).trans hfits
  refine ⟨fun seed batchId => ⟨noDivided_of_independent hfits', fun h k m hm => ?_⟩,
    fun cert manifest h => ?_⟩
  · exact @independent_of_noDivided P { ctx with committeeSize := k } leaves seed batchId h m hm
  · obtain ⟨seed, voters, sampleRoot, hseed, hspoken⟩ := spokenBy_of_verify hfits hnum h
    exact ⟨seed, voters, sampleRoot, hseed, hspoken, fun hdivided m hm =>
      independent_of_noDivided hdivided hm⟩

end Independence

/-! ## A divided credential -/

def ProviderBondView.ofRecords (records : List PalwProviderBondRecord)
    (h : (records.map (·.bondOutpoint)).Nodup) : ProviderBondView where
  entries := (records : Multiset PalwProviderBondRecord).map fun r => ⟨r.bondOutpoint, r⟩
  nodupKeys := by
    rw [← Multiset.nodup_keys, Multiset.keys, Multiset.map_map]
    exact Multiset.coe_nodup.mpr h

theorem ofRecords_lists (h : (records.map (·.bondOutpoint)).Nodup) :
    (ProviderBondView.ofRecords records h).Lists records := by
  rw [ProviderBondView.Lists, Table.values, ProviderBondView.ofRecords, Multiset.map_map]
  exact (Multiset.map_id _).symm

theorem ofRecords_wellKeyed (h : (records.map (·.bondOutpoint)).Nodup) :
    (ProviderBondView.ofRecords records h).WellKeyed := by
  intro o record hlookup
  have hmem : ⟨o, record⟩ ∈ (records : Multiset PalwProviderBondRecord).map
      fun r => (⟨r.bondOutpoint, r⟩ : Σ _ : TransactionOutpoint, PalwProviderBondRecord) :=
    Finmap.lookup_eq_some_iff.mp hlookup
  obtain ⟨r, -, heq⟩ := Multiset.mem_map.mp hmem
  cases heq
  rfl

def sampleBond (bond : ℕ) (owner : UInt8) (group : Hash64) : PalwProviderBondRecord where
  version := 1
  bondOutpoint := ⟨bond, 0⟩
  ownerPubkeyHash := owner.toNat
  ownerPublicKey := List.replicate STAKE_VALIDATOR_PUBKEY_LEN owner
  operatorGroupId := group
  runtimeClasses := [1]
  capacityByShape := [(1, 1)]
  rewardKeyRoot := 1
  amountSompi := 1000000000
  activationDaaScore := 0
  createdDaaScore := 0
  unbondDelayEpochs := 1
  unbondRequestDaaScore := none
  slashedAtDaaScore := none

/-- Two providers of one batch, and an auditor with a bond in a provider's operator group and one in
a group of its own. -/
def dividedRecords : List PalwProviderBondRecord :=
  [sampleBond 1 1 7, sampleBond 2 2 8, sampleBond 3 3 7, sampleBond 4 3 9]

def undividedRecords : List PalwProviderBondRecord :=
  [sampleBond 1 1 7, sampleBond 2 2 8, sampleBond 4 3 9]

def sampleAuditCtx (records : List PalwProviderBondRecord)
    (h : (records.map (·.bondOutpoint)).Nodup) : PalwCertificateAttestationCtx where
  networkId := 1
  povDaaScore := 200
  providerBondView := .ofRecords records h
  records := records
  lists := ofRecords_lists h
  keyed := ofRecords_wellKeyed h
  prevSeed := some 5
  inclusionEpoch := 3
  inclusionWindowEpochs := 20
  committeeSize := 4
  sampleSize := 1
  quorumNum := 2
  quorumDen := 3

def sampleVote (bond : ℕ) : PalwAuditorVoteV2 where
  bondOutpoint := ⟨bond, 0⟩
  vote := 1
  checkedLeafBitmapRoot := 1
  passedLeafCount := 1
  rejectedLeafBitmapRoot := 1
  signature := List.replicate STAKE_ATTESTATION_SIG_LEN 3

def sampleCertificate (bond : ℕ) : PalwBatchCertificateV2 where
  version := PALW_BATCH_CERTIFICATE_VERSION_V2
  batchId := 6
  manifestHash := 1
  leafRoot := 1
  auditBeaconEpoch := 2
  auditSampleRoot := palwAuditSampleRoot samplePalwPrimitives [1]
  passedLeafCount := 1
  rejectedLeafBitmapRoot := 1
  certificateEpoch := 3
  activationEpoch := 9
  expiryEpoch := 15
  auditorSetCommitment := auditorSetCommitment samplePalwPrimitives [⟨bond, 0⟩]
  approvingStake := 1000000000
  votes := [sampleVote bond]

/-- The certificate of the divided auditor is accepted, though one of its Active bonds lies in the
operator group of a provider of the batch. -/
theorem divided_auditor_certifies :
    verifyCertificateAttestation samplePalwPrimitives (sampleCertificate 4) (sampleManifest 6 1 1)
        (sampleAuditCtx dividedRecords (by decide)) [sampleLeaf 6 1 1 2] = .ok () ∧
      (rederivedCommittee samplePalwPrimitives 5 6 (sampleAuditCtx dividedRecords (by decide))
        [sampleLeaf 6 1 1 2]).1 = [⟨3, 1000000000, ⟨4, 0⟩⟩] ∧
      ¬ IndependentAuditor (sampleAuditCtx dividedRecords (by decide)) [sampleLeaf 6 1 1 2] 3 := by
  refine ⟨by decide +kernel, by decide +kernel, fun h => ?_⟩
  have hgroup := h (sampleBond 3 3 7) (by decide +kernel) (by decide) (by decide)
    (sampleBond 1 1 7) (by decide +kernel)
  exact hgroup.1 rfl

/-- With the bond in the provider's group gone the same certificate comes from an independent
auditor. -/
theorem committee_independent_undivided :
    verifyCertificateAttestation samplePalwPrimitives (sampleCertificate 4) (sampleManifest 6 1 1)
        (sampleAuditCtx undividedRecords (by decide)) [sampleLeaf 6 1 1 2] = .ok () ∧
      ∀ m ∈ (rederivedCommittee samplePalwPrimitives 5 6
          (sampleAuditCtx undividedRecords (by decide)) [sampleLeaf 6 1 1 2]).1,
        IndependentAuditor (sampleAuditCtx undividedRecords (by decide)) [sampleLeaf 6 1 1 2]
          m.credential := by
  refine ⟨by decide +kernel, ?_⟩
  have hiff := (committee_independent_iff samplePalwPrimitives
    (sampleAuditCtx undividedRecords (by decide)) [sampleLeaf 6 1 1 2]
    (by decide) (by decide)).1 5 6
  refine hiff.mpr ?_ 4
  unfold NoDividedCredential
  decide +kernel

end Misaka.Palw
