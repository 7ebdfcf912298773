import Misaka.Palw.Auditors

/-!
# Splitting a bond buys no seat

The draw reads a candidate's credential and weight and nothing else, and the candidates are the
credentials of positive stake in credential order. The outpoints of the bonds matter only to the
order in which the drawn members are listed.
-/

namespace Misaka.Palw

open Misaka.Core Dns List

def PalwCredentialStake.drawn (stake : PalwCredentialStake) : Hash64 × ℕ :=
  (stake.credential, stake.weight)

def eligibleBondsOf (records : List PalwProviderBondRecord) (povDaaScore : ℕ)
    (excludedCredentials excludedOperatorGroups : List Hash64) (credential : Hash64) :
    List PalwProviderBondRecord :=
  (records.filter (eligibleAuditorBond povDaaScore excludedCredentials
    excludedOperatorGroups)).filter (·.ownerPubkeyHash = credential)

def credentialStakeAt (records : List PalwProviderBondRecord) (povDaaScore : ℕ)
    (excludedCredentials excludedOperatorGroups : List Hash64) (credential : Hash64) : ℕ :=
  ((eligibleBondsOf records povDaaScore excludedCredentials excludedOperatorGroups credential).map
    (·.amountSompi)).sum

def stakedCredentialsAt (records : List PalwProviderBondRecord) (povDaaScore : ℕ)
    (excludedCredentials excludedOperatorGroups : List Hash64) : List Hash64 :=
  (records.map (·.ownerPubkeyHash)).dedup.filter fun credential =>
    0 < credentialStakeAt records povDaaScore excludedCredentials excludedOperatorGroups credential

variable {pool pool' : List PalwCredentialStake} {credential : Hash64}

section Draw

variable {P : PalwPrimitives} {seed context : Hash64}

theorem map_weight_eq_map_snd_drawn (pool : List PalwCredentialStake) :
    pool.map (·.weight) = (pool.map (·.drawn)).map Prod.snd := by
  rw [map_map]
  rfl

theorem passingIndex_congr (h : pool.map (·.drawn) = pool'.map (·.drawn)) (draw acc : ℕ) :
    passingIndex draw acc pool = passingIndex draw acc pool' := by
  induction pool generalizing acc pool' with
  | nil =>
    have hnil : pool' = [] := map_eq_nil_iff.mp h.symm
    rw [hnil]
  | cons c pool ih =>
    cases pool' with
    | nil => cases h
    | cons c' pool' =>
      rw [map_cons, map_cons, List.cons.injEq] at h
      obtain ⟨hhead, htail⟩ := h
      have hweight : c.weight = c'.weight := congrArg Prod.snd hhead
      rw [passingIndex, passingIndex, hweight, ih htail]

theorem weightedSampleLoop_congr (h : pool.map (·.drawn) = pool'.map (·.drawn))
    (places round total : ℕ) :
    (weightedSampleLoop P seed context places round pool total).map (·.drawn) =
      (weightedSampleLoop P seed context places round pool' total).map (·.drawn) := by
  induction places generalizing round pool pool' total with
  | zero => rfl
  | succ places ih =>
    have hlength : pool.length = pool'.length := by
      simpa using congrArg List.length h
    have hempty : pool.isEmpty = pool'.isEmpty := by
      rw [Bool.eq_iff_iff, isEmpty_iff_length_eq_zero, isEmpty_iff_length_eq_zero,
        hlength]
    rw [weightedSampleLoop, weightedSampleLoop]
    simp only [hempty, passingIndex_congr h, hlength]
    split
    · rfl
    · set idx := (passingIndex (palwWeightedDraw P seed context round total) 0 pool').getD
        (pool'.length - 1)
      -- the same place of both pools is chosen and removed
      have hget : (pool[idx]?).map (·.drawn) = (pool'[idx]?).map (·.drawn) := by
        rw [← List.getElem?_map, ← List.getElem?_map, h]
      have herase : (pool.eraseIdx idx).map (·.drawn) = (pool'.eraseIdx idx).map (·.drawn) := by
        rw [← eraseIdx_map, ← eraseIdx_map, h]
      cases hchosen : pool[idx]? with
      | none =>
        rw [hchosen, Option.map_none, eq_comm, Option.map_eq_none_iff] at hget
        rw [hget]
      | some chosen =>
        rw [hchosen, Option.map_some, eq_comm, Option.map_eq_some_iff] at hget
        obtain ⟨chosen', hchosen', hdrawn⟩ := hget
        have hweight : chosen'.weight = chosen.weight := congrArg Prod.snd hdrawn
        rw [hchosen']
        simp only [map_cons, hdrawn, hweight]
        rw [ih herase]

end Draw

section Candidates

variable {records records' : List PalwProviderBondRecord} {pov : ℕ}
  {creds groups : List Hash64}

theorem mem_map_drawn_aggregate {weight : ℕ} :
    (credential, weight) ∈ (aggregateProviderCredentialsAt records pov creds groups).map (·.drawn) ↔
      0 < weight ∧ weight = min (credentialStakeAt records pov creds
        groups credential) U128_MAX := by
  rw [mem_map]
  constructor
  · rintro ⟨stake, hmem, hdrawn⟩
    obtain ⟨hpositive, hstake⟩ := mem_aggregateProviderCredentialsAt.mp hmem
    cases hdrawn
    exact ⟨hpositive, hstake.weight_eq⟩
  · rintro ⟨hpositive, hweight⟩
    have hne : eligibleBondsOf records pov creds groups credential ≠ [] := by
      intro hnil
      rw [credentialStakeAt, hnil] at hweight
      simp at hweight
      omega
    obtain ⟨stake, hcredential, hstake⟩ := exists_isStakeOf hne fun r hr =>
      of_decide_eq_true (mem_filter.mp hr).2
    have heq : stake.weight = weight := hstake.weight_eq.trans hweight.symm
    refine ⟨stake, mem_aggregateProviderCredentialsAt.mpr ⟨heq ▸ hpositive, ?_⟩, ?_⟩
    · rwa [hcredential]
    · rw [PalwCredentialStake.drawn, hcredential, heq]

theorem map_fst_drawn (l : List PalwCredentialStake) :
    (l.map (·.drawn)).map Prod.fst = l.map (·.credential) := by
  rw [map_map]
  rfl

theorem sorted_aggregate :
    ((aggregateProviderCredentialsAt records pov creds
      groups).map (·.drawn)).Pairwise fun a b => a.1 ≤ b.1 := by
  rw [aggregateProviderCredentialsAt, pairwise_map]
  exact pairwise_insertionSort (fun a b : PalwCredentialStake => a.credential ≤ b.credential) _

theorem nodup_map_drawn_aggregate :
    ((aggregateProviderCredentialsAt records pov creds groups).map (·.drawn)).Nodup := by
  refine List.Nodup.of_map Prod.fst ?_
  rw [map_fst_drawn]
  exact nodup_aggregateProviderCredentialsAt

theorem map_drawn_aggregate_congr (hstake : ∀ credential,
      credentialStakeAt records pov creds groups credential =
        credentialStakeAt records' pov creds groups credential) :
    (aggregateProviderCredentialsAt records pov creds groups).map (·.drawn) =
      (aggregateProviderCredentialsAt records' pov creds groups).map (·.drawn) := by
  have hmem : ∀ a : Hash64 × ℕ,
      a ∈ (aggregateProviderCredentialsAt records pov creds groups).map (·.drawn) ↔
        a ∈ (aggregateProviderCredentialsAt records' pov creds groups).map (·.drawn) := by
    rintro ⟨credential, weight⟩
    rw [mem_map_drawn_aggregate, mem_map_drawn_aggregate, hstake]
  refine List.Perm.eq_of_pairwise ?_ sorted_aggregate sorted_aggregate
    ((perm_ext_iff_of_nodup nodup_map_drawn_aggregate nodup_map_drawn_aggregate).mpr hmem)
  rintro ⟨credential, weight⟩ ⟨credential', weight'⟩ ha hb hle hle'
  have hcredential : credential = credential' := le_antisymm hle hle'
  subst hcredential
  have hweight := (mem_map_drawn_aggregate.mp ha).2
  have hweight' := (mem_map_drawn_aggregate.mp hb).2
  rw [hweight, hweight', hstake]

theorem map_credential_aggregate_perm :
    ((aggregateProviderCredentialsAt records pov creds groups).map (·.credential)).Perm
      (stakedCredentialsAt records pov creds groups) := by
  have hstaked : (stakedCredentialsAt records pov creds groups).Nodup := (nodup_dedup _).filter _
  refine (perm_ext_iff_of_nodup nodup_aggregateProviderCredentialsAt hstaked).mpr
    fun credential => ?_
  have hmax : 0 < U128_MAX := by decide
  rw [stakedCredentialsAt, mem_filter, mem_dedup, decide_eq_true_eq, ← map_fst_drawn]
  constructor
  · intro h
    obtain ⟨⟨credential', weight⟩, hmem, rfl⟩ := mem_map.mp h
    obtain ⟨hpositive, hweight⟩ := mem_map_drawn_aggregate.mp hmem
    have hstake : 0 < credentialStakeAt records pov creds groups credential' := by omega
    refine ⟨?_, hstake⟩
    have hne : eligibleBondsOf records pov creds groups credential' ≠ [] := by
      intro hnil
      rw [credentialStakeAt, hnil] at hstake
      exact absurd hstake (by simp)
    obtain ⟨r, hr⟩ := exists_mem_of_ne_nil _ hne
    obtain ⟨hr, howner⟩ := mem_filter.mp hr
    exact mem_map.mpr ⟨r, (mem_filter.mp hr).1, of_decide_eq_true howner⟩
  · rintro ⟨-, hstake⟩
    refine mem_map.mpr ⟨(credential, _), mem_map_drawn_aggregate.mpr ⟨?_, rfl⟩, rfl⟩
    omega

end Candidates

section Committee

variable {P : PalwPrimitives} {prevSeed batchId : Hash64}
  {records records' : List PalwProviderBondRecord} {pov : ℕ}
  {creds groups : List Hash64} {committeeSize : ℕ}

theorem map_drawn_insertionSort (l : List PalwCredentialStake) :
    (l.insertionSort fun a b => a.credential ≤ b.credential).map (·.drawn) =
      (l.map (·.drawn)).insertionSort fun a b => a.1 ≤ b.1 :=
  map_insertionSort _ _ _ _ fun _ _ _ _ => Iff.rfl

theorem sample_congr {candidates candidates' : List PalwCredentialStake}
    (h : candidates.map (·.drawn) = candidates'.map (·.drawn)) (k : ℕ) :
    (palwWeightedSampleWithoutReplacement P prevSeed batchId candidates k).map (·.drawn) =
      (palwWeightedSampleWithoutReplacement P prevSeed batchId candidates' k).map (·.drawn) := by
  have hpool : (candidates.insertionSort fun a b => a.credential ≤ b.credential).map (·.drawn) =
      (candidates'.insertionSort fun a b => a.credential ≤ b.credential).map (·.drawn) := by
    rw [map_drawn_insertionSort, map_drawn_insertionSort, h]
  rw [palwWeightedSampleWithoutReplacement, palwWeightedSampleWithoutReplacement]
  simp only [map_weight_eq_map_snd_drawn, hpool]
  exact weightedSampleLoop_congr hpool _ _ _

theorem sum_amounts_le (hamount : ∀ r ∈ records, r.amountSompi ≤ U64_MAX)
    (hcount : records.length ≤ U64_MAX) : (records.map (·.amountSompi)).sum ≤ U128_MAX := by
  have hsum := sum_le_card_nsmul (records.map (·.amountSompi)) U64_MAX fun a ha => by
    obtain ⟨r, hr, rfl⟩ := mem_map.mp ha
    exact hamount r hr
  rw [length_map] at hsum
  calc (records.map (·.amountSompi)).sum ≤ records.length * U64_MAX := hsum
    _ ≤ U64_MAX * U64_MAX := Nat.mul_le_mul_right _ hcount
    _ ≤ U128_MAX := by decide

theorem length_slate (hfits : (records.map (·.amountSompi)).sum ≤ U128_MAX) :
    (selectWeightedAuditorCommittee P prevSeed batchId records pov creds
      groups committeeSize).1.length =
        min committeeSize (stakedCredentialsAt records pov creds groups).length := by
  rw [length_slate_eq_min hfits, ← map_credential_aggregate_perm.length_eq, length_map]

theorem isStakeOf_of_mem_slate {stake : PalwCredentialStake}
    (hmem : stake ∈ (selectWeightedAuditorCommittee P prevSeed batchId records pov
      creds groups committeeSize).1) :
    0 < stake.weight ∧ IsStakeOf (eligibleBondsOf records pov creds
      groups stake.credential) stake :=
  mem_aggregateProviderCredentialsAt.mp (slate_subperm.subset hmem)

theorem credentialStakeAt_le (credential : Hash64) :
    credentialStakeAt records pov creds groups credential ≤
      (records.map (·.amountSompi)).sum := by
  rw [credentialStakeAt, eligibleBondsOf]
  exact ((filter_sublist.trans filter_sublist).map _).sum_le_sum
    fun _ _ => Nat.zero_le _

end Committee

/-- Two listings of provider bonds that give every credential the same stake at the snapshot draw
the same credentials with the same weights in the same order. A committee is listed by the least
outpoint of each member's bonds, its members are different credentials with exactly their stake, and
no place is left free while a staked credential is. -/
theorem committee_split_neutral (P : PalwPrimitives) (prevSeed batchId : Hash64)
    (records records' : List PalwProviderBondRecord) (povDaaScore : ℕ)
    (excludedCredentials excludedOperatorGroups : List Hash64) (committeeSize : ℕ)
    (hamount : ∀ r ∈ records, r.amountSompi ≤ U64_MAX) (hcount : records.length ≤ U64_MAX)
    (hstake : ∀ credential,
      credentialStakeAt records povDaaScore excludedCredentials excludedOperatorGroups credential =
        credentialStakeAt records' povDaaScore excludedCredentials excludedOperatorGroups
          credential) :
    let drawnFrom := fun rows => (palwWeightedSampleWithoutReplacement P prevSeed batchId
      (aggregateProviderCredentialsAt rows povDaaScore excludedCredentials
        excludedOperatorGroups) committeeSize).map (·.drawn)
    let slateOf := fun rows => (selectWeightedAuditorCommittee P prevSeed batchId rows povDaaScore
      excludedCredentials excludedOperatorGroups committeeSize).1
    drawnFrom records = drawnFrom records' ∧
      ((slateOf records).map (·.drawn)).Perm ((slateOf records').map (·.drawn)) ∧
      ((slateOf records).Pairwise fun a b =>
        outpointKey a.representative ≤ outpointKey b.representative) ∧
      ((slateOf records).map (·.credential)).Nodup ∧
      (∀ member ∈ slateOf records, 0 < member.weight ∧
        member.weight = credentialStakeAt records povDaaScore excludedCredentials
          excludedOperatorGroups member.credential ∧
        (∃ r ∈ eligibleBondsOf records povDaaScore excludedCredentials excludedOperatorGroups
          member.credential, r.bondOutpoint = member.representative) ∧
        ∀ r ∈ eligibleBondsOf records povDaaScore excludedCredentials excludedOperatorGroups
          member.credential, outpointKey member.representative ≤ outpointKey r.bondOutpoint) ∧
      (slateOf records).length = min committeeSize (stakedCredentialsAt records povDaaScore
        excludedCredentials excludedOperatorGroups).length := by
  intro drawnFrom slateOf
  have hfits := sum_amounts_le hamount hcount
  have hdrawn : drawnFrom records = drawnFrom records' :=
    sample_congr (map_drawn_aggregate_congr hstake) committeeSize
  have hsorted (rows : List PalwProviderBondRecord) :
      ((slateOf rows).map (·.drawn)).Perm (drawnFrom rows) :=
    (perm_insertionSort (fun a b : PalwCredentialStake =>
      outpointKey a.representative ≤ outpointKey b.representative) _).map _
  refine ⟨hdrawn, ?_, ?_, nodup_slate, ?_, length_slate hfits⟩
  · exact (hsorted records).trans (hdrawn ▸ (hsorted records').symm)
  · exact pairwise_insertionSort (fun a b : PalwCredentialStake =>
      outpointKey a.representative ≤ outpointKey b.representative) _
  · intro member hmember
    obtain ⟨hpositive, hown⟩ := isStakeOf_of_mem_slate hmember
    refine ⟨hpositive, ?_, hown.represented, hown.least⟩
    rw [hown.weight_eq]
    exact min_eq_left ((credentialStakeAt_le member.credential).trans hfits)

def auditorBond (outpoint owner amount : ℕ) : PalwProviderBondRecord where
  version := 1
  bondOutpoint := ⟨outpoint, 0⟩
  ownerPubkeyHash := owner
  ownerPublicKey := []
  operatorGroupId := owner
  runtimeClasses := [1]
  capacityByShape := [(1, 1)]
  rewardKeyRoot := 1
  amountSompi := amount
  activationDaaScore := 10
  createdDaaScore := 10
  unbondDelayEpochs := 6
  unbondRequestDaaScore := none
  slashedAtDaaScore := none

def wholeBonds : List PalwProviderBondRecord := [auditorBond 5 1 100, auditorBond 3 2 70]

def splitBonds : List PalwProviderBondRecord :=
  [auditorBond 6 1 60, auditorBond 3 2 70, auditorBond 2 1 40]

theorem credentialStakeAt_wholeBonds (credential : Hash64) :
    credentialStakeAt wholeBonds 20 [] [] credential =
      credentialStakeAt splitBonds 20 [] [] credential := by
  have hwhole : wholeBonds.filter (eligibleAuditorBond 20 [] []) = wholeBonds := by decide
  have hsplit : splitBonds.filter (eligibleAuditorBond 20 [] []) = splitBonds := by decide
  rw [credentialStakeAt, credentialStakeAt, eligibleBondsOf, eligibleBondsOf, hwhole, hsplit]
  by_cases h1 : 1 = credential
  · subst h1
    decide
  · by_cases h2 : 2 = credential
    · subst h2
      decide
    · simp [wholeBonds, splitBonds, auditorBond, h1, h2]

/-- The split changes the order in which the committee is listed, and nothing else about it. -/
theorem split_reorders_slate :
    (∀ credential, credentialStakeAt wholeBonds 20 [] [] credential =
      credentialStakeAt splitBonds 20 [] [] credential) ∧
      (selectWeightedAuditorCommittee samplePalwPrimitives 1 2 wholeBonds 20 [] [] 2).1.map
        (·.drawn) = [(2, 70), (1, 100)] ∧
      (selectWeightedAuditorCommittee samplePalwPrimitives 1 2 splitBonds 20 [] [] 2).1.map
        (·.drawn) = [(1, 100), (2, 70)] := by
  refine ⟨credentialStakeAt_wholeBonds, ?_, ?_⟩ <;> decide +kernel

theorem committee_split_neutral_splitBonds :
    (palwWeightedSampleWithoutReplacement samplePalwPrimitives 1 2
        (aggregateProviderCredentialsAt wholeBonds 20 [] []) 1).map (·.drawn) =
      (palwWeightedSampleWithoutReplacement samplePalwPrimitives 1 2
        (aggregateProviderCredentialsAt splitBonds 20 [] []) 1).map (·.drawn) ∧
      (selectWeightedAuditorCommittee samplePalwPrimitives 1 2 wholeBonds 20 [] [] 1).1.length =
        1 := by
  obtain ⟨hdrawn, -, -, -, -, hlength⟩ := committee_split_neutral samplePalwPrimitives 1 2
    wholeBonds splitBonds 20 [] [] 1 (by decide) (by decide) credentialStakeAt_wholeBonds
  exact ⟨hdrawn, hlength.trans (by decide)⟩

end Misaka.Palw
