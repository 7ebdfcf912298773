import Misaka.Core.GroupFold
import Misaka.Core.Shares
import Misaka.Dns.Overlay
import Misaka.Palw.ProviderBond
import Misaka.Palw.Admission

/-!
# The auditor committee

Who audits a batch: the bonds that are Active at the snapshot and not excluded are collected into
one stake per credential, a seeded draw without replacement takes a committee from them, and the
members are ordered by the least outpoint of their credential.
-/

namespace Misaka.Palw

open Misaka.Core Dns List

def PALW_AUDITOR_SET_DOMAIN : Bytes := domain "misaka-palw-auditor-set-v1"
def PALW_WEIGHTED_DRAW_DOMAIN : Bytes := domain "misaka-palw-weighted-draw-v1"

def isProviderBondActiveAt (record : PalwProviderBondRecord) (povDaaScore : ℕ) : Bool :=
  effectiveProviderBondStatus record povDaaScore == .active

/-- `ProviderBondView::records` enumerates the rows in an order the hash map does not fix: any list
with these rows. -/
def ProviderBondView.Lists (view : ProviderBondView) (records : List PalwProviderBondRecord) :
    Prop :=
  (records : Multiset PalwProviderBondRecord) = Table.values view

structure PalwCredentialStake where
  credential : Hash64
  weight : ℕ
  representative : TransactionOutpoint
  deriving DecidableEq, Repr

/-- The filters of the loop of `aggregate_provider_credentials_at`. -/
def eligibleAuditorBond (povDaaScore : ℕ) (excludedCredentials excludedOperatorGroups : List Hash64)
    (record : PalwProviderBondRecord) : Bool :=
  isProviderBondActiveAt record povDaaScore &&
    !(excludedCredentials.contains record.ownerPubkeyHash ||
      excludedOperatorGroups.contains record.operatorGroupId)

def creditBond (stake : PalwCredentialStake) (record : PalwProviderBondRecord) :
    PalwCredentialStake :=
  { stake with
    weight := min (stake.weight + record.amountSompi) U128_MAX
    representative :=
      if outpointLt record.bondOutpoint stake.representative then record.bondOutpoint
      else stake.representative }

/-- `entry(credential).or_insert((0, record.bond_outpoint))`, then the bond. -/
def openCredential (record : PalwProviderBondRecord) : PalwCredentialStake :=
  creditBond ⟨record.ownerPubkeyHash, 0, record.bondOutpoint⟩ record

def byCredential (records : List PalwProviderBondRecord) : List PalwCredentialStake :=
  groupFold (·.ownerPubkeyHash) (·.credential) openCredential creditBond records

/-- The stakes of eligible bonds, by credential. -/
def aggregateProviderCredentialsAt (records : List PalwProviderBondRecord) (povDaaScore : ℕ)
    (excludedCredentials excludedOperatorGroups : List Hash64) : List PalwCredentialStake :=
  ((byCredential (records.filter
    (eligibleAuditorBond povDaaScore excludedCredentials excludedOperatorGroups))).filter
      fun stake => 0 < stake.weight).insertionSort fun a b => a.credential ≤ b.credential

variable (P : PalwPrimitives)

/-- The first sixteen bytes of a digest as a `u128`. -/
def digestU128 (digest : Hash64) : ℕ := leNat ((hash64Bytes digest).take 16)

def palwWeightedDraw (seed context : Hash64) (round total : ℕ) : ℕ :=
  digestU128 (P.blake2b512Keyed PALW_WEIGHTED_DRAW_DOMAIN
    (hash64Bytes seed ++ hash64Bytes context ++ leBytes 8 round)) % max total 1

def passingIndex (draw : ℕ) : ℕ → List PalwCredentialStake → Option ℕ
  | _, [] => none
  | acc, c :: pool =>
    if draw < min (acc + c.weight) U128_MAX then some 0
    else (passingIndex draw (min (acc + c.weight) U128_MAX) pool).map (· + 1)

/-- The loop of `palw_weighted_sample_without_replacement`, with the number of places left. -/
def weightedSampleLoop (seed context : Hash64) :
    ℕ → ℕ → List PalwCredentialStake → ℕ → List PalwCredentialStake
  | 0, _, _, _ => []
  | places + 1, round, pool, total =>
    if pool.isEmpty || total == 0 then []
    else
      let draw := palwWeightedDraw P seed context round total
      let idx := (passingIndex draw 0 pool).getD (pool.length - 1)
      match pool[idx]? with
      | none => []
      | some chosen =>
        chosen :: weightedSampleLoop seed context places (round + 1) (pool.eraseIdx idx)
          (total - chosen.weight)

def palwWeightedSampleWithoutReplacement (seed context : Hash64)
    (candidates : List PalwCredentialStake) (k : ℕ) : List PalwCredentialStake :=
  let pool := candidates.insertionSort fun a b => a.credential ≤ b.credential
  weightedSampleLoop P seed context k 0 pool (satSum U128_MAX (pool.map (·.weight)))

def auditorSetCommitment (bonds : List TransactionOutpoint) : Hash64 :=
  let sorted := bonds.insertionSort fun a b => outpointKey a ≤ outpointKey b
  P.blake2b512Keyed PALW_AUDITOR_SET_DOMAIN
    (leBytes 8 sorted.length ++ sorted.flatMap outpointBytes)

/-- Drawn by stake, without replacement. -/
def selectWeightedAuditorCommittee (prevSeed batchId : Hash64)
    (records : List PalwProviderBondRecord) (povDaaScore : ℕ)
    (excludedCredentials excludedOperatorGroups : List Hash64) (committeeSize : ℕ) :
    List PalwCredentialStake × Hash64 :=
  let candidates := aggregateProviderCredentialsAt records povDaaScore excludedCredentials
    excludedOperatorGroups
  let slate := (palwWeightedSampleWithoutReplacement P prevSeed batchId candidates
    committeeSize).insertionSort fun a b =>
      outpointKey a.representative ≤ outpointKey b.representative
  (slate, auditorSetCommitment P (slate.map (·.representative)))

theorem outpointLt_iff {a b : TransactionOutpoint} :
    outpointLt a b = true ↔ outpointKey a < outpointKey b := by
  rw [outpointKey, outpointKey, Prod.Lex.toLex_lt_toLex]
  simp [outpointLt]

structure IsStakeOf (own : List PalwProviderBondRecord) (stake : PalwCredentialStake) : Prop where
  weight_eq : stake.weight = min (own.map (·.amountSompi)).sum U128_MAX
  represented : ∃ r ∈ own, r.bondOutpoint = stake.representative
  least : ∀ r ∈ own, outpointKey stake.representative ≤ outpointKey r.bondOutpoint

theorem isStakeOf_openCredential (r : PalwProviderBondRecord) :
    IsStakeOf [r] (openCredential r) where
  weight_eq := by simp [openCredential, creditBond]
  represented := ⟨r, mem_singleton_self r, by simp [openCredential, creditBond]⟩
  least := by simp [openCredential, creditBond]

variable {own : List PalwProviderBondRecord} {stake : PalwCredentialStake}

theorem IsStakeOf.creditBond (h : IsStakeOf own stake) (r : PalwProviderBondRecord) :
    IsStakeOf (own ++ [r]) (creditBond stake r) := by
  have hweight := h.weight_eq
  obtain ⟨r₀, hmem, hrep⟩ := h.represented
  refine ⟨?_, ?_, ?_⟩
  · simp only [Palw.creditBond, map_append, sum_append, map_cons, map_nil,
      sum_cons, sum_nil]
    omega
  · by_cases hlt : outpointLt r.bondOutpoint stake.representative
    · exact ⟨r, by simp, by simp [Palw.creditBond, hlt]⟩
    · exact ⟨r₀, by simp [hmem], by simp [Palw.creditBond, hlt, hrep]⟩
  · by_cases hlt : outpointLt r.bondOutpoint stake.representative
    · simp only [Palw.creditBond, hlt, if_true, forall_mem_append, forall_mem_singleton, le_rfl,
        and_true]
      exact fun q hq => (outpointLt_iff.mp hlt).le.trans (h.least q hq)
    · simp only [Palw.creditBond, hlt, Bool.false_eq_true, if_false]
      rw [outpointLt_iff, not_lt] at hlt
      exact forall_mem_append.mpr ⟨h.least, forall_mem_singleton.mpr hlt⟩

theorem IsStakeOf.unique {a b : PalwCredentialStake} (ha : IsStakeOf own a) (hb : IsStakeOf own b)
    (hcredential : a.credential = b.credential) : a = b := by
  obtain ⟨r, hr, hra⟩ := ha.represented
  obtain ⟨q, hq, hqb⟩ := hb.represented
  have hab : outpointKey a.representative ≤ outpointKey b.representative := hqb ▸ ha.least q hq
  have hba : outpointKey b.representative ≤ outpointKey a.representative := hra ▸ hb.least r hr
  have hrep := outpointKey_injective (le_antisymm hab hba)
  have hweight : a.weight = b.weight := ha.weight_eq.trans hb.weight_eq.symm
  cases a
  cases b
  simp_all

theorem creditBond_credential (stake : PalwCredentialStake) (r : PalwProviderBondRecord) :
    (creditBond stake r).credential = stake.credential := rfl

theorem openCredential_credential (r : PalwProviderBondRecord) :
    (openCredential r).credential = r.ownerPubkeyHash := rfl

theorem foldl_creditBond_credential (stake : PalwCredentialStake)
    (rows : List PalwProviderBondRecord) :
    (rows.foldl creditBond stake).credential = stake.credential := by
  induction rows generalizing stake with
  | nil => rfl
  | cons r rows ih => rw [foldl_cons, ih, creditBond_credential]

theorem isStakeOf_foldl (h : IsStakeOf own stake) (rows : List PalwProviderBondRecord) :
    IsStakeOf (own ++ rows) (rows.foldl creditBond stake) := by
  induction rows generalizing own stake with
  | nil => simpa using h
  | cons r rows ih =>
    have hstep := ih (h.creditBond r)
    rwa [append_assoc, singleton_append] at hstep

theorem exists_isStakeOf {credential : Hash64} (hne : own ≠ [])
    (hown : ∀ r ∈ own, r.ownerPubkeyHash = credential) :
    ∃ stake : PalwCredentialStake, stake.credential = credential ∧ IsStakeOf own stake := by
  match own with
  | [] => exact absurd rfl hne
  | r :: rows =>
    refine ⟨rows.foldl creditBond (openCredential r), ?_, ?_⟩
    · rw [foldl_creditBond_credential, openCredential_credential]
      exact hown r mem_cons_self
    · exact isStakeOf_foldl (isStakeOf_openCredential r) rows

theorem mem_byCredential {records : List PalwProviderBondRecord} :
    stake ∈ byCredential records ↔
      IsStakeOf (records.filter (·.ownerPubkeyHash = stake.credential)) stake := by
  rw [byCredential, mem_groupFold openCredential_credential creditBond_credential]
  change foldRows _ _ (records.filter (·.ownerPubkeyHash = stake.credential)) = _ ↔ _
  cases hown : records.filter (·.ownerPubkeyHash = stake.credential) with
  | nil =>
    refine ⟨fun h => (nomatch h), fun h => ?_⟩
    obtain ⟨r, hr, -⟩ := h.represented
    exact absurd hr (by simp)
  | cons r rows =>
    have hr : r.ownerPubkeyHash = stake.credential := by
      have hmem : r ∈ records.filter (·.ownerPubkeyHash = stake.credential) := by simp [hown]
      exact of_decide_eq_true (mem_filter.mp hmem).2
    have hfold := isStakeOf_foldl (isStakeOf_openCredential r) rows
    rw [foldRows, Option.some.injEq]
    constructor
    · rintro rfl
      exact hfold
    · intro h
      refine hfold.unique h ?_
      rwa [foldl_creditBond_credential]

theorem nodup_byCredential (records : List PalwProviderBondRecord) :
    ((byCredential records).map (·.credential)).Nodup :=
  nodup_groupFold openCredential_credential creditBond_credential records

section Aggregate

variable {records : List PalwProviderBondRecord} {pov : ℕ}
  {creds groups : List Hash64}

theorem mem_aggregateProviderCredentialsAt :
    stake ∈ aggregateProviderCredentialsAt records pov creds groups ↔
      0 < stake.weight ∧ IsStakeOf ((records.filter (eligibleAuditorBond pov creds groups)).filter
          (·.ownerPubkeyHash = stake.credential)) stake := by
  rw [aggregateProviderCredentialsAt, mem_insertionSort, mem_filter, mem_byCredential,
    decide_eq_true_eq, and_comm]

theorem aggregateProviderCredentialsAt_perm :
    (aggregateProviderCredentialsAt records pov creds
      groups).Perm ((byCredential (records.filter (eligibleAuditorBond pov
        creds groups))).filter fun stake => 0 < stake.weight) :=
  perm_insertionSort _ _

theorem nodup_aggregateProviderCredentialsAt :
    ((aggregateProviderCredentialsAt records pov creds groups).map (·.credential)).Nodup := by
  refine (aggregateProviderCredentialsAt_perm.map (·.credential)).nodup_iff.mpr ?_
  exact (nodup_byCredential _).sublist (filter_sublist.map _)

theorem exists_mem_aggregate {r : PalwProviderBondRecord} (hmem : r ∈ records)
    (heligible : eligibleAuditorBond pov creds groups r)
    (hamount : 0 < r.amountSompi) :
    ∃ stake ∈ aggregateProviderCredentialsAt records pov creds
      groups, stake.credential = r.ownerPubkeyHash := by
  have hown : r ∈ (records.filter (eligibleAuditorBond pov creds
      groups)).filter (·.ownerPubkeyHash = r.ownerPubkeyHash) := by
    simp [hmem, heligible]
  obtain ⟨stake, hcredential, hstake⟩ := exists_isStakeOf (ne_nil_of_mem hown) fun q hq =>
    of_decide_eq_true (mem_filter.mp hq).2
  refine ⟨stake, mem_aggregateProviderCredentialsAt.mpr ⟨?_, hcredential ▸ hstake⟩, hcredential⟩
  rw [hstake.weight_eq]
  have hle := single_le_sum (fun n _ => Nat.zero_le n) r.amountSompi (mem_map_of_mem hown)
  exact lt_min (hamount.trans_le hle) (by decide)

end Aggregate

variable {pool : List PalwCredentialStake}

section Draw

variable {P} {seed context : Hash64}

theorem passingIndex_lt {draw acc i : ℕ} (h : passingIndex draw acc pool = some i) :
    i < pool.length := by
  induction pool generalizing acc i with
  | nil => cases h
  | cons c pool ih =>
    rw [passingIndex] at h
    split at h
    · cases h
      exact Nat.succ_pos _
    · obtain ⟨j, hj, rfl⟩ := Option.map_eq_some_iff.mp h
      exact Nat.succ_lt_succ (ih hj)

theorem weightedSampleLoop_succ (P : PalwPrimitives) (seed context : Hash64) (places round : ℕ)
    (pool : List PalwCredentialStake) (total : ℕ) :
    (weightedSampleLoop P seed context (places + 1) round pool total = [] ∧
        (pool = [] ∨ total = 0)) ∨
      ∃ chosen rest, pool.Perm (chosen :: rest) ∧
        weightedSampleLoop P seed context (places + 1) round pool total =
          chosen :: weightedSampleLoop P seed context places (round + 1) rest
            (total - chosen.weight) := by
  by_cases hstop : (pool.isEmpty || total == 0) = true
  · refine .inl ⟨by rw [weightedSampleLoop, if_pos hstop], ?_⟩
    simpa using hstop
  · set idx := (passingIndex (palwWeightedDraw P seed context round total) 0 pool).getD
      (pool.length - 1) with hidx
    have hlt : idx < pool.length := by
      rw [hidx]
      cases hpass : passingIndex (palwWeightedDraw P seed context round total) 0 pool with
      | none =>
        have hne : pool ≠ [] := fun h => hstop (by simp [h])
        have := length_pos_of_ne_nil hne
        simp only [Option.getD_none]
        omega
      | some i => exact passingIndex_lt hpass
    refine .inr ⟨pool[idx], pool.eraseIdx idx, (getElem_cons_eraseIdx_perm hlt).symm, ?_⟩
    rw [weightedSampleLoop, if_neg hstop]
    simp only [← hidx, List.getElem?_eq_getElem hlt]

theorem weightedSampleLoop_subperm (places round : ℕ) (pool : List PalwCredentialStake)
    (total : ℕ) : (weightedSampleLoop P seed context places round pool total).Subperm pool := by
  induction places generalizing round pool total with
  | zero => exact nil_subperm
  | succ places ih =>
    rcases weightedSampleLoop_succ P seed context places round pool total with
      ⟨hnil, -⟩ | ⟨chosen, rest, hperm, hcons⟩
    · rw [hnil]
      exact nil_subperm
    · rw [hcons]
      exact ((subperm_cons chosen).mpr (ih _ _ _)).trans hperm.symm.subperm

theorem length_weightedSampleLoop {places round : ℕ} (hpositive : ∀ c ∈ pool, 0 < c.weight) :
    (weightedSampleLoop P seed context places round pool (pool.map (·.weight)).sum).length =
      min places pool.length := by
  induction places generalizing round pool with
  | zero => simp [weightedSampleLoop]
  | succ places ih =>
    rcases weightedSampleLoop_succ P seed context places round pool
      (pool.map (·.weight)).sum with ⟨hnil, hstop⟩ | ⟨chosen, rest, hperm, hcons⟩
    · have hpool : pool = [] := by
        rcases hstop with hpool | hzero
        · exact hpool
        · refine eq_nil_iff_forall_not_mem.mpr fun c hc => ?_
          have hle : c.weight ≤ (pool.map (·.weight)).sum :=
            single_le_sum (fun n _ => Nat.zero_le n) c.weight (mem_map_of_mem hc)
          have := hpositive c hc
          omega
      rw [hnil, hpool]
      simp
    · have hsum : (pool.map (·.weight)).sum = chosen.weight + (rest.map (·.weight)).sum := by
        rw [(hperm.map _).sum_eq, map_cons, sum_cons]
      have hrest : ∀ c ∈ rest, 0 < c.weight := fun c hc =>
        hpositive c (hperm.mem_iff.mpr (mem_cons_of_mem _ hc))
      rw [hcons, length_cons, hsum, Nat.add_sub_cancel_left, ih hrest, hperm.length_eq,
        length_cons]
      omega

end Draw

section Committee

variable {P} {prevSeed batchId : Hash64} {records : List PalwProviderBondRecord} {pov : ℕ}
  {creds groups : List Hash64} {committeeSize : ℕ}

theorem slate_subperm :
    (selectWeightedAuditorCommittee P prevSeed batchId records pov creds
      groups committeeSize).1.Subperm (aggregateProviderCredentialsAt records pov creds
          groups) := by
  rw [selectWeightedAuditorCommittee]
  refine (perm_insertionSort _ _).subperm.trans ?_
  rw [palwWeightedSampleWithoutReplacement]
  exact (weightedSampleLoop_subperm _ _ _ _).trans (perm_insertionSort _ _).subperm

theorem nodup_slate :
    ((selectWeightedAuditorCommittee P prevSeed batchId records pov creds
      groups committeeSize).1.map (·.credential)).Nodup := by
  obtain ⟨l, hperm, hsublist⟩ :
      (selectWeightedAuditorCommittee P prevSeed batchId records pov creds
        groups committeeSize).1.Subperm _ := slate_subperm
  exact (hperm.map _).nodup_iff.mp (nodup_aggregateProviderCredentialsAt.sublist (hsublist.map _))

theorem sum_mergeRow_weights_le (r : PalwProviderBondRecord) (l : List PalwCredentialStake) :
    ((mergeRow (·.ownerPubkeyHash) (·.credential) openCredential creditBond r l).map
      (·.weight)).sum ≤ (l.map (·.weight)).sum + r.amountSompi := by
  induction l with
  | nil => simp [mergeRow, openCredential, creditBond]
  | cons c l ih =>
    by_cases hkey : c.credential = r.ownerPubkeyHash
    · simp only [mergeRow, hkey, if_true, map_cons, sum_cons, creditBond]
      omega
    · simp only [mergeRow, hkey, if_false, map_cons, sum_cons]
      omega

theorem sum_byCredential_weights_le (rows : List PalwProviderBondRecord) :
    ((byCredential rows).map (·.weight)).sum ≤ (rows.map (·.amountSompi)).sum := by
  induction rows using List.reverseRecOn with
  | nil => exact le_rfl
  | append_singleton rows r ih =>
    have hmerge := sum_mergeRow_weights_le r (byCredential rows)
    rw [byCredential, groupFold, foldl_append, foldl_cons, foldl_nil, ← groupFold,
      ← byCredential, map_append, sum_append, map_singleton, sum_singleton]
    exact hmerge.trans (Nat.add_le_add_right ih _)

theorem sum_weights_le :
    ((aggregateProviderCredentialsAt records pov creds
      groups).map (·.weight)).sum ≤ (records.map (·.amountSompi)).sum := by
  rw [(aggregateProviderCredentialsAt_perm.map (·.weight)).sum_eq]
  calc _ ≤ ((byCredential (records.filter (eligibleAuditorBond pov creds
        groups))).map (·.weight)).sum :=
        (filter_sublist.map _).sum_le_sum fun _ _ => Nat.zero_le _
    _ ≤ ((records.filter (eligibleAuditorBond pov creds
        groups)).map (·.amountSompi)).sum := sum_byCredential_weights_le _
    _ ≤ _ := (filter_sublist.map _).sum_le_sum fun _ _ => Nat.zero_le _

theorem length_slate_eq_min (hfits : (records.map (·.amountSompi)).sum ≤ U128_MAX) :
    (selectWeightedAuditorCommittee P prevSeed batchId records pov creds
      groups committeeSize).1.length =
        min committeeSize (aggregateProviderCredentialsAt records pov creds groups).length := by
  set candidates := aggregateProviderCredentialsAt records pov creds groups with hcandidates
  set pool := candidates.insertionSort fun a b => a.credential ≤ b.credential with hpool
  have hsort : pool.Perm candidates :=
    perm_insertionSort (fun a b : PalwCredentialStake => a.credential ≤ b.credential) _
  have htotal : satSum U128_MAX (pool.map (·.weight)) = (pool.map (·.weight)).sum := by
    rw [satSum_eq, (hsort.map _).sum_eq]
    exact min_eq_left (sum_weights_le.trans hfits)
  have hpositive : ∀ c ∈ pool, 0 < c.weight := fun c hc =>
    (mem_aggregateProviderCredentialsAt.mp (hsort.mem_iff.mp hc)).1
  rw [selectWeightedAuditorCommittee, length_insertionSort,
    palwWeightedSampleWithoutReplacement, ← hcandidates]
  simp only [← hpool, htotal]
  rw [length_weightedSampleLoop hpositive, hsort.length_eq]

theorem slate_perm (hfits : (records.map (·.amountSompi)).sum ≤ U128_MAX)
    (hplaces : (aggregateProviderCredentialsAt records pov creds groups).length ≤ committeeSize) :
    (selectWeightedAuditorCommittee P prevSeed batchId records pov creds
      groups committeeSize).1.Perm (aggregateProviderCredentialsAt records pov creds groups) :=
  slate_subperm.perm_of_length_le (by rw [length_slate_eq_min hfits, min_eq_right hplaces])

end Committee

end Misaka.Palw
