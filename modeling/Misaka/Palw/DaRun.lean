import Misaka.Core.Run
import Misaka.Palw.DaState

/-!
# Runs of the data availability state

The operations that move `PalwDaStateV1` along a selected chain, one label each. An operation that
fails leaves the state; the virtual processor treats it as inert. `DaEffect` says once what an
operation can do to obligations and challenges.
-/

namespace Misaka.Palw

open Misaka.Core Dns Option Table

inductive DaOp where
  | beginChildBlock
  | recordBlockSlash (providerBond : TransactionOutpoint)
  | registerLeafObligations (leaf : PalwPublicLeafV1) (commitment : PalwReceiptDaCommitmentV1)
      (beacon : PalwBuriedBeaconV1) (policy : PalwDaPolicyV1)
  | applyChallenge (challenge : PalwDaChallengeV1) (challengerRecord : PalwProviderBondRecord)
      (networkId currentEpoch : ℕ) (policy : PalwDaPolicyV1)
  | applyResponse (response : PalwDaResponseV1) (providerRecord : PalwProviderBondRecord)
      (networkId : ℕ)
  | applyTimeoutEvidence (evidence : PalwDaTimeoutEvidenceV1) (networkId : ℕ)
  | removeCertifiedBatch (batchId : Hash64)
  | retainReferenceableBatches (referenceable : Finset Hash64) (currentEpoch : ℕ)

structure DaStep where
  daaScore : ℕ
  op : DaOp

def PalwDaStateV1.orKeep (s : PalwDaStateV1) (result : Except PalwDaError PalwDaStateV1) :
    PalwDaStateV1 :=
  match result with
  | .ok s' => s'
  | .error _ => s

variable (P : PalwPrimitives)

def daStep (s : PalwDaStateV1) (st : DaStep) : PalwDaStateV1 :=
  match st.op with
  | .beginChildBlock => s.beginChildBlock
  | .recordBlockSlash providerBond => s.orKeep (s.recordBlockSlash providerBond)
  | .registerLeafObligations leaf commitment beacon policy =>
    s.orKeep (s.registerLeafObligations P leaf commitment beacon policy st.daaScore)
  | .applyChallenge challenge challengerRecord networkId currentEpoch policy =>
    s.orKeep
      (s.applyChallenge P challenge challengerRecord networkId st.daaScore currentEpoch policy)
  | .applyResponse response providerRecord networkId =>
    s.orKeep (s.applyResponse P response providerRecord networkId st.daaScore)
  | .applyTimeoutEvidence evidence networkId =>
    (s.applyTimeoutEvidence P evidence networkId st.daaScore).1
  | .removeCertifiedBatch batchId => s.removeCertifiedBatch batchId
  | .retainReferenceableBatches referenceable currentEpoch =>
    s.retainReferenceableBatches referenceable currentEpoch

def emittedSlash (s : PalwDaStateV1) (st : DaStep) : Option PalwProviderBondMutation :=
  match st.op with
  | .applyTimeoutEvidence evidence networkId =>
    (s.applyTimeoutEvidence P evidence networkId st.daaScore).2.toOption
  | _ => none

def daRun (steps : List DaStep) : PalwDaStateV1 := steps.foldl (daStep P) .initial

def DaOp.keeps (s : PalwDaStateV1) : DaOp → Option (Finset Hash64)
  | .removeCertifiedBatch batchId =>
    some ((s.obligations.values.filter (·.batchId ≠ batchId)).map (·.batchId)).toFinset
  | .retainReferenceableBatches referenceable _ => some referenceable
  | _ => none

variable {P} {s s' : PalwDaStateV1} {st : DaStep} {id : Hash64} {leaf : PalwPublicLeafV1}
  {o : PalwDaObligationV1} {rows : List PalwDaObligationV1} {c : PalwDaChallengeStateV1}
  {record : PalwProviderBondRecord} {policy : PalwDaPolicyV1} {evidence : PalwDaTimeoutEvidenceV1}
  {networkId daa : ℕ}

theorem finishSnapshotBoundedMutation_eq_ok {mutated : PalwDaStateV1} {reserve : ℕ}
    (h : mutated.finishSnapshotBoundedMutation reserve = .ok s') : s' = mutated := by
  obtain ⟨-, h⟩ := check_bind_eq_ok.mp h
  exact (Except.ok.inj h).symm

theorem applyChallenge_eq_ok {challenge : PalwDaChallengeV1} {epoch : ℕ}
    (h : s.applyChallenge P challenge record networkId daa epoch policy = .ok s') :
    ∃ o, s.obligations.lookup challenge.obligationId = some o ∧ o.status = .pending ∧
      daa ≤ o.retentionUntilDaaScore ∧
      s.challenges.lookup (challenge.challengeId P) = none ∧
      s' = s.openChallenge P challenge o
        (PalwDaStateV1.counterKey challenge.challengerBond epoch) := by
  simp only [PalwDaStateV1.applyChallenge, bind_eq_ok] at h
  obtain ⟨-, -, ⟨⟩, hnew, -, -, o, ho, ⟨⟩, hobligation, -, -, -, -, -, -, h⟩ := h
  have hchecks := failIf_eq_ok.mp hobligation
  simp only [Bool.or_eq_false_iff, decide_eq_false_iff_not, not_not, not_lt] at hchecks
  exact ⟨o, elim_eq_ok.mp ho, hchecks.1.1.1, hchecks.1.1.2,
    not_isSome_iff_eq_none.mp (Bool.eq_false_iff.mp (failIf_eq_ok.mp hnew)),
    finishSnapshotBoundedMutation_eq_ok h⟩

theorem applyResponse_eq_ok {response : PalwDaResponseV1}
    (h : s.applyResponse P response record networkId daa = .ok s') :
    ∃ c o, s.challenges.lookup response.challengeId = some c ∧ c.status = .open ∧
      daa ≤ c.challenge.responseDeadlineDaaScore ∧
      s.obligations.lookup c.challenge.obligationId = some o ∧
      s' = s.resolve response.challengeId c (.responded (response.responseId P)) o
        (.satisfied (response.responseId P)) := by
  simp only [PalwDaStateV1.applyResponse, bind_eq_ok] at h
  obtain ⟨-, -, c, hc, ⟨⟩, hresponder, o, ho, -, -, -, -, -, -, h⟩ := h
  have hchecks := failIf_eq_ok.mp hresponder
  simp only [Bool.or_eq_false_iff, decide_eq_false_iff_not, not_not, not_lt] at hchecks
  exact ⟨c, o, elim_eq_ok.mp hc, hchecks.1.1.1.1.1.1.1, hchecks.1.2, elim_eq_ok.mp ho,
    finishSnapshotBoundedMutation_eq_ok h⟩

theorem checkTimeoutEvidence_eq_ok (h : s.checkTimeoutEvidence P evidence networkId daa = .ok c) :
    s.challenges.lookup evidence.challengeId = some c ∧ c.status = .open ∧
      c.providerBond = evidence.providerBond ∧
      c.challenge.responseDeadlineDaaScore < daa := by
  simp only [PalwDaStateV1.checkTimeoutEvidence, bind_eq_ok] at h
  obtain ⟨-, -, -, -, -, -, -, -, c', hc, ⟨⟩, hstate, h⟩ := h
  cases h
  have hchecks := failIf_eq_ok.mp hstate
  simp only [Bool.or_eq_false_iff, decide_eq_false_iff_not, not_not, not_le] at hchecks
  exact ⟨elim_eq_ok.mp hc, hchecks.1.1, hchecks.1.2, hchecks.2⟩

def NewRows (s : PalwDaStateV1) (leaf : PalwPublicLeafV1) (rows : List PalwDaObligationV1) : Prop :=
  ∀ o ∈ rows, s.obligations.lookup o.obligationId = none ∧ o.status = .pending ∧
    (o.providerBond = leaf.providerABond ∨ o.providerBond = leaf.providerBBond)

theorem NewRows.addPending {rows' : List PalwDaObligationV1} (hrows : NewRows s leaf rows)
    (hstatus : o.status = .pending)
    (hprovider : o.providerBond = leaf.providerABond ∨ o.providerBond = leaf.providerBBond)
    (h : s.addPending rows o = .ok rows') : NewRows s leaf rows' := by
  obtain ⟨hfresh, h⟩ := check_bind_eq_ok.mp h
  cases h
  have hnone := (Bool.or_eq_false_iff.mp (failIf_eq_ok.mp hfresh)).1
  intro row hrow
  rcases List.mem_append.mp hrow with hold | hlast
  · exact hrows row hold
  · cases List.mem_singleton.mp hlast
    exact ⟨not_isSome_iff_eq_none.mp (Bool.eq_false_iff.mp hnone), hstatus, hprovider⟩

theorem registerLeafObligations_eq_ok {commitment : PalwReceiptDaCommitmentV1}
    {beacon : PalwBuriedBeaconV1}
    (h : s.registerLeafObligations P leaf commitment beacon policy daa = .ok s') :
    ∃ rows, NewRows s leaf rows ∧ s' = s.insertObligations rows := by
  obtain ⟨-, h⟩ := check_bind_eq_ok.mp h
  obtain ⟨rows, hrows, h⟩ := bind_eq_ok.mp h
  obtain ⟨-, h⟩ := check_bind_eq_ok.mp h
  refine ⟨rows, ?_, finishSnapshotBoundedMutation_eq_ok h⟩
  -- both loops, over providers and over samples, keep the rows new
  refine foldlM_induction (I := NewRows s leaf) (fun rows provider rows' hprovider hI hturn => ?_)
    (by simp [NewRows]) hrows
  obtain ⟨samples, -, hturn⟩ := bind_eq_ok.mp hturn
  refine foldlM_induction (I := NewRows s leaf) (fun rows index rows' _ hI hsample => ?_) hI hturn
  exact hI.addPending rfl (by simpa [PalwDaStateV1.newObligation] using hprovider) hsample

/-- An open challenge stands on the obligation that it challenges. -/
def Linked (s : PalwDaStateV1) : Prop :=
  ∀ id c, s.challenges.lookup id = some c → c.status = .open →
    ∃ o, s.obligations.lookup c.challenge.obligationId = some o ∧ o.status = .challenged id ∧
      o.providerBond = c.providerBond

theorem linked_initial : Linked .initial := by
  intro id c hc
  simp [PalwDaStateV1.initial] at hc

inductive Resolution (P : PalwPrimitives) (s : PalwDaStateV1) (st : DaStep) (id : Hash64)
    (c : PalwDaChallengeStateV1) : PalwDaChallengeStatusV1 → PalwDaObligationStatusV1 → Prop
  | answered (response : PalwDaResponseV1) (record : PalwProviderBondRecord) (networkId : ℕ)
      (hop : st.op = .applyResponse response record networkId) (hid : response.challengeId = id)
      (htime : st.daaScore ≤ c.challenge.responseDeadlineDaaScore) :
      Resolution P s st id c (.responded (response.responseId P))
        (.satisfied (response.responseId P))
  | timedOut (evidence : PalwDaTimeoutEvidenceV1) (networkId : ℕ)
      (hop : st.op = .applyTimeoutEvidence evidence networkId) (hid : evidence.challengeId = id)
      (htime : c.challenge.responseDeadlineDaaScore < st.daaScore)
      (hslash : emittedSlash P s st = some (.slash c.providerBond st.daaScore)) :
      Resolution P s st id c (.timedOut (evidence.evidenceId P)) (.timedOut (evidence.evidenceId P))

/-- What one operation may do to the state; every run invariant below is read off it. -/
inductive DaEffect (P : PalwPrimitives) (s : PalwDaStateV1) (st : DaStep) (s' : PalwDaStateV1) :
    Prop
  | idle (hrows : s'.obligations = s.obligations) (hchallenges : s'.challenges = s.challenges)
  | registered (leaf : PalwPublicLeafV1) (commitment : PalwReceiptDaCommitmentV1)
      (beacon : PalwBuriedBeaconV1) (policy : PalwDaPolicyV1) (rows : List PalwDaObligationV1)
      (hop : st.op = .registerLeafObligations leaf commitment beacon policy)
      (hnew : NewRows s leaf rows)
      (hrows : s'.obligations = s.obligations.insertAll (·.obligationId) rows)
      (hchallenges : s'.challenges = s.challenges)
  | opened (challenge : PalwDaChallengeV1) (o : PalwDaObligationV1)
      (ho : s.obligations.lookup challenge.obligationId = some o) (hpending : o.status = .pending)
      (htime : st.daaScore ≤ o.retentionUntilDaaScore)
      (hnew : s.challenges.lookup (challenge.challengeId P) = none)
      (hrows : s'.obligations = s.obligations.insert challenge.obligationId
        { o with status := .challenged (challenge.challengeId P) })
      (hchallenges : s'.challenges = s.challenges.insert (challenge.challengeId P)
        ⟨challenge, o.providerBond, o.objectRoot, o.chunkIndex, .open⟩)
  | resolved (id : Hash64) (c : PalwDaChallengeStateV1) (o : PalwDaObligationV1)
      (challengeStatus : PalwDaChallengeStatusV1) (obligationStatus : PalwDaObligationStatusV1)
      (hc : s.challenges.lookup id = some c) (hopen : c.status = .open)
      (ho : s.obligations.lookup c.challenge.obligationId = some o)
      (hresolution : Resolution P s st id c challengeStatus obligationStatus)
      (hrows : s'.obligations = s.obligations.insert c.challenge.obligationId
        { o with status := obligationStatus })
      (hchallenges : s'.challenges = s.challenges.insert id { c with status := challengeStatus })
  | compacted (keep : Finset Hash64) (hop : st.op.keeps s = some keep)
      (hrows : s'.obligations = s.obligations.filterRows fun _ o => o.batchId ∈ keep)
      (hchallenges : s'.challenges = s.challenges.filterRows fun _ c =>
        (s'.obligations.lookup c.challenge.obligationId).isSome)

theorem DaEffect.orKeep {result : Except PalwDaError PalwDaStateV1}
    (h : ∀ t, result = .ok t → DaEffect P s st t) : DaEffect P s st (s.orKeep result) := by
  cases result with
  | error e => exact .idle rfl rfl
  | ok t => exact h t rfl

theorem recordBlockSlash_eq_ok {providerBond : TransactionOutpoint}
    (h : s.recordBlockSlash providerBond = .ok s') :
    s'.obligations = s.obligations ∧ s'.challenges = s.challenges := by
  unfold PalwDaStateV1.recordBlockSlash at h
  split at h
  · cases h
    exact ⟨rfl, rfl⟩
  · obtain ⟨-, h⟩ := check_bind_eq_ok.mp h
    cases finishSnapshotBoundedMutation_eq_ok h
    exact ⟨rfl, rfl⟩

theorem DaEffect.timeout (hs : Linked s) (hop : st.op = .applyTimeoutEvidence evidence networkId) :
    DaEffect P s st (s.applyTimeoutEvidence P evidence networkId st.daaScore).1 := by
  have hslash : emittedSlash P s st =
      (s.applyTimeoutEvidence P evidence networkId st.daaScore).2.toOption := by
    rw [emittedSlash, hop]
  unfold PalwDaStateV1.applyTimeoutEvidence at hslash ⊢
  cases hcheck : s.checkTimeoutEvidence P evidence networkId st.daaScore with
  | error e => exact .idle rfl rfl
  | ok c =>
    obtain ⟨hc, hopen, hprovider, htime⟩ := checkTimeoutEvidence_eq_ok hcheck
    obtain ⟨o, ho, -⟩ := hs _ c hc hopen
    rw [hcheck] at hslash
    simp only [ho] at hslash ⊢
    split at hslash
    · exact .idle rfl rfl
    · next t hfinish =>
      cases finishSnapshotBoundedMutation_eq_ok hfinish
      rw [← hprovider] at hslash
      exact .resolved evidence.challengeId c o _ _ hc hopen ho
        (.timedOut evidence networkId hop rfl htime hslash) rfl rfl

theorem daStep_effect (hs : Linked s) : DaEffect P s st (daStep P s st) := by
  unfold daStep
  cases hop : st.op with
  | beginChildBlock => exact .idle rfl rfl
  | recordBlockSlash providerBond =>
    refine .orKeep fun t ht => ?_
    obtain ⟨hrows, hchallenges⟩ := recordBlockSlash_eq_ok ht
    exact .idle hrows hchallenges
  | registerLeafObligations leaf commitment beacon policy =>
    refine .orKeep fun t ht => ?_
    obtain ⟨rows, hnew, rfl⟩ := registerLeafObligations_eq_ok ht
    exact .registered leaf commitment beacon policy rows hop hnew rfl rfl
  | applyChallenge challenge record networkId epoch policy =>
    refine .orKeep fun t ht => ?_
    obtain ⟨o, ho, hpending, htime, hnew, rfl⟩ := applyChallenge_eq_ok ht
    exact .opened challenge o ho hpending htime hnew rfl rfl
  | applyResponse response record networkId =>
    refine .orKeep fun t ht => ?_
    obtain ⟨c, o, hc, hopen, htime, ho, rfl⟩ := applyResponse_eq_ok ht
    exact .resolved response.challengeId c o _ _ hc hopen ho
      (.answered response record networkId hop rfl htime) rfl rfl
  | applyTimeoutEvidence evidence networkId => exact .timeout hs hop
  | removeCertifiedBatch batchId => exact .compacted _ (by rw [hop]; rfl) rfl rfl
  | retainReferenceableBatches referenceable epoch =>
    exact .compacted referenceable (by rw [hop]; rfl) rfl rfl

theorem Resolution.not_open {challengeStatus : PalwDaChallengeStatusV1}
    {obligationStatus : PalwDaObligationStatusV1}
    (h : Resolution P s st id c challengeStatus obligationStatus) : challengeStatus ≠ .open := by
  cases h <;> simp

theorem NewRows.lookup_insertAll (h : NewRows s leaf rows) (ho : s.obligations.lookup id = some o) :
    (s.obligations.insertAll (·.obligationId) rows).lookup id = some o := by
  rw [lookup_insertAll_of_ne, ho]
  rintro row hrow rfl
  rw [(h row hrow).1] at ho
  cases ho

theorem Linked.effect (hs : Linked s) (h : DaEffect P s st s') : Linked s' := by
  intro id c hc hopen
  cases h with
  | idle hrows hchallenges =>
    rw [hchallenges] at hc
    rw [hrows]
    exact hs id c hc hopen
  | registered leaf commitment beacon policy rows hop hnew hrows hchallenges =>
    rw [hchallenges] at hc
    obtain ⟨o, ho, hrest⟩ := hs id c hc hopen
    exact ⟨o, by rw [hrows, hnew.lookup_insertAll ho], hrest⟩
  | opened challenge o ho hpending htime hnew hrows hchallenges =>
    rw [hchallenges, lookup_insert_eq] at hc
    rw [hrows]
    split at hc
    · next hid =>
      cases Option.some.inj hc
      exact ⟨_, Finmap.lookup_insert _, by rw [hid], rfl⟩
    · obtain ⟨o', ho', hstatus, hprovider⟩ := hs id c hc hopen
      -- the challenged row was pending, so it is not the row of another open challenge
      have hne : c.challenge.obligationId ≠ challenge.obligationId := by
        intro heq
        rw [heq, ho, Option.some.injEq] at ho'
        rw [← ho', hpending] at hstatus
        cases hstatus
      exact ⟨o', by rw [lookup_insert_eq, if_neg hne, ho'], hstatus, hprovider⟩
  | resolved id' c' o challengeStatus obligationStatus hc' hopen' ho hresolution hrows
      hchallenges =>
    rw [hchallenges, lookup_insert_eq] at hc
    split at hc
    · cases Option.some.inj hc
      exact absurd hopen hresolution.not_open
    · next hid =>
      obtain ⟨o₁, ho₁, hstatus₁, hprovider₁⟩ := hs id c hc hopen
      obtain ⟨o₂, ho₂, hstatus₂, -⟩ := hs id' c' hc' hopen'
      have hne : c.challenge.obligationId ≠ c'.challenge.obligationId := by
        intro heq
        rw [heq, ho₂, Option.some.injEq] at ho₁
        rw [← ho₁, hstatus₂] at hstatus₁
        exact hid (PalwDaObligationStatusV1.challenged.inj hstatus₁).symm
      exact ⟨o₁, by rw [hrows, lookup_insert_eq, if_neg hne, ho₁], hstatus₁, hprovider₁⟩
  | compacted keep hop hrows hchallenges =>
    rw [hchallenges, lookup_filterRows, filter_eq_some_iff] at hc
    obtain ⟨o, ho, hrest⟩ := hs id c hc.1 hopen
    obtain ⟨o', ho'⟩ := isSome_iff_exists.mp hc.2
    rw [hrows, lookup_filterRows, filter_eq_some_iff, ho, Option.some.injEq] at ho'
    obtain ⟨rfl, hkeep⟩ := ho'
    exact ⟨o, by rw [hrows, lookup_filterRows, ho, filter_some, if_pos hkeep], hrest⟩

theorem Linked.foldl (hs : Linked s) (steps : List DaStep) : Linked (steps.foldl (daStep P) s) := by
  induction steps generalizing s with
  | nil => exact hs
  | cons st steps ih => exact ih (hs.effect (daStep_effect hs))

theorem linked_daRun (steps : List DaStep) : Linked (daRun P steps) := linked_initial.foldl steps

end Misaka.Palw
