import Misaka.Palw.OpenChallenge

/-!
# Collateral and retention

The output of a provider bond is locked until the registry releases it and `exit_allowed` sees no
obligation of the bond within its retention, challenged or timed out. The gate reads the obligations
that are still in the state.
-/

namespace Misaka.Palw

open Misaka.Core Dns List Table

structure ProviderBondSpendFilter where
  providerBondView : ProviderBondView
  daState : PalwDaStateV1
  epochLengthDaa : ℕ
  daaScore : ℕ

def ProviderBondSpendFilter.locks (f : ProviderBondSpendFilter) (outpoint : TransactionOutpoint) :
    Bool :=
  (f.providerBondView.lookup outpoint).any fun record =>
    !isProviderBondReleasableAt record f.daaScore f.epochLengthDaa ||
      !f.daState.exitAllowed outpoint f.daaScore

variable (P : PalwPrimitives) {steps : List DaStep}

structure ProviderUnbondAuthFilter where
  providerBondView : ProviderBondView
  daState : PalwDaStateV1
  networkId : ℕ
  daaScore : ℕ

def ProviderUnbondAuthFilter.unauthorized (f : ProviderUnbondAuthFilter) (tx : Transaction) :
    Option TransactionOutpoint :=
  (decodeProviderUnbondRequest P tx).bind fun req =>
    if palwProviderUnbondRequestAuthorized P req f.providerBondView f.networkId f.daaScore &&
        f.daState.exitAllowed req.bondOutpoint f.daaScore then none
    else some req.bondOutpoint

def lastRow (s : PalwDaStateV1) : List DaStep → Hash64 → Option PalwDaObligationV1
  | [], id => s.obligations.lookup id
  | st :: steps, id =>
    if ((daStep P s st).obligations.lookup id).isSome then lastRow (daStep P s st) steps id
    else s.obligations.lookup id

variable {P} {s s' : PalwDaStateV1} {st : DaStep} {id : Hash64} {o : PalwDaObligationV1}
  {bond : TransactionOutpoint} {d : ℕ}

theorem DaEffect.row (h : DaEffect P s st s') (ho : s.obligations.lookup id = some o) :
    (∃ o', s'.obligations.lookup id = some o' ∧ o'.providerBond = o.providerBond ∧
      o'.retentionUntilDaaScore = o.retentionUntilDaaScore) ∨
    s'.obligations.lookup id = none ∧ ∃ keep, st.op.keeps s = some keep ∧ o.batchId ∉ keep := by
  cases h with
  | idle hrows hchallenges => exact .inl ⟨o, by rw [hrows, ho], rfl, rfl⟩
  | registered leaf commitment beacon policy rows hop hnew hrows hchallenges =>
    exact .inl ⟨o, by rw [hrows, hnew.lookup_insertAll ho], rfl, rfl⟩
  | opened _ row hrow _ _ _ hrows | resolved _ _ row _ _ _ _ hrow _ hrows =>
    rw [hrows, lookup_insert_eq]
    split
    · next hid =>
      rw [← hid, ho, Option.some.injEq] at hrow
      exact .inl ⟨_, rfl, by rw [hrow], by rw [hrow]⟩
    · exact .inl ⟨o, ho, rfl, rfl⟩
  | compacted keep hop hrows hchallenges =>
    rw [hrows, lookup_filterRows, ho]
    by_cases hbatch : o.batchId ∈ keep
    · exact .inl ⟨o, by simp [hbatch], rfl, rfl⟩
    · exact .inr ⟨by simp [hbatch], keep, hop, hbatch⟩

def DaStep.Names (st : DaStep) (bond : TransactionOutpoint) : Prop :=
  ∃ leaf commitment beacon policy, st.op = .registerLeafObligations leaf commitment beacon policy ∧
    (bond = leaf.providerABond ∨ bond = leaf.providerBBond)

/-- A row past its retention and settled stays as it is, and no such row appears, in a step that
does not name its provider. -/
theorem DaEffect.row_of_settled (h : DaEffect P s st s') (hs : Linked s)
    (hsettled : ∀ id o, s.obligations.lookup id = some o → o.providerBond = bond →
      o.retentionUntilDaaScore < st.daaScore ∧ o.status.exitable)
    (hname : ¬ st.Names bond) (ho : s'.obligations.lookup id = some o)
    (hbond : o.providerBond = bond) : s.obligations.lookup id = some o := by
  cases h with
  | idle hrows hchallenges => rwa [hrows] at ho
  | registered leaf commitment beacon policy rows hop hnew hrows hchallenges =>
    rw [hrows] at ho
    rcases lookup_insertAll ho with ⟨hmem, -⟩ | hold
    · have hprovider := (hnew o hmem).2.2
      rw [hbond] at hprovider
      exact absurd ⟨leaf, commitment, beacon, policy, hop, hprovider⟩ hname
    · exact hold
  | opened challenge row hrow hpending htime hnew hrows hchallenges =>
    rw [hrows, lookup_insert_eq] at ho
    split at ho
    · cases Option.some.inj ho
      -- past its retention an obligation takes no challenge
      exact absurd htime (not_le.mpr (hsettled _ row hrow hbond).1)
    · exact ho
  | resolved id' c row challengeStatus obligationStatus hc hopen hrow hresolution hrows
      hchallenges =>
    rw [hrows, lookup_insert_eq] at ho
    split at ho
    · cases Option.some.inj ho
      -- the obligation of an open challenge is challenged
      obtain ⟨row', hrow', hstatus, -⟩ := hs id' c hc hopen
      cases Option.some.inj (hrow.symm.trans hrow')
      have hexit := (hsettled _ row hrow hbond).2
      rw [hstatus] at hexit
      cases hexit
    · exact ho
  | compacted keep hop hrows hchallenges =>
    rw [hrows, lookup_filterRows, Option.filter_eq_some_iff] at ho
    exact ho.1

/-- Every obligation of a bond is past its retention at `d` and neither challenged nor timed out. -/
def Settled (s : PalwDaStateV1) (bond : TransactionOutpoint) (d : ℕ) : Prop :=
  ∀ id o, s.obligations.lookup id = some o → o.providerBond = bond →
    o.retentionUntilDaaScore < d ∧ o.status.exitable

theorem exitAllowed_iff_settled : s.exitAllowed bond d ↔ Settled s bond d := by
  unfold PalwDaStateV1.exitAllowed
  rw [decide_eq_true_iff]
  constructor
  · intro h id o ho
    exact h o (mem_values.mpr ⟨id, ho⟩)
  · intro h o ho
    obtain ⟨id, hid⟩ := mem_values.mp ho
    exact h id o hid

theorem Settled.daStep (h : Settled s bond d) (hs : Linked s) (hdaa : d ≤ st.daaScore)
    (hname : ¬ st.Names bond) : Settled (daStep P s st) bond d := by
  intro id o ho hbond
  refine h id o ?_ hbond
  refine (daStep_effect hs).row_of_settled hs (fun id o ho hbond => ?_) hname ho hbond
  exact ⟨lt_of_lt_of_le (h id o ho hbond).1 hdaa, (h id o ho hbond).2⟩

theorem Settled.foldl (h : Settled s bond d) (hs : Linked s) (hdaa : ∀ st ∈ steps, d ≤ st.daaScore)
    (hname : ∀ st ∈ steps, ¬ st.Names bond) :
    Settled (steps.foldl (Palw.daStep P) s) bond d := by
  induction steps generalizing s with
  | nil => exact h
  | cons st steps ih =>
    rw [forall_mem_cons] at hdaa hname
    exact ih (h.daStep hs hdaa.1 hname.1) (hs.effect (daStep_effect hs)) hdaa.2 hname.2

theorem Settled.lastRow (h : Settled s bond d) (hs : Linked s)
    (hdaa : ∀ st ∈ steps, d ≤ st.daaScore) (hname : ∀ st ∈ steps, ¬ st.Names bond)
    (ho : s.obligations.lookup id = some o) (hbond : o.providerBond = bond) :
    ∃ o', lastRow P s steps id = some o' ∧ o'.status.exitable := by
  induction steps generalizing s o with
  | nil => exact ⟨o, ho, (h id o ho hbond).2⟩
  | cons st steps ih =>
    rw [forall_mem_cons] at hdaa hname
    have heffect : DaEffect P s st (Palw.daStep P s st) := daStep_effect hs
    have hlinked := hs.effect heffect
    rw [Palw.lastRow]
    rcases heffect.row ho with ⟨o', ho', hbond', -⟩ | ⟨hnone, -⟩
    · rw [if_pos (by rw [ho']; rfl)]
      exact ih (h.daStep hs hdaa.1 hname.1) hlinked hdaa.2 hname.2 ho' (hbond'.trans hbond)
    · rw [if_neg (by simp [hnone])]
      exact ⟨o, ho, (h id o ho hbond).2⟩

/-- If a step compacts, it drops an obligation of the bond only past its retention and settled. -/
def DropsSettled (bond : TransactionOutpoint) (s : PalwDaStateV1) (st : DaStep) : Prop :=
  ∀ keep, st.op.keeps s = some keep → ∀ id o, s.obligations.lookup id = some o →
    o.providerBond = bond → o.batchId ∉ keep →
      o.retentionUntilDaaScore ≤ st.daaScore ∧ o.status.exitable

/-- From any state of the run to the spend, an obligation of the bond is dropped settled or is still
there, settled, at the spend. -/
theorem lastRow_before_spend {mid own : List DaStep} (hs : Linked s)
    (hmid : StepsMeet (daStep P) (DropsSettled bond) s mid) (hpast : ∀ st ∈ mid, st.daaScore ≤ d)
    (hend : Settled (mid.foldl (daStep P) s) bond d) (hdaa : ∀ st ∈ own, d ≤ st.daaScore)
    (hname : ∀ st ∈ own, ¬ st.Names bond) (ho : s.obligations.lookup id = some o)
    (hbond : o.providerBond = bond) :
    o.retentionUntilDaaScore ≤ d ∧
      ∃ o', lastRow P s (mid ++ own) id = some o' ∧ o'.status.exitable := by
  induction mid generalizing s o with
  | nil => exact ⟨(hend id o ho hbond).1.le, Settled.lastRow hend hs hdaa hname ho hbond⟩
  | cons st mid ih =>
    rw [forall_mem_cons] at hpast
    rw [cons_append, lastRow]
    rcases (daStep_effect (P := P) hs).row ho with
      ⟨o', ho', hbond', hret⟩ | ⟨hnone, keep, hop, hkeep⟩
    · rw [if_pos (by rw [ho']; rfl), ← hret]
      exact ih (hs.effect (daStep_effect hs)) hmid.2 hpast.2 hend ho' (hbond'.trans hbond)
    · rw [if_neg (by simp [hnone])]
      obtain ⟨hretention, hexit⟩ := hmid.1 keep hop id o ho hbond hkeep
      exact ⟨hretention.trans hpast.1, o, ho, hexit⟩

/-- At a spend of a known provider bond every obligation of the bond that is ever in the state has a
retention end at or below the spend and leaves the run neither challenged nor timed out. The steps
`own` are those of the accepting block and of later ones. -/
theorem collateral_waits {filter : ProviderBondSpendFilter} {record : PalwProviderBondRecord}
    {own : List DaStep} (hknown : filter.providerBondView.lookup bond = some record)
    (hspend : filter.locks bond = false) (hstate : filter.daState = daRun P steps)
    (hpast : ∀ st ∈ steps, st.daaScore ≤ filter.daaScore)
    (hown : ∀ st ∈ own, filter.daaScore ≤ st.daaScore)
    (hdrops : StepsMeet (daStep P) (DropsSettled bond) .initial steps)
    (hname : ∀ st ∈ own, ¬ st.Names bond) :
    ∀ before after, steps ++ own = before ++ after → ∀ id o,
      (daRun P before).obligations.lookup id = some o → o.providerBond = bond →
        o.retentionUntilDaaScore ≤ filter.daaScore ∧
          ∃ o', lastRow P (daRun P before) after id = some o' ∧ o'.status.exitable := by
  have hexit : Settled (daRun P steps) bond filter.daaScore := by
    rw [← hstate, ← exitAllowed_iff_settled]
    simp only [ProviderBondSpendFilter.locks, hknown, Option.any_some, Bool.or_eq_false_iff,
      Bool.not_eq_false'] at hspend
    exact hspend.2
  intro before after hsplit id o ho hbond
  rcases append_eq_append_iff.mp hsplit with ⟨mid, rfl, rfl⟩ | ⟨mid, rfl, rfl⟩
  · -- the obligation is seen after the spend
    rw [forall_mem_append] at hown hname
    have hsettled : Settled (daRun P (steps ++ mid)) bond filter.daaScore := by
      rw [daRun, foldl_append]
      exact hexit.foldl (linked_daRun steps) hown.1 hname.1
    exact ⟨(hsettled id o ho hbond).1.le,
      hsettled.lastRow (linked_daRun _) hown.2 hname.2 ho hbond⟩
  · -- the obligation is seen before the spend
    have hmid := (stepsMeet_append.mp hdrops).2
    rw [forall_mem_append] at hpast
    rw [daRun, foldl_append] at hexit
    exact lastRow_before_spend (linked_daRun before) hmid hpast.2 hexit hown hname ho hbond

/-- A provider that asked to leave at DAA score 160, past its release and the retention of its
obligation. -/
def sampleExit : ProviderBondSpendFilter where
  providerBondView := (∅ : ProviderBondView).insert ⟨2, 0⟩
    { sampleProviderRecord 2 10 with unbondRequestDaaScore := some 160 }
  daState := daRun samplePalwPrimitives (sampleOpening.take 1)
  epochLengthDaa := 100
  daaScore := 2151

theorem collateral_waits_exit :
    sampleExit.locks ⟨2, 0⟩ = false ∧
    ∀ before after, sampleOpening.take 1 ++ [] = before ++ after → ∀ id o,
      (daRun samplePalwPrimitives before).obligations.lookup id = some o →
      o.providerBond = ⟨2, 0⟩ →
        o.retentionUntilDaaScore ≤ sampleExit.daaScore ∧
          ∃ o', lastRow samplePalwPrimitives (daRun samplePalwPrimitives before) after id =
            some o' ∧ o'.status.exitable := by
  have hspend : sampleExit.locks ⟨2, 0⟩ = false := by decide +kernel
  have hstate : sampleExit.daState = daRun samplePalwPrimitives (sampleOpening.take 1) := by
    rw [sampleExit]
  have hknown : sampleExit.providerBondView.lookup ⟨2, 0⟩ =
      some { sampleProviderRecord 2 10 with unbondRequestDaaScore := some 160 } :=
    Finmap.lookup_insert _
  refine ⟨hspend, collateral_waits hknown hspend hstate ?_ (by simp) ⟨?_, trivial⟩ (by simp)⟩
  · simp [sampleOpening, sampleExit]
  · intro keep hkeep
    cases hkeep

def sampleUnbondTx : Transaction := sampleOverlayTx 13 (.fromByte 0x37) [2, 2]

/-- The obligation of provider 2 is challenged and retained until DAA score 2150. Its batch expires
at DAA score 1000 and takes the obligation along, the owner's request to leave is authorized at DAA
score 1010, and at DAA score 1610 the bond is no longer locked. -/
theorem collateral_released_early :
    ∃ node o parent tip, sampleRun sampleChallengedChain = .ok node ∧
      node.da.obligations.lookup sampleObligation2 = some o ∧ o.providerBond = ⟨2, 0⟩ ∧
      o.retentionUntilDaaScore = 2150 ∧ o.status = .challenged 61845 ∧
      advanceNode samplePalwPrimitives sampleProcessor node (sampleBlock 1000 []) = .ok parent ∧
      (⟨parent.providers, parent.da, 1, 1010⟩ : ProviderUnbondAuthFilter).unauthorized
        samplePalwPrimitives sampleUnbondTx = none ∧
      advanceNode samplePalwPrimitives sampleProcessor parent (sampleBlock 1010 [sampleUnbondTx]) =
        .ok tip ∧
      (tip.providers.lookup ⟨2, 0⟩).isSome ∧
      (⟨tip.providers, tip.da, 100, 1610⟩ : ProviderBondSpendFilter).locks ⟨2, 0⟩ = false := by
  simp only [exists_and_left]
  decide +kernel

end Misaka.Palw
