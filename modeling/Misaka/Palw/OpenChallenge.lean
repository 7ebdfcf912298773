import Misaka.Palw.DaChain

/-!
# Open challenges

An open challenge is resolved by a response within its deadline or by timeout evidence past it. Two
operations delete rows without looking at their status: the removal of a certified batch and the
compaction to the batches of the lifecycle view.
-/

namespace Misaka.Palw

open Misaka.Core Dns List Table

structure IsOpen (s : PalwDaStateV1) (id : Hash64) (c : PalwDaChallengeStateV1) : Prop where
  row : s.challenges.lookup id = some c
  status : c.status = .open
  obligation : ∃ o, s.obligations.lookup c.challenge.obligationId = some o ∧
    o.status = .challenged id ∧ o.providerBond = c.providerBond

/-- A step resolves an open challenge: a response within the deadline marks it answered, or timeout
evidence past the deadline marks it timed out and slashes its provider. -/
def Resolves (P : PalwPrimitives) (s : PalwDaStateV1) (st : DaStep) (id : Hash64)
    (c : PalwDaChallengeStateV1) : Prop :=
  ∃ challengeStatus obligationStatus, Resolution P s st id c challengeStatus obligationStatus ∧
    (daStep P s st).challenges.lookup id = some { c with status := challengeStatus }

def KeepsOpen (s : PalwDaStateV1) (st : DaStep) : Prop :=
  ∀ keep, st.op.keeps s = some keep → ∀ id c o, s.challenges.lookup id = some c →
    c.status = .open → s.obligations.lookup c.challenge.obligationId = some o → o.batchId ∈ keep

variable {P : PalwPrimitives} {s : PalwDaStateV1} {st : DaStep} {id : Hash64}
  {c : PalwDaChallengeStateV1}

theorem IsOpen.of_linked (hs : Linked s) (hc : s.challenges.lookup id = some c)
    (hopen : c.status = .open) : IsOpen s id c :=
  ⟨hc, hopen, hs id c hc hopen⟩

theorem IsOpen.daStep (hs : Linked s) (h : IsOpen s id c) (hkeep : KeepsOpen s st) :
    IsOpen (daStep P s st) id c ∨ Resolves P s st id c := by
  have heffect : DaEffect P s st (Palw.daStep P s st) := daStep_effect hs
  have hlinked := hs.effect heffect
  cases heffect with
  | idle _ hchallenges | registered _ _ _ _ _ _ _ _ hchallenges =>
    exact .inl (.of_linked hlinked (by rw [hchallenges, h.row]) h.status)
  | opened challenge o ho hpending htime hnew hrows hchallenges =>
    have hne : id ≠ challenge.challengeId P := by
      rintro rfl
      rw [h.row] at hnew
      cases hnew
    refine .inl (.of_linked hlinked ?_ h.status)
    rw [hchallenges, lookup_insert_eq, if_neg hne, h.row]
  | resolved id' c' o challengeStatus obligationStatus hc' hopen' ho hresolution hrows
      hchallenges =>
    by_cases hid : id = id'
    · subst hid
      obtain rfl : c = c' := Option.some.inj (h.row.symm.trans hc')
      refine .inr ⟨challengeStatus, obligationStatus, hresolution, ?_⟩
      rw [hchallenges, Finmap.lookup_insert]
    · refine .inl (.of_linked hlinked ?_ h.status)
      rw [hchallenges, lookup_insert_eq, if_neg hid, h.row]
  | compacted keep hop hrows hchallenges =>
    obtain ⟨o, ho, -⟩ := h.obligation
    have hbatch := hkeep keep hop id c o h.row h.status ho
    refine .inl (.of_linked hlinked ?_ h.status)
    have hrow : (Palw.daStep P s st).obligations.lookup c.challenge.obligationId = some o := by
      rw [hrows, lookup_filterRows, ho]
      simp [hbatch]
    rw [hchallenges, lookup_filterRows, h.row]
    simp [hrow]

/-- In a run from the default state, once a challenge is open, and as long as every compaction keeps
the batches of open challenges, it stays open with its obligation until a step resolves it. -/
theorem openChallenge_lasts {pre post : List DaStep} {id : Hash64} {c : PalwDaChallengeStateV1}
    (hc : (daRun P pre).challenges.lookup id = some c) (hopen : c.status = .open)
    (hmeet : StepsMeet (daStep P) KeepsOpen (daRun P pre) post) :
    IsOpen (daRun P (pre ++ post)) id c ∨
      ∃ before st after, post = before ++ st :: after ∧ IsOpen (daRun P (pre ++ before)) id c ∧
        Resolves P (daRun P (pre ++ before)) st id c := by
  have hstep : ∀ s st, Linked s ∧ IsOpen s id c → KeepsOpen s st →
      (Linked (daStep P s st) ∧ IsOpen (daStep P s st) id c) ∨ Resolves P s st id c := by
    rintro s st ⟨hs, h⟩ hkeep
    rcases h.daStep hs hkeep with hkept | hresolved
    · exact .inl ⟨hs.effect (daStep_effect hs), hkept⟩
    · exact .inr hresolved
  have hlinked := linked_daRun (P := P) pre
  rw [daRun, foldl_append]
  rcases hmeet.until hstep ⟨hlinked, .of_linked hlinked hc hopen⟩ with
    hend | ⟨before, st, after, hpost, hI, hE⟩
  · exact .inl hend.2
  · refine .inr ⟨before, st, after, hpost, ?_, ?_⟩
    · rw [daRun, foldl_append]
      exact hI.2
    · rwa [daRun, foldl_append]

def sampleOpening : List DaStep :=
  [⟨150, .registerLeafObligations (sampleLeaf sampleBatchId 1 2 3)
      (sampleLeaf sampleBatchId 1 2 3).commitment ⟨0, 1, 1, 10, 150⟩ .STRICT_TESTNET⟩,
    ⟨899, .applyChallenge (sampleChallenge sampleObligation2 8 899 1099 1)
      (sampleProviderRecord 1 10) 1 8 .STRICT_TESTNET⟩]

def sampleOpenChallenge : PalwDaChallengeStateV1 :=
  ⟨sampleChallenge sampleObligation2 8 899 1099 1, ⟨2, 0⟩, 1, 0, .open⟩

def sampleTimeout : List DaStep := [⟨1100, .applyTimeoutEvidence ⟨1, 1, 61845, ⟨2, 0⟩⟩ 1⟩]

theorem openChallenge_lasts_timeout :
    (daRun samplePalwPrimitives sampleOpening).challenges.lookup 61845 = some sampleOpenChallenge ∧
    (IsOpen (daRun samplePalwPrimitives (sampleOpening ++ sampleTimeout)) 61845
        sampleOpenChallenge ∨
      ∃ before st after, sampleTimeout = before ++ st :: after ∧
        IsOpen (daRun samplePalwPrimitives (sampleOpening ++ before)) 61845 sampleOpenChallenge ∧
        Resolves samplePalwPrimitives (daRun samplePalwPrimitives (sampleOpening ++ before)) st
          61845 sampleOpenChallenge) := by
  have hrow : (daRun samplePalwPrimitives sampleOpening).challenges.lookup 61845 =
      some sampleOpenChallenge := by decide +kernel
  refine ⟨hrow, openChallenge_lasts hrow rfl ⟨?_, trivial⟩⟩
  intro keep hkeep
  cases hkeep

/-- The chain of the sample up to the challenge at DAA score 899, epoch 8. The batch was registered
in epoch 1, so its registration, lead and audit budget ends with epoch 9. -/
def sampleChallengedChain : List PalwChainBlock :=
  [sampleBlock 10 [sampleProviderBondTx 1, sampleProviderBondTx 2, sampleProviderBondTx 3],
    sampleBlock 100 [sampleManifestTx], sampleBlock 150 [sampleLeafChunkTx],
    sampleBlock 899 [sampleChallengeTx sampleObligation2 8 899 1099]]

/-- The challenge is open with a deadline at DAA score 1099; the empty block at DAA score 1000
starts epoch 10 and drops it with its obligation, and slashes nobody. -/
theorem openChallenge_expires_with_batch :
    ∃ node node', sampleRun sampleChallengedChain = .ok node ∧
      advanceNode samplePalwPrimitives sampleProcessor node (sampleBlock 1000 []) = .ok node' ∧
      IsOpen node.da 61845 sampleOpenChallenge ∧
      1000 ≤ sampleOpenChallenge.challenge.responseDeadlineDaaScore ∧
      node'.da.challenges.lookup 61845 = none ∧
      node'.da.obligations.lookup sampleObligation2 = none ∧
      node'.da.blockSlashedProviders = [] := by
  obtain ⟨node, hnode, hrow, node', hnode', hgone⟩ : ∃ node,
      sampleRun sampleChallengedChain = .ok node ∧
      node.da.challenges.lookup 61845 = some sampleOpenChallenge ∧ ∃ node',
      advanceNode samplePalwPrimitives sampleProcessor node (sampleBlock 1000 []) = .ok node' ∧
      node'.da.challenges.lookup 61845 = none ∧
      node'.da.obligations.lookup sampleObligation2 = none ∧
      node'.da.blockSlashedProviders = [] := by
    decide +kernel
  obtain ⟨steps, hsteps⟩ := exists_daRun_of_chain hnode
  have hlinked : Linked node.da := by
    rw [hsteps]
    exact linked_daRun steps
  exact ⟨node, node', hnode, hnode', .of_linked hlinked hrow rfl, by decide, hgone⟩

end Misaka.Palw
