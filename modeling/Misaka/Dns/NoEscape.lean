import Misaka.Dns.Dormancy
import Misaka.Dns.Slashing

/-!
# Slashable while the evidence is fresh

A bond that was active at the targets of two equivocating attestations stays slashable and locked
while the evidence is fresh, whatever unbond requests it makes. Dormancy breaks this: an eviction is
stamped with the anchor of its round, which may lie before an attestation of the bond.
-/

namespace Misaka.Dns

open Misaka.Core

inductive BondStep (d : ℕ) : StakeBondRecord → StakeBondRecord → Prop
  /-- An accepted unbond request; the row must be unstamped. -/
  | unbond {r : StakeBondRecord} (h : r.unbondRequestDaaScore = none) :
      BondStep d r (r.setStamp .unbond (some d) d)
  /-- Accepted slashing evidence; the row must be unstamped. -/
  | slash {r : StakeBondRecord} (h : r.slashedAtDaaScore = none) :
      BondStep d r (r.setStamp .slash (some d) d)
  /-- The cached status is refreshed. -/
  | refresh {r : StakeBondRecord} : BondStep d r (r.withStatusAt d)
  /-- The dormancy pass raises the last attested epoch. -/
  | touch {r : StakeBondRecord} (att : TransactionOutpoint → List ℕ) (epoch : ℕ) :
      BondStep d r (r.touch att epoch)
  /-- The dormancy pass evicts an active bond, stamped with the anchor of the round. -/
  | evict {r : StakeBondRecord} {anchorDaa : ℕ} (epoch : ℕ)
      (hactive : effectiveBondStatus r d = .active) (hanchor : anchorDaa ≤ d) :
      BondStep d r (r.evict anchorDaa epoch)
  /-- The dormancy pass looks at a bond for revival. -/
  | revive {r : StakeBondRecord} (buriedEpoch revivalDelay : ℕ) :
      BondStep d r (r.revive d buriedEpoch revivalDelay)

/-- The row is `r` once DAA score `t` has passed and `r'` at a later score. -/
inductive Evolves (t : ℕ) (r : StakeBondRecord) : ℕ → StakeBondRecord → Prop
  | refl : Evolves t r t r
  | wait {d d' : ℕ} {r' : StakeBondRecord} (h : Evolves t r d r') (hd : d ≤ d') : Evolves t r d' r'
  | step {d : ℕ} {r' r'' : StakeBondRecord} (h : Evolves t r d r') (hd : t < d)
      (hstep : BondStep d r' r'') : Evolves t r d r''

variable {r r' : StakeBondRecord} {t : ℕ}

theorem BondStep.frame {d : ℕ} (h : BondStep d r r') :
    r'.activationDaaScore = r.activationDaaScore ∧
      r'.unbondingPeriodBlocks = r.unbondingPeriodBlocks ∧
      (r'.unbondRequestDaaScore = r.unbondRequestDaaScore ∨
        r'.unbondRequestDaaScore = some d) := by
  cases h with
  | unbond h => exact ⟨rfl, rfl, .inr rfl⟩
  | slash | refresh | touch | evict => exact ⟨rfl, rfl, .inl rfl⟩
  | revive buriedEpoch revivalDelay =>
    unfold StakeBondRecord.revive
    split
    · exact ⟨rfl, rfl, .inl rfl⟩
    · split
      · exact ⟨rfl, rfl, .inl rfl⟩
      · split <;> exact ⟨rfl, rfl, .inl rfl⟩

/-- Over a stretch of its life a bond keeps its activation and lock, and an unbond stamp that
appears is one of that stretch. -/
theorem Evolves.frame {d : ℕ} (h : Evolves t r d r') :
    t ≤ d ∧ r'.activationDaaScore = r.activationDaaScore ∧
      r'.unbondingPeriodBlocks = r.unbondingPeriodBlocks ∧
      (r'.unbondRequestDaaScore = r.unbondRequestDaaScore ∨
        ∃ u, r'.unbondRequestDaaScore = some u ∧ t < u ∧ u ≤ d) := by
  induction h with
  | refl => exact ⟨le_rfl, rfl, rfl, .inl rfl⟩
  | wait _ hd ih =>
    obtain ⟨hle, hact, hperiod, hunbond⟩ := ih
    refine ⟨hle.trans hd, hact, hperiod, hunbond.imp_right ?_⟩
    rintro ⟨u, hu, htu, hud⟩
    exact ⟨u, hu, htu, hud.trans hd⟩
  | step _ hd hstep ih =>
    obtain ⟨hle, hact, hperiod, hunbond⟩ := ih
    obtain ⟨hact', hperiod', hunbond'⟩ := hstep.frame
    refine ⟨hle, hact'.trans hact, hperiod'.trans hperiod, ?_⟩
    rcases hunbond' with hsame | hnew
    · rwa [hsame]
    · exact .inr ⟨_, hnew, hd, le_rfl⟩

theorem unbondRequest_eq_none_of_active (hpast : ∀ u, r.unbondRequestDaaScore = some u → u ≤ t)
    (hactive : effectiveBondStatus r t = .active) : r.unbondRequestDaaScore = none := by
  cases hu : r.unbondRequestDaaScore with
  | none => rfl
  | some u =>
    have hnot := (effectiveBondStatus_eq_active.mp hactive).2.1
    rw [hu] at hnot
    exact absurd (hpast u hu) (by simpa using hnot)

theorem Evolves.unbondRequest_le {d : ℕ} (h : Evolves t r d r')
    (hpast : ∀ u, r.unbondRequestDaaScore = some u → u ≤ t) {u : ℕ}
    (hu : r'.unbondRequestDaaScore = some u) : u ≤ d := by
  obtain ⟨hle, -, -, hsame | ⟨u', hu', -, hud⟩⟩ := h.frame
  · exact (hpast u (hsame.symm.trans hu)).trans hle
  · obtain rfl := Option.some.inj (hu'.symm.trans hu)
    exact hud

theorem isSlashable_iff_of_not_slashed (hslash : effectiveBondStatus r t ≠ .slashed)
    (hact : r.activationDaaScore ≤ t) :
    (effectiveBondStatus r t).isSlashable = true ↔ effectiveBondStatus r t ≠ .dormant := by
  unfold effectiveBondStatus at *
  split_ifs at * <;> simp_all [BondStatus.isSlashable]

theorem not_slashed_of_le {d : ℕ} (htd : t ≤ d) (hslash : effectiveBondStatus r d ≠ .slashed) :
    effectiveBondStatus r t ≠ .slashed := by
  have hiff {n : ℕ} :
      effectiveBondStatus r n = .slashed ↔ r.slashedAtDaaScore.any (· ≤ n) = true := by
    unfold effectiveBondStatus
    split_ifs <;> simp_all
  rw [Ne, hiff] at hslash ⊢
  cases hs : r.slashedAtDaaScore with
  | none => simp
  | some n =>
    simp only [hs, Option.any_some, decide_eq_true_eq] at hslash ⊢
    omega

theorem unbondRequest_of_unbonding {d : ℕ} (h : effectiveBondStatus r d = .unbonding) :
    ∃ u, r.unbondRequestDaaScore = some u := by
  cases hu : r.unbondRequestDaaScore with
  | some u => exact ⟨u, rfl⟩
  | none =>
    rw [effectiveBondStatus, hu, Option.any_none, if_neg Bool.false_ne_true] at h
    split_ifs at h

/-- A bond that asked to leave after `t` is locked as long as its lock has not passed since `t`;
the release score saturates. -/
theorem isReleasable_eq_false_iff {d : ℕ} (hafter : ∀ u, r.unbondRequestDaaScore = some u → t < u)
    (hlock : d ≤ t + r.unbondingPeriodBlocks) (hdaa : d ≤ U64_MAX) :
    isReleasable r d = false ↔ (effectiveBondStatus r d = .unbonding → d < U64_MAX) := by
  by_cases hstatus : effectiveBondStatus r d = .unbonding
  · obtain ⟨u, hu⟩ := unbondRequest_of_unbonding hstatus
    have hlt := hafter u hu
    have hrelease : min (u + r.unbondingPeriodBlocks) U64_MAX ≤ d ↔ ¬ d < U64_MAX := by omega
    simp [isReleasable, hstatus, bondReleaseDaaScore, hu, hrelease]
  · simp [isReleasable, hstatus]

structure SignedEvidence (P : Primitives) (netId : BlockHash) (bond : StakeBondRecord)
    (ev : SlashingEvidencePayload) : Prop where
  validatorA : ev.attestationA.validatorId = bond.validatorPubkeyHash
  validatorB : ev.attestationB.validatorId = bond.validatorPubkeyHash
  verifiesA : attestationVerifies P netId bond ev.attestationA = true
  verifiesB : attestationVerifies P netId bond ev.attestationB = true

section Escape

variable {P : Primitives} {params : DnsParams} {netId : BlockHash} {view : ActiveBondView}
  {bond : StakeBondRecord} {ev : SlashingEvidencePayload} {tx : Transaction} {d t₁ t₂ : ℕ}

theorem resolveEvidence_isSome_iff (hview : view.get ev.bondOutpoint = some bond)
    (htx : slashingEvidenceOf P tx = some ev) :
    (resolveEvidence P view d tx).isSome = true ↔
      (effectiveBondStatus bond d).isSlashable = true := by
  unfold resolveEvidence
  rw [htx]
  dsimp only
  rw [hview]
  dsimp only
  split <;> next h => simp [h]

/-- Fresh evidence against a bond that was active at both targets is accepted and finds the stake
locked, exactly if the bond's row shows it dormant neither now nor at a target. -/
theorem noEscape_iff {payload : StakeBondPayload} {o : TransactionOutpoint} {acceptedDaa : ℕ}
    {r₁ r₂ : StakeBondRecord}
    (hparams : params.maxReorgHorizonBlocks + params.evidenceWindowBlocks ≤
      params.unbondingPeriodBlocks)
    (horigin : Evolves acceptedDaa
      (acceptedBondRecord payload o acceptedDaa params.unbondingPeriodBlocks) t₁ r₁)
    (hfirst : effectiveBondStatus r₁ t₁ = .active) (hmiddle : Evolves t₁ r₁ t₂ r₂)
    (hsecond : effectiveBondStatus r₂ t₂ = .active) (hrest : Evolves t₂ r₂ d bond)
    (hview : view.get ev.bondOutpoint = some bond) (htx : slashingEvidenceOf P tx = some ev)
    (hsigned : SignedEvidence P netId bond ev)
    (hold : t₁ = min ev.attestationA.targetDaaScore ev.attestationB.targetDaaScore)
    (hnew : t₂ = max ev.attestationA.targetDaaScore ev.attestationB.targetDaaScore)
    (hfresh : d - t₂ ≤ params.evidenceWindowBlocks) (hdaa : d ≤ U64_MAX)
    (hslashed : effectiveBondStatus bond d ≠ .slashed) :
    (evidenceGenuine P view netId d params.evidenceWindowBlocks ev = true ∧
        (resolveEvidence P view d tx).isSome = true ∧ isReleasable bond d = false) ↔
      (∀ t ∈ [ev.attestationA.targetDaaScore, ev.attestationB.targetDaaScore, d],
        effectiveBondStatus bond t ≠ .dormant) ∧
      (effectiveBondStatus bond d = .unbonding → d < U64_MAX) := by
  obtain ⟨ht₂d, hact, hperiod, hunbond⟩ := hrest.frame
  obtain ⟨ht₁₂, hact₂, hperiod₂, -⟩ := hmiddle.frame
  obtain ⟨-, hact₁, hperiod₁, -⟩ := horigin.frame
  -- While active at the newer target the bond had not asked to leave.
  have hnone : r₂.unbondRequestDaaScore = none := by
    refine unbondRequest_eq_none_of_active (fun u hu => ?_) hsecond
    refine hmiddle.unbondRequest_le (fun u' hu' => ?_) hu
    exact horigin.unbondRequest_le (fun u'' hu'' => by cases hu'') hu'
  have hafter : ∀ u, bond.unbondRequestDaaScore = some u → t₂ < u := by
    intro u hu
    rcases hunbond with hsame | ⟨u', hu', hlt, -⟩
    · rw [hsame, hnone] at hu
      cases hu
    · obtain rfl := Option.some.inj (hu'.symm.trans hu)
      exact hlt
  have hlock : params.maxReorgHorizonBlocks + params.evidenceWindowBlocks ≤
      bond.unbondingPeriodBlocks := by
    rw [hperiod, hperiod₂, hperiod₁]
    exact hparams.trans (le_max_right _ _)
  have hactive : bond.activationDaaScore ≤ t₁ := by
    rw [hact, hact₂]
    exact (effectiveBondStatus_eq_active.mp hfirst).2.2.2
  have hstatus {t : ℕ} (ht₁ : t₁ ≤ t) (htd : t ≤ d) :
      (effectiveBondStatus bond t).isSlashable = true ↔ effectiveBondStatus bond t ≠ .dormant :=
    isSlashable_iff_of_not_slashed (not_slashed_of_le htd hslashed) (hactive.trans ht₁)
  have hA := hstatus (hold ▸ min_le_left _ _) ((hnew ▸ le_max_left _ _).trans ht₂d)
  have hB := hstatus (hold ▸ min_le_right _ _) ((hnew ▸ le_max_right _ _).trans ht₂d)
  rw [resolveEvidence_isSome_iff hview htx, isReleasable_eq_false_iff hafter (by omega) hdaa,
    hstatus (ht₁₂.trans ht₂d) le_rfl]
  simp [evidenceGenuine, hview, hnew ▸ hfresh, checkEquivocation, hsigned.validatorA,
    hsigned.validatorB, hsigned.verifiesA, hsigned.verifiesB, hA, hB,
    hstatus (ht₁₂.trans ht₂d) le_rfl]
  constructor
  · rintro ⟨⟨⟨hnow, hA⟩, hB⟩, -, hmax⟩
    exact ⟨⟨hA, hB, hnow⟩, hmax⟩
  · rintro ⟨⟨hA, hB, hnow⟩, hmax⟩
    exact ⟨⟨⟨hnow, hA⟩, hB⟩, hnow, hmax⟩

end Escape

open Relation (ReflTransGen) in
/-- A dormancy pass takes the bonds, as the registry shows them, along such steps. -/
theorem bondSteps_dormancyCommit {params : DnsParams} {history : BondHistory} {S : DormancyState}
    {s : DormancySink} (hchain : Ascends s.chain) (hsees : s.Sees params history)
    (hkeys : (S.records.map (·.bondOutpoint)).Nodup)
    (h : r' ∈ (dormancyCommit params history S s).records) :
    ∃ r ∈ S.records,
      ReflTransGen (BondStep s.tip.daaScore) (r.asOf history s.tip.daaScore) r' := by
  cases hb : s.passEpoch params with
  | none =>
    rw [dormancyCommit_of_none hb] at h
    obtain ⟨r, hr, rfl⟩ := List.mem_map.mp h
    exact ⟨r, hr, .refl⟩
  | some b =>
    rw [dormancyCommit_eq hsees hb] at h
    simp only [List.map_map, List.mem_map, Function.comp_apply] at h
    obtain ⟨worked, hworked, rfl⟩ := h
    have hkeys' : ((S.records.map (·.asOf history s.tip.daaScore)).map
        (·.bondOutpoint)).Nodup := by rwa [List.map_map]
    obtain ⟨shown, hshown, hsteps⟩ :=
      mem_passRounds (R := ReflTransGen (BondStep s.tip.daaScore)) hkeys' (fun _ => .refl)
        (fun r _ _ _ hsteps => hsteps.tail (.touch history.attested r))
        (fun r _ _ ha _ _ hsteps hactive =>
          hsteps.tail (.evict r hactive (DormancySink.anchorDaa_le hchain ha))) hworked
    obtain ⟨r, hr, rfl⟩ := List.mem_map.mp hshown
    exact ⟨r, hr, (hsteps.tail (.touch history.attested b)).tail (.revive b _)⟩

/-- An exit lock of five blocks covers the horizon of one and the evidence window of four; a bond is
evicted after six silent epochs of one block each. -/
def escapeParams : DnsParams :=
  { dormancyParams with
    evidenceWindowBlocks := 4
    unbondingPeriodBlocks := 5
    dormancyWindowEpochs := 6
    dormancyEvictLimitBps := 10000 }

def escapeBond : StakeBondRecord :=
  acceptedBondRecord
    { (default : StakeBondPayload) with
      validatorPubkeyHash := 7
      validatorPubkey := List.replicate STAKE_VALIDATOR_PUBKEY_LEN 7
      amount := 100 } ⟨1, 0⟩ 0 escapeParams.unbondingPeriodBlocks

def viewOf (bond : StakeBondRecord) : ActiveBondView := ⟨(∅ : BondRegistry).insert ⟨1, 0⟩ bond⟩

theorem viewOf_get (bond : StakeBondRecord) : (viewOf bond).get ⟨1, 0⟩ = some bond := by
  simp [viewOf, ActiveBondView.get]

/-- A bond that equivocates at score 7 and asks to leave at score 8 is slashable at score 9. -/
theorem noEscape_unbonding :
    effectiveBondStatus (escapeBond.setStamp .unbond (some 8) 8) 9 = .unbonding ∧
    evidenceGenuine samplePrimitives (viewOf (escapeBond.setStamp .unbond (some 8) 8)) 0 9
        escapeParams.evidenceWindowBlocks (sampleEvidence 7 7 1 7) = true ∧
    (resolveEvidence samplePrimitives (viewOf (escapeBond.setStamp .unbond (some 8) 8)) 9
        (sampleEvidenceTx 5 7 7 1 7)).isSome = true ∧
    isReleasable (escapeBond.setStamp .unbond (some 8) 8) 9 = false := by
  have hstart : Evolves 0 escapeBond 7 escapeBond := .wait .refl (by decide)
  have hleave : Evolves 7 escapeBond 9 (escapeBond.setStamp .unbond (some 8) 8) :=
    .wait (.step (.wait .refl (by decide : 7 ≤ 8)) (by decide) (.unbond rfl)) (by decide)
  refine ⟨by decide, (noEscape_iff (by decide) hstart (by decide) .refl (by decide) hleave
    (viewOf_get _) rfl ⟨rfl, rfl, by decide +kernel, by decide +kernel⟩ rfl rfl (by decide)
    (by decide) (by decide)).mpr ?_⟩
  decide

def escapeState : DormancyState :=
  dormancyCommit escapeParams silentHistory ⟨[escapeBond], 0⟩ (heightSink 6)

def escapeState' : DormancyState :=
  dormancyCommit escapeParams silentHistory escapeState (heightSink 7)

/-- A silent bond is active when it equivocates at score 7. The pass at score 8 evicts it, stamped
with score 7, and at score 9 the fresh evidence is refused. -/
theorem dormant_bond_escapes :
    escapeParams.dnsV4ParamsConsistent = true ∧
    escapeParams.maxReorgHorizonBlocks + escapeParams.evidenceWindowBlocks ≤
      escapeParams.unbondingPeriodBlocks ∧
    ∃ r r', escapeState.records = [r] ∧ escapeState'.records = [r'] ∧
      Evolves 0 escapeBond 7 r ∧ Evolves 7 r 9 r' ∧
      effectiveBondStatus r 7 = .active ∧ effectiveBondStatus r' 9 ≠ .slashed ∧
      9 - 7 ≤ escapeParams.evidenceWindowBlocks ∧
      SignedEvidence samplePrimitives 0 r' (sampleEvidence 7 7 1 7) ∧
      evidenceGenuine samplePrimitives (viewOf r') 0 9 escapeParams.evidenceWindowBlocks
        (sampleEvidence 7 7 1 7) = false ∧
      (resolveEvidence samplePrimitives (viewOf r') 9 (sampleEvidenceTx 5 7 7 1 7)).isSome =
        false := by
  have hfirst : escapeState.records = [escapeBond.withStatusAt 7] := by decide +kernel
  have hsecond : escapeState'.records = [(escapeBond.withStatusAt 7).evict 7 7] := by
    decide +kernel
  have hactive : Evolves 0 escapeBond 7 (escapeBond.withStatusAt 7) :=
    .step (.wait .refl (by decide)) (by decide) .refresh
  have hevicted : Evolves 7 (escapeBond.withStatusAt 7) 9
      ((escapeBond.withStatusAt 7).evict 7 7) :=
    .wait (.step (.wait .refl (by decide : 7 ≤ 8)) (by decide) (.evict 7 (by decide) (by decide)))
      (by decide)
  refine ⟨by decide +kernel, by decide, _, _, hfirst, hsecond, hactive, hevicted, by decide,
    by decide, by decide, ⟨rfl, rfl, by decide +kernel, by decide +kernel⟩, by decide +kernel,
    by decide +kernel⟩

end Misaka.Dns
