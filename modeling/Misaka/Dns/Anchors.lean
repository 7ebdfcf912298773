import Mathlib.Data.List.TakeWhile
import Misaka.Core.Latest
import Misaka.Dns.Params

/-!
# Canonical lagged anchors

Attestation epochs are ranges of blue score. The block to attest for an epoch is the newest
selected-chain block at or below the epoch's cutoff, once the epoch is buried deep enough. Selected
chains are read with their tip first; a walk visits the tip once more before following the chain.
-/

namespace Misaka.Dns

open Misaka.Core List

structure HeaderRow where
  hash : BlockHash
  blueScore : ℕ
  daaScore : ℕ
  deriving DecidableEq, Repr, Inhabited

def epochStartBlueScore (epoch epochLen : ℕ) : ℕ := min (epoch * max epochLen 1) U64_MAX

def epochEndBlueScore (epoch epochLen : ℕ) : ℕ :=
  epochStartBlueScore (min (epoch + 1) U64_MAX) epochLen - 1

/-- The highest blue score of an anchor of the epoch. -/
def anchorCutoffBlueScore (epoch epochLen backoff : ℕ) : ℕ :=
  epochEndBlueScore epoch epochLen - backoff

/-- The last epoch that ended a lag below the tip. -/
def readyEpochFromTipBlueScore (tipBlueScore epochLen lag : ℕ) : Option ℕ :=
  if tipBlueScore < lag then none
  else if U64_MAX ≤ tipBlueScore - lag then none
  else
    let completed := (tipBlueScore - lag + 1) / max epochLen 1
    if completed = 0 then none else some (completed - 1)

structure CanonicalLaggedEpochAnchor where
  epoch : ℕ
  epochStartBlueScore : ℕ
  epochEndBlueScore : ℕ
  cutoffBlueScore : ℕ
  anchorHash : BlockHash
  anchorBlueScore : ℕ
  anchorDaaScore : ℕ
  duplicateOfPreviousAnchor : Bool
  deriving DecidableEq, Repr

/-- The latest ancestor at or below the cutoff. -/
def canonicalLaggedEpochAnchor (epoch epochLen backoff : ℕ) (ancestors : List HeaderRow) :
    Option CanonicalLaggedEpochAnchor :=
  let len := max epochLen 1
  let cutoff := anchorCutoffBlueScore epoch len backoff
  match latestAtMost (·.blueScore) cutoff ancestors with
  | none => none
  | some a => some
      { epoch := epoch
        epochStartBlueScore := epochStartBlueScore epoch len
        epochEndBlueScore := epochEndBlueScore epoch len
        cutoffBlueScore := cutoff
        anchorHash := a.hash
        anchorBlueScore := a.blueScore
        anchorDaaScore := a.daaScore
        duplicateOfPreviousAnchor := epoch ≠ 0 &&
          (latestAtMost (·.blueScore) (anchorCutoffBlueScore (epoch - 1) len backoff)
            ancestors).map (·.hash) == some a.hash }

/-- `once(tip).chain(default_backward_chain_iterator(tip))`. -/
def chainWalk {α : Type} : List α → List α
  | [] => []
  | tip :: rest => tip :: tip :: rest

/-- The walk of `canonical_anchor_by_blue_score`: inside the window, down to the previous epoch's
cutoff. -/
def collectAncestors (window tipBlueScore needed : ℕ) : List HeaderRow → List HeaderRow
  | [] => []
  | r :: rest =>
    if window < tipBlueScore - r.blueScore then []
    else r :: if r.blueScore ≤ needed then [] else collectAncestors window tipBlueScore needed rest

variable (params : DnsParams) {ancestors chain : List HeaderRow}
  {anchor : CanonicalLaggedEpochAnchor}

def DnsParams.cutoff (epoch : ℕ) : ℕ :=
  anchorCutoffBlueScore epoch (max params.attestationEpochLengthBlueScore 1)
    params.attestationAnchorBackoffBlueScore

def DnsParams.dnsV3ParamsConsistent : Bool :=
  let depthEpochs := max (params.requiredStakeDepth / 1000000000 % 2 ^ 64) 2
  let needed := min (min (min (depthEpochs * params.attestationEpochLengthBlueScore) U64_MAX +
    params.attestationLagBlueScore) U64_MAX + params.attestationAnchorBackoffBlueScore) U64_MAX
  1 ≤ params.attestationEpochLengthBlueScore && 1 ≤ params.attestationLagBlueScore &&
    params.attestationAnchorBackoffBlueScore < params.attestationEpochLengthBlueScore &&
    needed ≤ params.stakeScoreWindowBlueScore

def canonicalAnchorByBlueScore (epoch : ℕ) (chain : List HeaderRow) :
    Option CanonicalLaggedEpochAnchor :=
  let len := max params.attestationEpochLengthBlueScore 1
  let backoff := params.attestationAnchorBackoffBlueScore
  match chain.head? with
  | none => none
  | some tip =>
    if tip.blueScore < anchorCutoffBlueScore epoch len backoff then none
    else
      canonicalLaggedEpochAnchor epoch len backoff
        (collectAncestors params.stakeScoreWindowBlueScore tip.blueScore
          (anchorCutoffBlueScore (epoch - 1) len backoff) (chainWalk chain))

/-- The anchor of an epoch, unless the epoch reuses the previous one. -/
def creditableAnchor (len backoff : ℕ) (ancestors : List HeaderRow) (epoch : ℕ) :
    List (ℕ × CanonicalLaggedEpochAnchor) :=
  match canonicalLaggedEpochAnchor epoch len backoff ancestors with
  | some anchor => if anchor.duplicateOfPreviousAnchor then [] else [(epoch, anchor)]
  | none => []

/-- The downward loop of `canonical_anchors_in_window`: it stops once the previous epoch's cutoff
falls below the walk. -/
def creditableAnchors (len backoff oldestBlue : ℕ) (ancestors : List HeaderRow) :
    ℕ → List (ℕ × CanonicalLaggedEpochAnchor)
  | 0 =>
    if anchorCutoffBlueScore 0 len backoff < oldestBlue then []
    else creditableAnchor len backoff ancestors 0
  | epoch + 1 =>
    if anchorCutoffBlueScore epoch len backoff < oldestBlue then []
    else creditableAnchor len backoff ancestors (epoch + 1) ++
      creditableAnchors len backoff oldestBlue ancestors epoch

/-- The anchors of the ready epochs in the window. -/
def canonicalAnchorsInWindow (chain : List HeaderRow) : List (ℕ × CanonicalLaggedEpochAnchor) :=
  let len := max params.attestationEpochLengthBlueScore 1
  let backoff := params.attestationAnchorBackoffBlueScore
  match chain.head? with
  | none => []
  | some tip =>
    match readyEpochFromTipBlueScore tip.blueScore len params.attestationLagBlueScore with
    | none => []
    | some latestReady =>
      let ancestors := (chainWalk chain).takeWhile fun r =>
        decide (tip.blueScore - r.blueScore ≤ params.stakeScoreWindowBlueScore)
      let oldestBlue := (ancestors.getLast?.map (·.blueScore)).getD tip.blueScore
      creditableAnchors len backoff oldestBlue ancestors latestReady

variable {epoch len : ℕ}

theorem anchorCutoffBlueScore_mono {epoch' : ℕ} (h : epoch ≤ epoch') (len backoff : ℕ) :
    anchorCutoffBlueScore epoch len backoff ≤ anchorCutoffBlueScore epoch' len backoff := by
  have hstep : min (epoch + 1) U64_MAX ≤ min (epoch' + 1) U64_MAX := by omega
  have hmul := Nat.mul_le_mul_right (max len 1) hstep
  unfold anchorCutoffBlueScore epochEndBlueScore epochStartBlueScore
  omega

variable {tip lag ready backoff : ℕ}

theorem ready_eq_some (h : readyEpochFromTipBlueScore tip len lag = some ready) :
    lag ≤ tip ∧ ready + 1 = (tip - lag + 1) / max len 1 := by
  dsimp only [readyEpochFromTipBlueScore] at h
  split_ifs at h with hlag hmax hpos
  cases h
  exact ⟨Nat.le_of_not_lt hlag, Nat.succ_pred_eq_of_ne_zero hpos⟩

theorem cutoff_le_of_ready (hready : readyEpochFromTipBlueScore tip len lag = some ready)
    (h : epoch ≤ ready) (backoff : ℕ) : anchorCutoffBlueScore epoch len backoff ≤ tip := by
  obtain ⟨hlag, hcount⟩ := ready_eq_some hready
  have hend : min (epoch + 1) U64_MAX * max len 1 ≤ tip - lag + 1 := calc
    min (epoch + 1) U64_MAX * max len 1 ≤ (ready + 1) * max len 1 :=
      Nat.mul_le_mul_right _ (by omega)
    _ ≤ tip - lag + 1 := by
      rw [hcount]
      exact Nat.div_mul_le_self _ _
  unfold anchorCutoffBlueScore epochEndBlueScore epochStartBlueScore
  omega

theorem ready_mono {tip' ready' : ℕ} (h : tip ≤ tip')
    (hready : readyEpochFromTipBlueScore tip len lag = some ready)
    (hready' : readyEpochFromTipBlueScore tip' len lag = some ready') : ready ≤ ready' := by
  obtain ⟨hlag, hcount⟩ := ready_eq_some hready
  have hcount' := (ready_eq_some hready').2
  have hdiv : (tip - lag + 1) / max len 1 ≤ (tip' - lag + 1) / max len 1 :=
    Nat.div_le_div_right (by omega)
  omega

theorem latest_chainWalk (bound : ℕ) (chain : List HeaderRow) :
    latestAtMost (·.blueScore) bound (chainWalk chain) =
      latestAtMost (·.blueScore) bound chain := by
  cases chain with
  | nil => rfl
  | cons tip rest => exact latestAtMost_cons_cons_self tip rest bound

theorem collectAncestors_isPrefix (window tipBlue needed : ℕ) (l : List HeaderRow) :
    collectAncestors window tipBlue needed l <+: l := by
  induction l with
  | nil => exact nil_prefix
  | cons r rest ih =>
    unfold collectAncestors
    split
    · exact nil_prefix
    · refine cons_prefix_cons.mpr ⟨rfl, ?_⟩
      split
      · exact nil_prefix
      · exact ih

theorem canonicalLaggedEpochAnchor_latest (hpre : ancestors <+: chainWalk chain)
    (h : canonicalLaggedEpochAnchor epoch len backoff ancestors = some anchor) :
    ∃ row, latestAtMost (·.blueScore) (anchorCutoffBlueScore epoch (max len 1) backoff) chain =
        some row ∧
      anchor.anchorHash = row.hash ∧ anchor.anchorDaaScore = row.daaScore := by
  unfold canonicalLaggedEpochAnchor at h
  dsimp only at h
  split at h
  · cases h
  · next row hrow =>
    cases h
    refine ⟨row, ?_, rfl, rfl⟩
    rw [← latest_chainWalk]
    exact latestAtMost_of_prefix hpre hrow

theorem canonicalAnchorByBlueScore_latest {params : DnsParams}
    (h : canonicalAnchorByBlueScore params epoch chain = some anchor) :
    ∃ row, latestAtMost (·.blueScore) (params.cutoff epoch) chain = some row ∧
      anchor.anchorHash = row.hash ∧ anchor.anchorDaaScore = row.daaScore := by
  unfold canonicalAnchorByBlueScore at h
  dsimp only at h
  split at h
  · cases h
  · split at h
    · cases h
    · have hlatest := canonicalLaggedEpochAnchor_latest (collectAncestors_isPrefix _ _ _ _) h
      rwa [max_eq_left (le_max_right _ 1)] at hlatest

theorem mem_creditableAnchors {oldest latest : ℕ}
    (h : (epoch, anchor) ∈ creditableAnchors len backoff oldest ancestors latest) :
    epoch ≤ latest ∧ canonicalLaggedEpochAnchor epoch len backoff ancestors = some anchor := by
  have hone {e : ℕ} (h : (epoch, anchor) ∈ creditableAnchor len backoff ancestors e) :
      epoch = e ∧ canonicalLaggedEpochAnchor epoch len backoff ancestors = some anchor := by
    unfold creditableAnchor at h
    split at h
    · next found hfound =>
      split at h
      · cases h
      · obtain ⟨rfl, rfl⟩ := Prod.mk.inj (mem_singleton.mp h)
        exact ⟨rfl, hfound⟩
    · cases h
  induction latest with
  | zero =>
    unfold creditableAnchors at h
    split at h
    · cases h
    · exact ⟨(hone h).1.le, (hone h).2⟩
  | succ latest ih =>
    unfold creditableAnchors at h
    split at h
    · cases h
    · rcases mem_append.mp h with h | h
      · exact ⟨(hone h).1.le, (hone h).2⟩
      · exact ⟨(ih h).1.trans (Nat.le_succ _), (ih h).2⟩

theorem mem_canonicalAnchorsInWindow {params : DnsParams}
    (h : (epoch, anchor) ∈ canonicalAnchorsInWindow params chain) :
    ∃ tip row, chain.head? = some tip ∧ params.cutoff epoch ≤ tip.blueScore ∧
      latestAtMost (·.blueScore) (params.cutoff epoch) chain = some row ∧
      anchor.anchorHash = row.hash ∧ anchor.anchorDaaScore = row.daaScore := by
  unfold canonicalAnchorsInWindow at h
  dsimp only at h
  split at h
  · cases h
  · next tip htip =>
    split at h
    · cases h
    · next ready hready =>
      obtain ⟨hle, hanchor⟩ := mem_creditableAnchors h
      have hpre := takeWhile_prefix (l := chainWalk chain) fun r =>
        decide (tip.blueScore - r.blueScore ≤ params.stakeScoreWindowBlueScore)
      obtain ⟨row, hrow, hhash, hdaa⟩ := canonicalLaggedEpochAnchor_latest hpre hanchor
      rw [max_eq_left (le_max_right _ 1)] at hrow
      exact ⟨tip, row, htip, cutoff_le_of_ready hready hle _, hrow, hhash, hdaa⟩

theorem canonicalAnchorsInWindow_unique {params : DnsParams} {anchor' : CanonicalLaggedEpochAnchor}
    (h : (epoch, anchor) ∈ canonicalAnchorsInWindow params chain)
    (h' : (epoch, anchor') ∈ canonicalAnchorsInWindow params chain) : anchor = anchor' := by
  unfold canonicalAnchorsInWindow at h h'
  dsimp only at h h'
  split at h
  · cases h
  · next tip htip =>
    rw [htip] at h'
    dsimp only at h'
    split at h
    · cases h
    · next ready hready =>
      rw [hready] at h'
      exact Option.some.inj
        ((mem_creditableAnchors h).2.symm.trans (mem_creditableAnchors h').2)

end Misaka.Dns
