import Mathlib.Data.List.TakeWhile
import Misaka.Core.Machine
import Misaka.Core.Shares
import Misaka.Chain.Transaction

/-!
# The replica premium controller

One scalar, the premium of a replica in basis points, moved at most once per control window: the
window's sample is smoothed, a move waits for consecutive windows that ask for it, and a ring of the
last changes limits how far the premium travels. An overflow is a fault.
-/

namespace Misaka.Palw

open Misaka.Core List

def U32_MAX : ℕ := 2 ^ 32 - 1

def asU32 (n : ℕ) : ℕ := n % 2 ^ 32

def saturatingAddU32 (a b : ℕ) : ℕ := min (a + b) U32_MAX

def PALW_PREMIUM_MAX_MATURATION_WINDOWS : ℕ := 64

/-- Division to the nearest, ties to even. -/
def divRne (num den : ℕ) : Except ArithFault ℕ := do
  let q ← machineDiv num den
  let twice ← machineMul U128_MAX (num % den) 2
  if den < twice ∨ twice = den ∧ q % 2 = 1 then machineAdd U128_MAX q 1 else .ok q

/-- Every field but the first and `nStatSlotCu` is a `u32`. -/
structure PalwPremiumParams where
  windowDaa : ℕ
  emaAlphaBps : ℕ
  kappaUpBps : ℕ
  kappaDownBps : ℕ
  consecutiveWindows : ℕ
  deltaCapBps : ℕ
  maturationWindows : ℕ
  piMinBps : ℕ
  piMaxBps : ℕ
  rLoBps : ℕ
  rHiBps : ℕ
  iLoBps : ℕ
  nStatSlotCu : ℕ
  bootstrapHoldWindows : ℕ
  p0BpsOfLeaf : ℕ
  p0MaxBpsEclipse : ℕ
  r0BaselineBps : ℕ
  honestPenaltyHarmlessBps : ℕ
  fits : ∀ n ∈ [emaAlphaBps, kappaUpBps, kappaDownBps, consecutiveWindows, deltaCapBps,
    maturationWindows, piMinBps, piMaxBps, rLoBps, rHiBps, iLoBps, bootstrapHoldWindows,
    p0BpsOfLeaf, p0MaxBpsEclipse, r0BaselineBps, honestPenaltyHarmlessBps], n ≤ U32_MAX := by decide

def PalwPremiumParams.genesisDefaults (windowDaa : ℕ) : PalwPremiumParams where
  windowDaa := windowDaa
  emaAlphaBps := 1294
  kappaUpBps := 150
  kappaDownBps := 75
  consecutiveWindows := 2
  deltaCapBps := 1000
  maturationWindows := 14
  piMinBps := 5000
  piMaxBps := 30000
  rLoBps := 450
  rHiBps := 900
  iLoBps := 5000
  nStatSlotCu := 530
  bootstrapHoldWindows := 30
  p0BpsOfLeaf := 350
  p0MaxBpsEclipse := 1000
  r0BaselineBps := 300
  honestPenaltyHarmlessBps := 15

namespace PalwPremiumParams

/-- `p0_window_bps`. The products are of `u32` values in `u128`, so only the ceiling division can
fault. -/
def p0WindowBps (params : PalwPremiumParams) : Except ArithFault (ℕ × ℕ) :=
  let one := PALW_PREMIUM_BPS_ONE
  if params.kappaUpBps = 0 then .error .divideByZero
  else
    let w := (params.deltaCapBps + params.kappaUpBps - 1) / params.kappaUpBps
    let lower :=
      if w = 0 ∨ params.maturationWindows ≤ w then 0
      else
        let piPumped := one + params.deltaCapBps
        let sigmaBPumped := piPumped * one / (one + piPumped)
        let deltaSigma := sigmaBPumped - one / 2
        asU32 (deltaSigma * (params.maturationWindows - w) / w)
    let harmlessCeiling :=
      if params.r0BaselineBps = 0 then U32_MAX
      else asU32 (params.honestPenaltyHarmlessBps * one / params.r0BaselineBps)
    .ok (lower, min params.p0MaxBpsEclipse harmlessCeiling)

/-- Some penalty would be calibrated. -/
def p0WindowIsNonEmpty (params : PalwPremiumParams) : Except ArithFault Bool := do
  let (lo, hi) ← params.p0WindowBps
  .ok (decide (lo < hi))

/-- The penalty lies in the window. -/
def p0IsCalibrated (params : PalwPremiumParams) : Except ArithFault Bool := do
  let (lo, hi) ← params.p0WindowBps
  .ok (decide (lo < params.p0BpsOfLeaf ∧ params.p0BpsOfLeaf ≤ hi))

/-- The checks of single parameters. -/
def isConsistentInner (params : PalwPremiumParams) : Bool :=
  0 < params.windowDaa && 0 < params.emaAlphaBps && params.emaAlphaBps ≤ PALW_PREMIUM_BPS_ONE &&
    0 < params.kappaUpBps && 0 < params.kappaDownBps && 0 < params.consecutiveWindows &&
    0 < params.maturationWindows &&
    params.maturationWindows ≤ PALW_PREMIUM_MAX_MATURATION_WINDOWS && 0 < params.piMinBps &&
    params.piMinBps ≤ PALW_PREMIUM_BPS_ONE && PALW_PREMIUM_BPS_ONE ≤ params.piMaxBps &&
    params.rLoBps < params.rHiBps && 0 < params.nStatSlotCu

/-- A smallest step fits under the cap and the penalty is calibrated. -/
def isConsistent (params : PalwPremiumParams) : Except ArithFault Bool := do
  let minStepBps ← divRne (params.piMinBps * params.kappaUpBps) PALW_PREMIUM_BPS_ONE
  if params.deltaCapBps < max (asU32 minStepBps) 1 then .ok false
  else if !(← params.p0WindowIsNonEmpty) then .ok false
  else if !(← params.p0IsCalibrated) then .ok false
  else .ok params.isConsistentInner

end PalwPremiumParams

/-- What a window measured. -/
structure PalwWindowSample where
  orderedSlotCu : ℕ
  failedSlotCu : ℕ
  snapshotBondSompi : ℕ
  deriving DecidableEq, Repr

/-- The failed share of the ordered slots. -/
def PalwWindowSample.shortfallBps (sample : PalwWindowSample) : Except ArithFault ℕ :=
  if sample.orderedSlotCu = 0 then .ok 0
  else do
    let capped := min sample.failedSlotCu sample.orderedSlotCu
    let r ← divRne (← machineMul U128_MAX capped PALW_PREMIUM_BPS_ONE) sample.orderedSlotCu
    .ok (asU32 r)

/-- The ordered slots per bonded sompi. -/
def PalwWindowSample.intensityBps (sample : PalwWindowSample) : Except ArithFault ℕ :=
  if sample.snapshotBondSompi = 0 then .ok 0
  else do
    let i ← divRne (← machineMul U128_MAX sample.orderedSlotCu PALW_PREMIUM_BPS_ONE)
      sample.snapshotBondSompi
    .ok (min i U32_MAX)

/-- Why the premium was held, or how it moved. -/
inductive PalwPremiumDecision where
  | holdDegraded
  | holdThinMarket
  | holdBootstrap
  | holdDeadband
  | holdRateLimited
  | raised (fromBps toBps : ℕ)
  | lowered (fromBps toBps : ℕ)
  deriving DecidableEq, Repr

/-- The controller between two windows. -/
structure PalwPremiumStateV1 where
  piBps : ℕ
  rEmaBps : ℕ
  iEmaBps : ℕ
  consecutiveUp : ℕ
  consecutiveDown : ℕ
  windowsElapsed : ℕ
  recentDeltaBps : List ℕ
  emaSeeded : Bool
  deriving DecidableEq, Repr

namespace PalwPremiumStateV1

/-- A premium of one and nothing measured. -/
def neutral : PalwPremiumStateV1 := ⟨PALW_PREMIUM_BPS_ONE, 0, 0, 0, 0, 0, [], false⟩

/-- How far the premium moved in the ring. -/
def cumulativeDeltaBps (s : PalwPremiumStateV1) : ℕ := s.recentDeltaBps.foldl saturatingAddU32 0

/-- The ring keeps the changes of the last windows. -/
def pushDelta (s : PalwPremiumStateV1) (deltaBps maturationWindows : ℕ) : PalwPremiumStateV1 :=
  let pushed := s.recentDeltaBps ++ [deltaBps]
  { s with recentDeltaBps := pushed.drop (pushed.length - maturationWindows) }

/-- A held window restarts both counters. -/
def heldReset (s : PalwPremiumStateV1) (maturationWindows : ℕ) : PalwPremiumStateV1 :=
  { s with consecutiveUp := 0, consecutiveDown := 0 }.pushDelta 0 maturationWindows

end PalwPremiumStateV1

/-- A step of an exponential average. -/
def emaStep (old sample alphaBps : ℕ) : Except ArithFault ℕ := do
  let rest ← machineSub PALW_PREMIUM_BPS_ONE alphaBps
  let kept ← machineMul U128_MAX old rest
  let added ← machineMul U128_MAX sample alphaBps
  let blended ← divRne (← machineAdd U128_MAX kept added) PALW_PREMIUM_BPS_ONE
  .ok (asU32 blended)

/-- `update_premium`: the two averages. -/
def foldSample (next : PalwPremiumStateV1) (sample : PalwWindowSample)
    (params : PalwPremiumParams) : Except ArithFault PalwPremiumStateV1 := do
  let r ← sample.shortfallBps
  let i ← sample.intensityBps
  if next.emaSeeded then
    let rEma ← emaStep next.rEmaBps r params.emaAlphaBps
    let iEma ← emaStep next.iEmaBps i params.emaAlphaBps
    .ok { next with rEmaBps := rEma, iEmaBps := iEma }
  else .ok { next with rEmaBps := r, iEmaBps := i, emaSeeded := true }

inductive PremiumDirection where
  | up
  | down
  deriving DecidableEq, Repr

/-- The averages ask for a move. -/
def PalwPremiumStateV1.wants (s : PalwPremiumStateV1) (params : PalwPremiumParams) :
    PremiumDirection → Bool
  | .up => params.rHiBps < s.rEmaBps
  | .down => s.rEmaBps < params.rLoBps && s.iEmaBps < params.iLoBps

/-- `consecutive_up` and `consecutive_down`. -/
def PalwPremiumStateV1.counter (s : PalwPremiumStateV1) : PremiumDirection → ℕ
  | .up => s.consecutiveUp
  | .down => s.consecutiveDown

/-- Counts the windows in a row that ask. -/
def debounce (next : PalwPremiumStateV1) (params : PalwPremiumParams) : PalwPremiumStateV1 :=
  { next with
    consecutiveUp := if next.wants params .up then saturatingAddU32 next.consecutiveUp 1 else 0
    consecutiveDown :=
      if next.wants params .down then saturatingAddU32 next.consecutiveDown 1 else 0 }

/-- `update_premium`: the multiplicative step, clamped to the participation floors. -/
def proposedPi (piBps : ℕ) (params : PalwPremiumParams) : PremiumDirection → Except ArithFault ℕ
  | .up => do
    let factor ← machineAdd U128_MAX PALW_PREMIUM_BPS_ONE params.kappaUpBps
    let stepped ← divRne (← machineMul U128_MAX piBps factor) PALW_PREMIUM_BPS_ONE
    .ok (asU32 (min stepped params.piMaxBps))
  | .down => do
    let factor ← machineSub PALW_PREMIUM_BPS_ONE params.kappaDownBps
    let stepped ← divRne (← machineMul U128_MAX piBps factor) PALW_PREMIUM_BPS_ONE
    .ok (asU32 (max stepped params.piMinBps))

def absDiff (a b : ℕ) : ℕ := (a - b) + (b - a)

/-- `update_premium`: a move in one direction, unless it is none or the rate limiter refuses it. -/
def move (next : PalwPremiumStateV1) (params : PalwPremiumParams) (direction : PremiumDirection) :
    Except ArithFault (PalwPremiumStateV1 × PalwPremiumDecision) := do
  let proposed ← proposedPi next.piBps params direction
  let delta := absDiff proposed next.piBps
  if delta = 0 then .ok (next.pushDelta 0 params.maturationWindows, .holdDeadband)
  else if params.deltaCapBps < saturatingAddU32 next.cumulativeDeltaBps delta then
    .ok (next.pushDelta 0 params.maturationWindows, .holdRateLimited)
  else
    let moved := { next with piBps := proposed }.pushDelta delta params.maturationWindows
    match direction with
    | .up => .ok ({ moved with consecutiveUp := 0 }, .raised next.piBps proposed)
    | .down => .ok ({ moved with consecutiveDown := 0 }, .lowered next.piBps proposed)

/-- `update_premium`, from the bootstrap hold on. -/
def act (next : PalwPremiumStateV1) (params : PalwPremiumParams) :
    Except ArithFault (PalwPremiumStateV1 × PalwPremiumDecision) :=
  if next.windowsElapsed ≤ params.bootstrapHoldWindows then
    .ok (next.heldReset params.maturationWindows, .holdBootstrap)
  else if params.consecutiveWindows ≤ (debounce next params).consecutiveUp then
    move (debounce next params) params .up
  else if params.consecutiveWindows ≤ (debounce next params).consecutiveDown then
    move (debounce next params) params .down
  else .ok ((debounce next params).pushDelta 0 params.maturationWindows, .holdDeadband)

def PalwPremiumStateV1.elapsed (s : PalwPremiumStateV1) : PalwPremiumStateV1 :=
  { s with windowsElapsed := saturatingAddU32 s.windowsElapsed 1 }

/-- The controller over one window. -/
def updatePremium (state : PalwPremiumStateV1) (sample : PalwWindowSample)
    (params : PalwPremiumParams) (degraded : Bool) :
    Except ArithFault (PalwPremiumStateV1 × PalwPremiumDecision) :=
  if degraded then .ok (state.elapsed.heldReset params.maturationWindows, .holdDegraded)
  else if sample.orderedSlotCu < params.nStatSlotCu then
    .ok (state.elapsed.heldReset params.maturationWindows, .holdThinMarket)
  else do
    let next ← foldSample state.elapsed sample params
    act next params

/-! ## Rounding -/

theorem exists_divRne_eq_ok (num den : ℕ) (hden : den ≠ 0) (hnum : 2 * num ≤ U128_MAX) :
    ∃ q, divRne num den = .ok q ∧ (∀ lo, lo * den ≤ num → lo ≤ q) ∧
      ∀ hi, num ≤ hi * den → q ≤ hi := by
  have hmod : num % den ≤ num := Nat.mod_le num den
  have hfloor : num / den ≤ num := Nat.div_le_self num den
  have hlow : ∀ lo, lo * den ≤ num → lo ≤ num / den := fun lo hlo =>
    (Nat.le_div_iff_mul_le (Nat.pos_of_ne_zero hden)).mpr hlo
  have hdiv : divRne num den = if den < num % den * 2 ∨ num % den * 2 = den ∧ num / den % 2 = 1
      then machineAdd U128_MAX (num / den) 1 else .ok (num / den) := by
    unfold divRne
    rw [machineDiv_of_ne hden, machineMul_of_le (by omega)]
    rfl
  rw [hdiv]
  split
  · next hup =>
    have hpos : 0 < num % den := by omega
    refine ⟨num / den + 1, machineAdd_of_le (by omega),
      fun lo hlo => (hlow lo hlo).trans (by omega), fun hi hhi => ?_⟩
    -- The remainder is positive, so the exact quotient is strictly above its floor.
    have hexact : den * (num / den) + num % den = num := Nat.div_add_mod num den
    refine (Nat.mul_lt_mul_right (Nat.pos_of_ne_zero hden)).mp ?_
    rw [Nat.mul_comm (num / den)]
    omega
  · exact ⟨num / den, rfl, hlow, fun hi hhi => Nat.div_le_of_le_mul (by rwa [Nat.mul_comm])⟩

theorem asU32_of_le {n : ℕ} (h : n ≤ U32_MAX) : asU32 n = n :=
  Nat.mod_eq_of_lt (by unfold U32_MAX at h; omega)

/-! ## What one window does -/

/-- What the parameters must satisfy for the controller to keep its promises: the parts of the
consistency check that matter here, and the two bounds that check leaves out. -/
structure PalwPremiumParams.Sound (params : PalwPremiumParams) : Prop where
  consecutiveWindows_pos : 0 < params.consecutiveWindows
  alpha_le : params.emaAlphaBps ≤ PALW_PREMIUM_BPS_ONE
  one_mem : params.piMinBps ≤ PALW_PREMIUM_BPS_ONE ∧ PALW_PREMIUM_BPS_ONE ≤ params.piMaxBps
  kappaDown_le : params.kappaDownBps ≤ PALW_PREMIUM_BPS_ONE
  deltaCap_lt : params.deltaCapBps < U32_MAX

theorem PalwPremiumParams.sound_of_isConsistent {params : PalwPremiumParams}
    (h : params.isConsistent = .ok true) (hdown : params.kappaDownBps ≤ PALW_PREMIUM_BPS_ONE)
    (hcap : params.deltaCapBps < U32_MAX) : params.Sound := by
  have hinner : params.isConsistentInner = true := by
    unfold isConsistent at h
    obtain ⟨minStep, -, h⟩ := bind_eq_ok.mp h
    split at h
    · cases h
    obtain ⟨nonEmpty, -, h⟩ := bind_eq_ok.mp h
    split at h
    · cases h
    obtain ⟨calibrated, -, h⟩ := bind_eq_ok.mp h
    split at h
    · cases h
    exact Except.ok.inj h
  simp only [isConsistentInner, Bool.and_eq_true, decide_eq_true_eq] at hinner
  obtain ⟨⟨⟨⟨⟨⟨⟨⟨⟨⟨⟨⟨-, -⟩, halpha⟩, -⟩, -⟩, hpos⟩, -⟩, -⟩, -⟩, hmin⟩, hmax⟩, -⟩, -⟩ := hinner
  exact ⟨hpos, halpha, ⟨hmin, hmax⟩, hdown, hcap⟩

theorem exists_emaStep_eq_ok {old sample alphaBps : ℕ} (hold : old ≤ U32_MAX)
    (hsample : sample ≤ U32_MAX) (halpha : alphaBps ≤ PALW_PREMIUM_BPS_ONE) :
    ∃ q, emaStep old sample alphaBps = .ok q ∧ q ≤ U32_MAX := by
  have hkept := Nat.mul_le_mul_right (PALW_PREMIUM_BPS_ONE - alphaBps) hold
  have hadded := Nat.mul_le_mul_right alphaBps hsample
  -- A weighted mean of two `u32` values, times the whole weight.
  have hblend : old * (PALW_PREMIUM_BPS_ONE - alphaBps) + sample * alphaBps ≤
      U32_MAX * PALW_PREMIUM_BPS_ONE := by
    refine (add_le_add hkept hadded).trans_eq ?_
    rw [← Nat.mul_add, Nat.sub_add_cancel halpha]
  have hfits : 2 * (U32_MAX * PALW_PREMIUM_BPS_ONE) ≤ U128_MAX := by decide
  obtain ⟨q, hq, -, hupper⟩ := exists_divRne_eq_ok
    (old * (PALW_PREMIUM_BPS_ONE - alphaBps) + sample * alphaBps) PALW_PREMIUM_BPS_ONE (by decide)
    (by omega)
  refine ⟨q, ?_, hupper _ hblend⟩
  refine bind_eq_ok.mpr ⟨_, machineSub_of_le halpha, ?_⟩
  refine bind_eq_ok.mpr ⟨_, machineMul_of_le (by omega), ?_⟩
  refine bind_eq_ok.mpr ⟨_, machineMul_of_le (by omega), ?_⟩
  refine bind_eq_ok.mpr ⟨_, machineAdd_of_le (by omega), bind_eq_ok.mpr ⟨q, hq, ?_⟩⟩
  rw [asU32_of_le (hupper _ hblend)]

theorem exists_shortfallBps_eq_ok {sample : PalwWindowSample}
    (hcu : sample.orderedSlotCu < 2 ^ 100) :
    ∃ r, sample.shortfallBps = .ok r ∧ r ≤ PALW_PREMIUM_BPS_ONE := by
  unfold PalwWindowSample.shortfallBps
  split
  · exact ⟨0, rfl, Nat.zero_le _⟩
  · next hne =>
    have hcap : min sample.failedSlotCu sample.orderedSlotCu * PALW_PREMIUM_BPS_ONE ≤
        PALW_PREMIUM_BPS_ONE * sample.orderedSlotCu := by
      rw [Nat.mul_comm]
      exact Nat.mul_le_mul_left _ (Nat.min_le_right _ _)
    have hbound : min sample.failedSlotCu sample.orderedSlotCu * PALW_PREMIUM_BPS_ONE ≤
        PALW_PREMIUM_BPS_ONE * 2 ^ 100 := hcap.trans (Nat.mul_le_mul_left _ hcu.le)
    obtain ⟨r, hr, -, hupper⟩ := exists_divRne_eq_ok
      (min sample.failedSlotCu sample.orderedSlotCu * PALW_PREMIUM_BPS_ONE) sample.orderedSlotCu hne
      ((Nat.mul_le_mul_left 2 hbound).trans (by decide))
    have hle := hupper _ hcap
    refine ⟨r, bind_eq_ok.mpr ⟨_, machineMul_of_le (hbound.trans (by decide)),
      bind_eq_ok.mpr ⟨r, hr, ?_⟩⟩, hle⟩
    rw [asU32_of_le (hle.trans (by decide))]

theorem exists_intensityBps_eq_ok {sample : PalwWindowSample}
    (hcu : sample.orderedSlotCu < 2 ^ 100) :
    ∃ i, sample.intensityBps = .ok i ∧ i ≤ U32_MAX := by
  unfold PalwWindowSample.intensityBps
  split
  · exact ⟨0, rfl, Nat.zero_le _⟩
  · next hne =>
    have hbound : sample.orderedSlotCu * PALW_PREMIUM_BPS_ONE ≤ 2 ^ 100 * PALW_PREMIUM_BPS_ONE :=
      Nat.mul_le_mul_right _ hcu.le
    obtain ⟨i, hi, -⟩ := exists_divRne_eq_ok (sample.orderedSlotCu * PALW_PREMIUM_BPS_ONE)
      sample.snapshotBondSompi hne ((Nat.mul_le_mul_left 2 hbound).trans (by decide))
    exact ⟨min i U32_MAX, bind_eq_ok.mpr ⟨_, machineMul_of_le (hbound.trans (by decide)),
      bind_eq_ok.mpr ⟨i, hi, rfl⟩⟩, Nat.min_le_right _ _⟩

theorem exists_foldSample_eq_ok {next : PalwPremiumStateV1} {sample : PalwWindowSample}
    {params : PalwPremiumParams} (halpha : params.emaAlphaBps ≤ PALW_PREMIUM_BPS_ONE)
    (hcu : sample.orderedSlotCu < 2 ^ 100) (hr : next.rEmaBps ≤ U32_MAX)
    (hi : next.iEmaBps ≤ U32_MAX) :
    ∃ rEma iEma, rEma ≤ U32_MAX ∧ iEma ≤ U32_MAX ∧ foldSample next sample params =
      .ok { next with rEmaBps := rEma, iEmaBps := iEma, emaSeeded := true } := by
  obtain ⟨r, hshort, hrle⟩ := exists_shortfallBps_eq_ok hcu
  obtain ⟨i, hint, hile⟩ := exists_intensityBps_eq_ok hcu
  have hrle' : r ≤ U32_MAX := hrle.trans (by decide)
  obtain ⟨rEma, hrEma, hrEmaLe⟩ := exists_emaStep_eq_ok hr hrle' halpha
  obtain ⟨iEma, hiEma, hiEmaLe⟩ := exists_emaStep_eq_ok hi hile halpha
  cases hseeded : next.emaSeeded with
  | true =>
    refine ⟨rEma, iEma, hrEmaLe, hiEmaLe, bind_eq_ok.mpr ⟨r, hshort, bind_eq_ok.mpr ⟨i, hint, ?_⟩⟩⟩
    rw [if_pos hseeded]
    refine bind_eq_ok.mpr ⟨rEma, hrEma, bind_eq_ok.mpr ⟨iEma, hiEma, ?_⟩⟩
    rw [← hseeded]
  | false =>
    refine ⟨r, i, hrle', hile, bind_eq_ok.mpr ⟨r, hshort, bind_eq_ok.mpr ⟨i, hint, ?_⟩⟩⟩
    rw [if_neg (by simp [hseeded])]

theorem exists_proposedPi_eq_ok {piBps : ℕ} {params : PalwPremiumParams} (hparams : params.Sound)
    (hmin : params.piMinBps ≤ piBps) (hmax : piBps ≤ params.piMaxBps) (dir : PremiumDirection) :
    ∃ q, proposedPi piBps params dir = .ok q ∧ params.piMinBps ≤ q ∧ q ≤ params.piMaxBps := by
  have hmaxFits : params.piMaxBps ≤ U32_MAX := params.fits _ (by simp)
  have hupFits : params.kappaUpBps ≤ U32_MAX := params.fits _ (by simp)
  have hone : PALW_PREMIUM_BPS_ONE ≠ 0 := by decide
  have hfits : 2 * (U32_MAX * (PALW_PREMIUM_BPS_ONE + U32_MAX)) ≤ U128_MAX := by decide
  cases dir with
  | up =>
    have hprod : piBps * (PALW_PREMIUM_BPS_ONE + params.kappaUpBps) ≤
        U32_MAX * (PALW_PREMIUM_BPS_ONE + U32_MAX) := Nat.mul_le_mul (by omega) (by omega)
    obtain ⟨q, hq, hlower, -⟩ := exists_divRne_eq_ok
      (piBps * (PALW_PREMIUM_BPS_ONE + params.kappaUpBps)) PALW_PREMIUM_BPS_ONE hone (by omega)
    have hge : piBps ≤ q := hlower _ (Nat.mul_le_mul_left _ (Nat.le_add_right _ _))
    have hfactor : PALW_PREMIUM_BPS_ONE + params.kappaUpBps ≤ U128_MAX :=
      (Nat.add_le_add_left hupFits _).trans (by decide)
    refine ⟨min q params.piMaxBps, bind_eq_ok.mpr ⟨_, machineAdd_of_le hfactor, ?_⟩, by omega,
      by omega⟩
    refine bind_eq_ok.mpr ⟨_, machineMul_of_le (by omega), bind_eq_ok.mpr ⟨q, hq, ?_⟩⟩
    rw [asU32_of_le (by omega)]
  | down =>
    have hprod : piBps * (PALW_PREMIUM_BPS_ONE - params.kappaDownBps) ≤
        piBps * PALW_PREMIUM_BPS_ONE := Nat.mul_le_mul_left _ (Nat.sub_le _ _)
    have hbound : piBps * PALW_PREMIUM_BPS_ONE ≤ U32_MAX * (PALW_PREMIUM_BPS_ONE + U32_MAX) :=
      Nat.mul_le_mul (by omega) (Nat.le_add_right _ _)
    obtain ⟨q, hq, -, hupper⟩ := exists_divRne_eq_ok
      (piBps * (PALW_PREMIUM_BPS_ONE - params.kappaDownBps)) PALW_PREMIUM_BPS_ONE hone (by omega)
    have hle : q ≤ piBps := hupper _ hprod
    refine ⟨max q params.piMinBps, bind_eq_ok.mpr ⟨_, machineSub_of_le hparams.kappaDown_le, ?_⟩,
      by omega, by omega⟩
    refine bind_eq_ok.mpr ⟨_, machineMul_of_le (by omega), bind_eq_ok.mpr ⟨q, hq, ?_⟩⟩
    rw [asU32_of_le (by omega)]

/-- A window of a run, with the states around it. -/
structure PremiumWindow where
  before : PalwPremiumStateV1
  sample : PalwWindowSample
  degraded : Bool
  after : PalwPremiumStateV1

def PremiumWindow.change (w : PremiumWindow) : ℕ := absDiff w.after.piBps w.before.piBps

/-- A window that asks for a move: neither degraded nor thin, past the bootstrap, and its averages
outside the band. -/
def PremiumWindow.qualifies (w : PremiumWindow) (params : PalwPremiumParams)
    (direction : PremiumDirection) : Bool :=
  !w.degraded && params.nStatSlotCu ≤ w.sample.orderedSlotCu &&
    params.bootstrapHoldWindows < w.after.windowsElapsed && w.after.wants params direction

/-- A counter restarts in a window that does not ask. -/
def PremiumWindow.Counted (w : PremiumWindow) (params : PalwPremiumParams) : Prop :=
  ∀ direction, w.after.counter direction ≤
    if w.qualifies params direction then w.before.counter direction + 1 else 0

/-- What every window of a run keeps. -/
structure PremiumWindow.Regular (w : PremiumWindow) (params : PalwPremiumParams) : Prop where
  band : params.piMinBps ≤ w.after.piBps ∧ w.after.piBps ≤ params.piMaxBps
  averages : w.after.rEmaBps ≤ U32_MAX ∧ w.after.iEmaBps ≤ U32_MAX
  ring : w.after.recentDeltaBps =
    (w.before.pushDelta w.change params.maturationWindows).recentDeltaBps
  limited : w.change ≠ 0 →
    saturatingAddU32 w.before.cumulativeDeltaBps w.change ≤ params.deltaCapBps
  counted : w.Counted params
  debounced : w.change ≠ 0 → ∃ direction, w.qualifies params direction = true ∧
    params.consecutiveWindows ≤ w.before.counter direction + 1

variable {params : PalwPremiumParams} {state next : PalwPremiumStateV1} {sample : PalwWindowSample}
  {degraded : Bool} {windows : List PremiumWindow}

theorem absDiff_eq_zero {a b : ℕ} : absDiff a b = 0 ↔ a = b := by
  unfold absDiff
  omega

structure Standing (params : PalwPremiumParams) (state next : PalwPremiumStateV1) : Prop where
  band : params.piMinBps ≤ state.piBps ∧ state.piBps ≤ params.piMaxBps
  pi_eq : next.piBps = state.piBps
  ring_eq : next.recentDeltaBps = state.recentDeltaBps
  averages : next.rEmaBps ≤ U32_MAX ∧ next.iEmaBps ≤ U32_MAX

theorem PremiumWindow.Regular.of_hold (hnext : Standing params state next)
    (hcounted : PremiumWindow.Counted ⟨state, sample, degraded, next⟩ params) :
    PremiumWindow.Regular ⟨state, sample, degraded, next.pushDelta 0 params.maturationWindows⟩
      params := by
  have hchange : PremiumWindow.change
      ⟨state, sample, degraded, next.pushDelta 0 params.maturationWindows⟩ = 0 :=
    absDiff_eq_zero.mpr hnext.pi_eq
  refine ⟨hnext.pi_eq.symm ▸ hnext.band, hnext.averages, ?_, fun h => (h hchange).elim, hcounted,
    fun h => (h hchange).elim⟩
  rw [hchange]
  simp only [PalwPremiumStateV1.pushDelta, hnext.ring_eq]

theorem PremiumWindow.Regular.of_heldReset (hnext : Standing params state next) :
    PremiumWindow.Regular ⟨state, sample, degraded, next.heldReset params.maturationWindows⟩
      params := by
  have hcounted : ∀ dir, PalwPremiumStateV1.counter
      { next with consecutiveUp := 0, consecutiveDown := 0 } dir = 0 := fun dir => by
    cases dir <;> rfl
  exact of_hold ⟨hnext.band, hnext.pi_eq, hnext.ring_eq, hnext.averages⟩ fun dir =>
    (hcounted dir).trans_le (Nat.zero_le _)

theorem exists_move_regular (hparams : params.Sound) {dir : PremiumDirection}
    (hnext : Standing params state next)
    (hcounted : PremiumWindow.Counted ⟨state, sample, degraded, next⟩ params)
    (hfull : params.consecutiveWindows ≤ next.counter dir) :
    ∃ result, move next params dir = .ok result ∧
      PremiumWindow.Regular ⟨state, sample, degraded, result.1⟩ params := by
  obtain ⟨q, hq, hmin, hmax⟩ :=
    exists_proposedPi_eq_ok hparams (hnext.pi_eq ▸ hnext.band.1) (hnext.pi_eq ▸ hnext.band.2) dir
  have hasks : ∃ d, PremiumWindow.qualifies ⟨state, sample, degraded, next⟩ params d = true ∧
      params.consecutiveWindows ≤ state.counter d + 1 := by
    have hpos := hparams.consecutiveWindows_pos
    have hle : next.counter dir ≤ _ := hcounted dir
    split at hle
    · next hqualifies => exact ⟨dir, hqualifies, hfull.trans hle⟩
    · omega
  unfold move
  rw [hq]
  change ∃ result, (if absDiff q next.piBps = 0 then _ else _) = _ ∧ _
  split
  · exact ⟨_, rfl, .of_hold hnext hcounted⟩
  split
  · exact ⟨_, rfl, .of_hold hnext hcounted⟩
  next hlimit =>
  have hcumulative : next.cumulativeDeltaBps = state.cumulativeDeltaBps := by
    unfold PalwPremiumStateV1.cumulativeDeltaBps
    rw [hnext.ring_eq]
  have hlimited : saturatingAddU32 state.cumulativeDeltaBps (absDiff q state.piBps) ≤
      params.deltaCapBps := by
    rw [← hcumulative, ← hnext.pi_eq]
    exact Nat.le_of_not_lt hlimit
  have hpushed : ((next.pushDelta (absDiff q next.piBps) params.maturationWindows).recentDeltaBps) =
      (state.pushDelta (absDiff q state.piBps) params.maturationWindows).recentDeltaBps := by
    simp only [PalwPremiumStateV1.pushDelta, hnext.ring_eq, hnext.pi_eq]
  -- the counter of the dir moved in restarts, the other stays
  cases dir
  all_goals
    refine ⟨_, rfl, ⟨hmin, hmax⟩, hnext.averages, hpushed, fun _ => hlimited, fun other => ?_,
      fun _ => hasks⟩
    cases other <;> first | exact Nat.zero_le _ | exact hcounted .up | exact hcounted .down

theorem counter_debounce_le (dir : PremiumDirection) :
    (debounce next params).counter dir ≤
      if next.wants params dir then next.counter dir + 1 else 0 := by
  cases dir
  all_goals
    simp only [PalwPremiumStateV1.counter, debounce]
    split
    · exact min_le_left _ _
    · exact le_refl 0

theorem exists_act_regular (hparams : params.Sound) (hnext : Standing params state next)
    (hcounter : ∀ dir, next.counter dir = state.counter dir)
    (hsteady : degraded = false) (hthick : params.nStatSlotCu ≤ sample.orderedSlotCu) :
    ∃ result, act next params = .ok result ∧
      PremiumWindow.Regular ⟨state, sample, degraded, result.1⟩ params := by
  unfold act
  split
  · exact ⟨_, rfl, .of_heldReset hnext⟩
  next hpast =>
  -- Past the bootstrap too, a window asks for a dir exactly if its averages do.
  have hqualifies : ∀ dir, PremiumWindow.qualifies
      ⟨state, sample, degraded, debounce next params⟩ params dir =
        next.wants params dir := by
    intro dir
    have helapsed : params.bootstrapHoldWindows < (debounce next params).windowsElapsed :=
      Nat.lt_of_not_le hpast
    have hwants : (debounce next params).wants params dir = next.wants params dir := by
      cases dir <;> rfl
    simp only [PremiumWindow.qualifies, hsteady, hthick, helapsed, hwants, Bool.not_false,
      decide_true, Bool.true_and]
  have hcounted : PremiumWindow.Counted ⟨state, sample, degraded, debounce next params⟩ params := by
    intro dir
    rw [hqualifies, ← hcounter]
    exact counter_debounce_le dir
  have hdebounced : Standing params state (debounce next params) :=
    ⟨hnext.band, hnext.pi_eq, hnext.ring_eq, hnext.averages⟩
  split
  · next hfull => exact exists_move_regular hparams hdebounced hcounted hfull
  split
  · next hfull => exact exists_move_regular hparams hdebounced hcounted hfull
  · exact ⟨_, rfl, .of_hold hdebounced hcounted⟩

theorem exists_updatePremium_regular (hparams : params.Sound) (hcu : sample.orderedSlotCu < 2 ^ 100)
    (hband : params.piMinBps ≤ state.piBps ∧ state.piBps ≤ params.piMaxBps)
    (hema : state.rEmaBps ≤ U32_MAX ∧ state.iEmaBps ≤ U32_MAX) (degraded : Bool) :
    ∃ result, updatePremium state sample params degraded = .ok result ∧
      PremiumWindow.Regular ⟨state, sample, degraded, result.1⟩ params := by
  unfold updatePremium
  split
  · exact ⟨_, rfl, .of_heldReset ⟨hband, rfl, rfl, hema⟩⟩
  next hsteady =>
  split
  · exact ⟨_, rfl, .of_heldReset ⟨hband, rfl, rfl, hema⟩⟩
  next hthick =>
  have hfold := @exists_foldSample_eq_ok state.elapsed sample params hparams.alpha_le hcu hema.1
    hema.2
  obtain ⟨rEma, iEma, hr, hi, hfold⟩ := hfold
  rw [hfold]
  refine exists_act_regular hparams ⟨hband, rfl, rfl, ⟨hr, hi⟩⟩ (fun dir => ?_)
    (Bool.eq_false_of_not_eq_true hsteady) (Nat.le_of_not_lt hthick)
  cases dir <;> rfl

/-! ## Runs -/

def premiumStep (params : PalwPremiumParams) (run : PalwPremiumStateV1 × List PremiumWindow)
    (input : PalwWindowSample × Bool) :
    Except ArithFault (PalwPremiumStateV1 × List PremiumWindow) := do
  let (next, _) ← updatePremium run.1 input.1 params input.2
  .ok (next, ⟨run.1, input.1, input.2, next⟩ :: run.2)

/-- The state after a sequence of samples with their degraded flags, from the neutral state, and the
windows gone through, newest first. -/
def premiumRun (params : PalwPremiumParams) (inputs : List (PalwWindowSample × Bool)) :
    Except ArithFault (PalwPremiumStateV1 × List PremiumWindow) :=
  inputs.foldlM (premiumStep params) (.neutral, [])

def travel (windows : List PremiumWindow) : ℕ := (windows.map PremiumWindow.change).sum

/-- The promises: band, ring, rate limit and debounce. -/
structure Controlled (params : PalwPremiumParams) (state : PalwPremiumStateV1)
    (windows : List PremiumWindow) : Prop where
  band : params.piMinBps ≤ state.piBps ∧ state.piBps ≤ params.piMaxBps
  ring : state.recentDeltaBps.length ≤ params.maturationWindows
  rate : ∀ stretch, stretch <:+: windows → stretch.length ≤ params.maturationWindows →
    travel stretch ≤ params.deltaCapBps
  debounce : ∀ w older, w :: older <:+ windows → w.after.piBps ≠ w.before.piBps →
    ∃ direction, ∃ recent, recent <+: w :: older ∧ recent.length = params.consecutiveWindows ∧
      ∀ v ∈ recent, v.qualifies params direction = true

/-- What a step of the run needs beside the promises: the ring holds the changes of the last
windows, and a counter counts no more than the windows that asked for its direction up to now. -/
structure Recorded (params : PalwPremiumParams) (state : PalwPremiumStateV1)
    (windows : List PremiumWindow) : Prop extends Controlled params state windows where
  averages : state.rEmaBps ≤ U32_MAX ∧ state.iEmaBps ≤ U32_MAX
  recent : state.recentDeltaBps =
    ((windows.take params.maturationWindows).map PremiumWindow.change).reverse
  counters : ∀ direction, state.counter direction ≤
    (windows.takeWhile (·.qualifies params direction)).length

theorem travel_cons (w : PremiumWindow) (windows : List PremiumWindow) :
    travel (w :: windows) = w.change + travel windows := by
  rw [travel, map_cons, sum_cons, travel]

theorem travel_add_le (hparams : params.Sound) {change : ℕ} (hrecent : state.recentDeltaBps =
      ((windows.take params.maturationWindows).map PremiumWindow.change).reverse)
    (h : saturatingAddU32 state.cumulativeDeltaBps change ≤ params.deltaCapBps) :
    travel (windows.take params.maturationWindows) + change ≤ params.deltaCapBps := by
  have hcap := hparams.deltaCap_lt
  have hsum : state.cumulativeDeltaBps = min state.recentDeltaBps.sum U32_MAX := satSum_eq U32_MAX _
  rw [hsum, hrecent, sum_reverse, saturatingAddU32] at h
  unfold travel
  omega

theorem pushDelta_recent (w : PremiumWindow) (hrecent : state.recentDeltaBps =
      ((windows.take params.maturationWindows).map PremiumWindow.change).reverse) :
    (state.pushDelta w.change params.maturationWindows).recentDeltaBps =
      (((w :: windows).take params.maturationWindows).map PremiumWindow.change).reverse := by
  change (state.recentDeltaBps ++ [w.change]).drop
    ((state.recentDeltaBps ++ [w.change]).length - params.maturationWindows) = _
  rw [hrecent, ← reverse_cons, length_reverse, ← reverse_take, ← map_cons,
    ← map_take]
  cases params.maturationWindows with
  | zero => rfl
  | succ m =>
    rw [take_succ_cons, take_succ_cons, take_take, min_eq_left (by omega)]

theorem qualifies_of_mem_take {α : Type*} {p : α → Bool} {l : List α} {n : ℕ}
    (h : n ≤ (l.takeWhile p).length) : ∀ a ∈ l.take n, p a = true := by
  intro a ha
  have htake : l.take n = (l.takeWhile p).take n := by
    obtain ⟨rest, hrest⟩ := takeWhile_prefix p (l := l)
    conv_lhs => rw [← hrest, take_append_of_le_length h]
  rw [htake] at ha
  exact mem_takeWhile_imp (mem_of_mem_take ha)

theorem Recorded.rate_cons {w : PremiumWindow} (hparams : params.Sound)
    (hrun : Recorded params w.before windows) (hw : w.Regular params) {stretch : List PremiumWindow}
    (hstretch : stretch <:+: w :: windows) (hlength : stretch.length ≤ params.maturationWindows) :
    travel stretch ≤ params.deltaCapBps := by
  rcases infix_cons_iff.mp hstretch with hpre | hpast
  · rcases prefix_cons_iff.mp hpre with rfl | ⟨rest, rfl, hrest⟩
    · exact Nat.zero_le _
    rw [length_cons] at hlength
    rw [travel_cons]
    by_cases hchange : w.change = 0
    · rw [hchange, zero_add]
      exact hrun.rate rest hrest.isInfix (by omega)
    · -- The stretch before this window lies inside the horizon the limiter has summed up.
      have hlimited := travel_add_le hparams hrun.recent (hw.limited hchange)
      obtain ⟨others, hothers⟩ := prefix_take_iff.mpr ⟨hrest, (by omega :
        rest.length ≤ params.maturationWindows)⟩
      rw [← hothers, travel, map_append, sum_append] at hlimited
      unfold travel
      omega
  · exact hrun.rate stretch hpast hlength

theorem Recorded.cons {w : PremiumWindow} (hparams : params.Sound)
    (hrun : Recorded params w.before windows) (hw : w.Regular params) :
    Recorded params w.after (w :: windows) := by
  have hrecent := hw.ring.trans (pushDelta_recent w hrun.recent)
  have hcounted : ∀ dir, w.qualifies params dir = true →
      w.before.counter dir + 1 ≤
        ((w :: windows).takeWhile (·.qualifies params dir)).length := by
    intro dir hq
    rw [takeWhile_cons, if_pos hq, length_cons]
    exact Nat.succ_le_succ (hrun.counters dir)
  refine ⟨⟨hw.band, ?_, fun _ => hrun.rate_cons hparams hw, ?_⟩, hw.averages, hrecent, ?_⟩
  · rw [hrecent, length_reverse, length_map]
    exact length_take_le _ _
  · intro v older hsuffix hmoved
    rcases suffix_cons_iff.mp hsuffix with heq | hpast
    · obtain ⟨rfl, rfl⟩ := List.cons.inj heq
      obtain ⟨dir, hq, hfull⟩ := hw.debounced (fun h => hmoved (absDiff_eq_zero.mp h))
      have hwhole := hfull.trans (hcounted dir hq)
      refine ⟨dir, (v :: older).take params.consecutiveWindows, take_prefix _ _, ?_,
        qualifies_of_mem_take hwhole⟩
      exact length_take_of_le (hwhole.trans (takeWhile_sublist _).length_le)
    · exact hrun.debounce v older hpast hmoved
  · intro dir
    refine (hw.counted dir).trans ?_
    split
    · next hq => exact hcounted dir hq
    · exact Nat.zero_le _

theorem recorded_neutral (hparams : params.Sound) : Recorded params .neutral [] := by
  refine ⟨⟨hparams.one_mem, Nat.zero_le _, fun stretch h _ => ?_, fun w older h => ?_⟩,
    ⟨Nat.zero_le _, Nat.zero_le _⟩, by rw [take_nil]; rfl, fun dir => ?_⟩
  · rw [infix_nil.mp h]
    exact Nat.zero_le _
  · exact absurd (suffix_nil.mp h) (cons_ne_nil w older)
  · cases dir <;> exact Nat.zero_le _

theorem exists_run_recorded (hparams : params.Sound) {inputs : List (PalwWindowSample × Bool)}
    (hcu : ∀ input ∈ inputs, input.1.orderedSlotCu < 2 ^ 100)
    {run : PalwPremiumStateV1 × List PremiumWindow} (hrun : Recorded params run.1 run.2) :
    ∃ result, inputs.foldlM (premiumStep params) run = .ok result ∧
      Recorded params result.1 result.2 := by
  induction inputs generalizing run with
  | nil => exact ⟨run, rfl, hrun⟩
  | cons input inputs ih =>
    obtain ⟨⟨next, decision⟩, hupdate, hw⟩ := exists_updatePremium_regular hparams
      (hcu input mem_cons_self) hrun.band hrun.averages input.2
    obtain ⟨result, hrest, hresult⟩ := @ih (forall_mem_cons.mp hcu).2
      (next, ⟨run.1, input.1, input.2, next⟩ :: run.2) (hrun.cons hparams hw)
    exact ⟨result, foldlM_cons_eq_ok.mpr ⟨_, bind_eq_ok.mpr ⟨_, hupdate, rfl⟩, hrest⟩, hresult⟩

/-- Consistent parameters whose lowering step is at most the whole and whose cap is below the
largest `u32` keep the controller inside its band and under its rate limit, whatever the samples. -/
theorem premiumRun_controlled (hconsistent : params.isConsistent = .ok true)
    (hdown : params.kappaDownBps ≤ PALW_PREMIUM_BPS_ONE) (hcap : params.deltaCapBps < U32_MAX)
    (inputs : List (PalwWindowSample × Bool))
    (hcu : ∀ input ∈ inputs, input.1.orderedSlotCu < 2 ^ 100) :
    ∃ state windows, premiumRun params inputs = .ok (state, windows) ∧
      Controlled params state windows := by
  have hparams := params.sound_of_isConsistent hconsistent hdown hcap
  obtain ⟨⟨state, windows⟩, hrun, hrecorded⟩ :=
    @exists_run_recorded params hparams inputs hcu (.neutral, []) (recorded_neutral hparams)
  exact ⟨state, windows, hrun, hrecorded.toControlled⟩

/-- The parameters of the genesis table, over forty windows that fail half their orders: past the
thirty of the bootstrap the premium rises five times. -/
theorem premiumRun_controlled_raises : ∃ state windows,
    premiumRun (.genesisDefaults 864000) (replicate 40 (⟨1000, 500, 1000⟩, false)) =
      .ok (state, windows) ∧
    state.piBps = 10773 ∧ Controlled (.genesisDefaults 864000) state windows := by
  obtain ⟨state, windows, hrun, hcontrolled⟩ : ∃ state windows, premiumRun (.genesisDefaults 864000)
      (replicate 40 (⟨1000, 500, 1000⟩, false)) = .ok (state, windows) ∧
      Controlled (.genesisDefaults 864000) state windows :=
    premiumRun_controlled (by decide) (by decide) (by decide) _ (by simp)
  have hrisen : (premiumRun (.genesisDefaults 864000)
      (replicate 40 (⟨1000, 500, 1000⟩, false))).map (·.1.piBps) = .ok 10773 := by
    decide +kernel
  rw [hrun] at hrisen
  exact ⟨state, windows, hrun, Except.ok.inj hrisen, hcontrolled⟩

/-- A lowering step of more than the whole. -/
def overLowering : PalwPremiumParams :=
  { PalwPremiumParams.genesisDefaults 864000 with
    kappaDownBps := 10001, consecutiveWindows := 1, bootstrapHoldWindows := 0, fits := by decide }

/-- Parameters whose cap is the largest `u32`, with the widest band. -/
def saturatedCap : PalwPremiumParams :=
  { PalwPremiumParams.genesisDefaults 864000 with
    emaAlphaBps := 10000, kappaUpBps := U32_MAX, kappaDownBps := 10000, consecutiveWindows := 1,
    deltaCapBps := U32_MAX, maturationWindows := 2, piMaxBps := U32_MAX, bootstrapHoldWindows := 0,
    p0BpsOfLeaf := 5000, p0MaxBpsEclipse := 6000, r0BaselineBps := 0, fits := by decide }

/-- The consistency check accepts both. A lowering step of more than the whole underflows; under a
saturated cap two windows travel twice as far as it allows. -/
theorem premiumRun_breaks :
    (overLowering.isConsistent = .ok true ∧
      (premiumRun overLowering [(⟨530, 0, 10 ^ 9⟩, false)]).map Prod.fst = .error .overflow) ∧
    saturatedCap.isConsistent = .ok true ∧
      ((premiumRun saturatedCap [(⟨530, 530, 10 ^ 9⟩, false), (⟨530, 0, 10 ^ 9⟩, false)]).map
        fun run => (run.2.length, travel run.2)) = .ok (2, 8589919590) := by
  decide +kernel

end Misaka.Palw
