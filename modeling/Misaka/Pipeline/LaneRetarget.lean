import Mathlib.Data.Nat.Bitwise
import Mathlib.Data.Nat.Size
import Misaka.Pipeline.LaneDifficulty

/-!
# Bounds of a lane's retarget

`lane_retarget_bits` averages the sampled targets, scales the average by a clamped duration, cuts it
at the lane's maximum and writes it in compact form, which keeps the leading bytes of a target.
-/

namespace Misaka.Pipeline

open Misaka.Core List

def droppedBits (target : ℕ) : ℕ := 8 * (target.size / 8 - 2)

def compactRound (target : ℕ) : ℕ := target / 2 ^ droppedBits target * 2 ^ droppedBits target

def compactWord (size mantissa : ℕ) : ℕ := mantissa ||| (size <<< 24) % 2 ^ 32

theorem compactWord_eq (size mantissa : ℕ) (hsize : size < 2 ^ 8) (hmantissa : mantissa < 2 ^ 24) :
    compactWord size mantissa = 2 ^ 24 * size + mantissa := by
  rw [compactWord, Nat.shiftLeft_eq, Nat.mod_eq_of_lt (by omega),
    Nat.two_pow_add_eq_or_of_lt hmantissa,
    Nat.or_comm, Nat.mul_comm]

theorem fromCompactTargetBits_compactWord {size mantissa : ℕ} (hsize : size ≤ 33)
    (hmantissa : mantissa < 2 ^ 23) :
    fromCompactTargetBits (compactWord size mantissa) =
      if size ≤ 3 then mantissa / 2 ^ (8 * (3 - size))
      else mantissa * 2 ^ (8 * (size - 3)) % 2 ^ 256 := by
  have hword := compactWord_eq size mantissa (by omega) (by omega)
  have hexponent : compactWord size mantissa >>> 24 = size := by
    rw [hword, Nat.shiftRight_eq_div_pow]
    omega
  have hmask : compactWord size mantissa &&& 0xFFFFFF = mantissa := by
    have := Nat.and_two_pow_sub_one_eq_mod (compactWord size mantissa) 24
    rw [show (0xFFFFFF : ℕ) = 2 ^ 24 - 1 from rfl, this, hword]
    omega
  simp only [fromCompactTargetBits, hexponent, hmask]
  split
  · next hsmall =>
    have hle := Nat.div_le_self mantissa (2 ^ (8 * (3 - size)))
    rw [Nat.shiftRight_eq_div_pow, if_neg (by omega), Nat.zero_mod, Nat.shiftLeft_zero]
    exact Nat.mod_eq_of_lt (by omega)
  · next hlarge =>
    rw [if_neg (by omega), Nat.mod_eq_of_lt (by omega : 8 * (size - 3) < 256), Nat.shiftLeft_eq]

def mantissaUnder (size target : ℕ) : ℕ :=
  if size ≤ 3 then target * 2 ^ (8 * (3 - size)) else target / 2 ^ (8 * (size - 3))

theorem mantissaUnder_lt_iff {size target bound : ℕ} (hbound : 24 - bound ≤ 8 * size)
    (hle : bound ≤ 24) :
    mantissaUnder size target < 2 ^ bound ↔ target.size ≤ 8 * size + bound - 24 := by
  unfold mantissaUnder
  rw [Nat.size_le]
  split
  · next hsmall =>
    have hsplit : 2 ^ bound = 2 ^ (8 * size + bound - 24) * 2 ^ (8 * (3 - size)) := by
      rw [← pow_add, show 8 * size + bound - 24 + 8 * (3 - size) = bound by omega]
    rw [hsplit]
    exact Nat.mul_lt_mul_right (by positivity)
  · next hlarge =>
    rw [Nat.div_lt_iff_lt_mul (by positivity), ← pow_add,
      show bound + 8 * (size - 3) = 8 * size + bound - 24 by omega]

theorem mantissaUnder_div (size target : ℕ) :
    mantissaUnder size target / 2 ^ 8 = mantissaUnder (size + 1) target := by
  unfold mantissaUnder
  by_cases hsmall : size ≤ 2
  · rw [if_pos (by omega), if_pos (by omega),
      show 8 * (3 - size) = 8 * (3 - (size + 1)) + 8 by omega, pow_add, ← Nat.mul_assoc,
      Nat.mul_div_cancel _ (by positivity)]
  · by_cases heq : size = 3
    · subst heq
      simp
    · rw [if_neg (by omega), if_neg (by omega), Nat.div_div_eq_div_mul, ← pow_add,
        show 8 * (size - 3) + 8 = 8 * (size + 1 - 3) by omega]

variable {target average : ℕ}

theorem compactTargetBits_eq (hpos : 0 < target) (hfits : target < 2 ^ 256) :
    compactTargetBits target =
      compactWord (target.size / 8 + 1) (mantissaUnder (target.size / 8 + 1) target) := by
  have hsize : target.size ≤ 256 := Nat.size_le.mpr hfits
  have hsizePos : 0 < target.size := Nat.size_pos.mpr hpos
  set size := (target.size + 7) / 8 with hsizeEq
  have hword : mantissaUnder size target < 2 ^ 24 :=
    (mantissaUnder_lt_iff (by omega) (by omega)).mpr (by omega)
  have hcompact : (if size ≤ 3 then (target % 2 ^ 64) <<< (8 * (3 - size)) % 2 ^ 32
      else (target >>> (8 * (size - 3))) % 2 ^ 32) = mantissaUnder size target := by
    unfold mantissaUnder at hword ⊢
    split
    · next hsmall =>
      have hlt : target < 2 ^ 64 := (Nat.size_le.mp (Nat.le_refl _)).trans_le
        (Nat.pow_le_pow_right (by decide) (by omega))
      rw [if_pos hsmall] at hword
      rw [Nat.mod_eq_of_lt hlt, Nat.shiftLeft_eq, Nat.mod_eq_of_lt (by omega)]
    · next hlarge =>
      rw [if_neg hlarge] at hword
      rw [Nat.shiftRight_eq_div_pow, Nat.mod_eq_of_lt (by omega)]
  -- The sign bit of the mantissa is set exactly if the target fills its leading byte.
  have hsign : mantissaUnder size target &&& 0x00800000 = 0 ↔ target.size ≠ 8 * size := by
    have htest : mantissaUnder size target &&& 0x00800000 =
        ((mantissaUnder size target).testBit 23).toNat * 2 ^ 23 := Nat.and_two_pow _ 23
    have hlt := @mantissaUnder_lt_iff size target 23 (by omega) (by omega)
    rw [htest, Nat.testBit_eq_decide_div_mod_eq, Nat.mul_eq_zero, Bool.toNat_eq_zero,
      decide_eq_false_iff_not]
    omega
  unfold compactTargetBits
  rw [← hsizeEq]
  simp only [hcompact, ne_eq, hsign, not_not]
  split
  · next hfull =>
    rw [Nat.shiftRight_eq_div_pow, mantissaUnder_div, show target.size / 8 + 1 = size + 1 by omega]
    rfl
  · next hnot =>
    rw [show target.size / 8 + 1 = size by omega]
    rfl

theorem fromCompactTargetBits_compactTargetBits {target : ℕ} (hfits : target < 2 ^ 256) :
    fromCompactTargetBits (compactTargetBits target) = compactRound target := by
  rcases Nat.eq_zero_or_pos target with rfl | hpos
  · decide
  have hsize : target.size ≤ 256 := Nat.size_le.mpr hfits
  have hmantissa : mantissaUnder (target.size / 8 + 1) target < 2 ^ 23 :=
    (mantissaUnder_lt_iff (by omega) (by omega)).mpr (by omega)
  rw [compactTargetBits_eq hpos hfits, fromCompactTargetBits_compactWord (by omega) hmantissa,
    compactRound, droppedBits, mantissaUnder]
  split
  · next hsmall =>
    rw [Nat.mul_div_cancel _ (by positivity), show 8 * (target.size / 8 - 2) = 0 by omega]
    simp
  · next hlarge =>
    rw [show target.size / 8 + 1 - 3 = target.size / 8 - 2 by omega]
    exact Nat.mod_eq_of_lt ((Nat.div_mul_le_self _ _).trans_lt hfits)

theorem compactRound_le (target : ℕ) : compactRound target ≤ target := Nat.div_mul_le_self _ _

theorem two_pow_droppedBits_le (hpos : 0 < target) :
    droppedBits target = 0 ∨ 2 ^ droppedBits target * 2 ^ 15 ≤ target := by
  have hsizePos : 0 < target.size := Nat.size_pos.mpr hpos
  by_cases hdropped : droppedBits target = 0
  · exact .inl hdropped
  · refine .inr ?_
    rw [← pow_add]
    refine Nat.lt_size.mp ?_
    unfold droppedBits at hdropped ⊢
    omega

theorem sub_le_compactRound (target : ℕ) : target - target / 2 ^ 15 ≤ compactRound target := by
  rcases Nat.eq_zero_or_pos target with rfl | hpos
  · exact Nat.zero_le _
  unfold compactRound
  rcases two_pow_droppedBits_le hpos with hzero | hkept
  · rw [hzero]
    omega
  · have hmod := Nat.mod_lt target (show 0 < 2 ^ droppedBits target by positivity)
    have hsplit := Nat.div_add_mod' target (2 ^ droppedBits target)
    have hloss : 2 ^ droppedBits target ≤ target / 2 ^ 15 :=
      (Nat.le_div_iff_mul_le (by positivity)).mpr hkept
    omega

theorem compactRound_mono {target' : ℕ} (h : target ≤ target') :
    compactRound target ≤ compactRound target' := by
  rcases Nat.eq_zero_or_pos target with rfl | hpos
  · exact (compactRound_le 0).trans (Nat.zero_le _)
  have hsizes := Nat.size_le_size h
  by_cases hsame : droppedBits target = droppedBits target'
  · unfold compactRound
    rw [hsame]
    exact Nat.mul_le_mul_right _ (Nat.div_le_div_right h)
  · -- The larger target has more bits, and its leading bit alone is above the smaller one.
    have hless : target.size < target'.size := lt_of_le_of_ne hsizes fun heq => hsame (by
      rw [droppedBits, droppedBits, heq])
    have hlow : target < 2 ^ (target'.size - 1) := Nat.size_le.mp (by omega)
    have hhigh : 2 ^ (target'.size - 1) ≤ target' := Nat.lt_size.mp (by omega)
    have hdropped : droppedBits target' ≤ target'.size - 1 := by
      unfold droppedBits
      omega
    have hleading : 2 ^ (target'.size - 1) =
        2 ^ (target'.size - 1 - droppedBits target') * 2 ^ droppedBits target' := by
      rw [← pow_add, Nat.sub_add_cancel hdropped]
    refine ((compactRound_le target).trans hlow.le).trans ?_
    rw [hleading] at hhigh ⊢
    exact Nat.mul_le_mul_right _ ((Nat.le_div_iff_mul_le (by positivity)).mpr hhigh)

theorem fromCompactTargetBits_lt (bits : ℕ) : fromCompactTargetBits bits < 2 ^ 256 := by
  rw [fromCompactTargetBits]
  exact iteInduction (motive := (· < 2 ^ 256)) (fun _ => by positivity) fun _ =>
    Nat.mod_lt _ (by positivity)

theorem calcWork_eq {bits : ℕ} (hpos : 0 < fromCompactTargetBits bits) :
    calcWork bits = 2 ^ 256 / (fromCompactTargetBits bits + 1) := by
  have hlt := fromCompactTargetBits_lt bits
  have hdiv : (2 ^ 256 - 1 - fromCompactTargetBits bits) / (fromCompactTargetBits bits + 1) + 1 =
      2 ^ 256 / (fromCompactTargetBits bits + 1) := by
    rw [← Nat.add_div_right _ (Nat.succ_pos _)]
    congr 1
    omega
  have hhalf : 2 ^ 256 / (fromCompactTargetBits bits + 1) ≤ 2 ^ 256 / 2 :=
    Nat.div_le_div_left (by omega) (by decide)
  rw [calcWork, hdiv, Nat.mod_eq_of_lt (by omega)]

def clampedMs (measuredMs expectedMs factor : ℕ) : ℕ :=
  max (max (max expectedMs 1 / max factor 1) 1)
    (min measuredMs (min (max expectedMs 1 * max factor 1) U64_MAX))

def averageTarget (sampleBits : List ℕ) : ℕ :=
  (sampleBits.map fromCompactTargetBits).sum / sampleBits.length

def leastTarget (average expectedMs factor maxTarget : ℕ) : ℕ :=
  min (average * max (max expectedMs 1 / factor) 1 / max expectedMs 1) maxTarget

section Retarget

variable {sampleBits : List ℕ} {measuredMs expectedMs holdBits minSamples factor maxTarget : ℕ}

theorem clampedMs_le (hexpected : expectedMs ≤ U64_MAX) :
    clampedMs measuredMs expectedMs factor ≤ U64_MAX := by
  have hdiv := Nat.div_le_self (max expectedMs 1) (max factor 1)
  have hone : 1 ≤ U64_MAX := by decide
  unfold clampedMs
  omega

theorem clampedMs_le_mul :
    clampedMs measuredMs expectedMs factor ≤ max expectedMs 1 * max factor 1 := by
  have hdiv := Nat.div_le_self (max expectedMs 1) (max factor 1)
  have hmul := Nat.le_mul_of_pos_right (max expectedMs 1) (show 0 < max factor 1 by omega)
  unfold clampedMs
  omega

theorem sum_targets_le (sampleBits : List ℕ) :
    (sampleBits.map fromCompactTargetBits).sum ≤ sampleBits.length * (2 ^ 256 - 1) := by
  have hsum := sum_le_card_nsmul (sampleBits.map fromCompactTargetBits) (2 ^ 256 - 1)
    fun target htarget => by
      obtain ⟨bits, -, rfl⟩ := mem_map.mp htarget
      exact Nat.le_sub_one_of_lt (fromCompactTargetBits_lt bits)
  rwa [length_map, Nat.nsmul_eq_mul] at hsum

theorem sum_targets_lt (hlength : sampleBits.length ≤ U64_MAX) :
    (sampleBits.map fromCompactTargetBits).sum < 2 ^ 320 :=
  ((sum_targets_le sampleBits).trans (Nat.mul_le_mul_right _ hlength)).trans_lt (by decide +kernel)

theorem averageTarget_mul_lt {ms : ℕ} (hms : ms ≤ U64_MAX) :
    averageTarget sampleBits * ms < 2 ^ 320 := by
  have haverage : averageTarget sampleBits ≤ 2 ^ 256 - 1 :=
    Nat.div_le_of_le_mul (sum_targets_le sampleBits)
  exact (Nat.mul_le_mul haverage hms).trans_lt (by decide +kernel)

theorem laneRetargetDecision_eq (hmin : minSamples ≤ sampleBits.length) :
    laneRetargetDecision sampleBits.length minSamples measuredMs expectedMs factor =
      .adjust (clampedMs measuredMs expectedMs factor) := by
  rw [laneRetargetDecision, if_neg (by omega)]
  rfl

theorem fromCompactTargetBits_laneRetargetBits (hmin : minSamples ≤ sampleBits.length)
    (hlength : sampleBits.length ≤ U64_MAX) (hexpected : expectedMs ≤ U64_MAX)
    (hmax : maxTarget < 2 ^ 256) :
    fromCompactTargetBits (laneRetargetBits sampleBits measuredMs expectedMs holdBits minSamples
      factor maxTarget) = compactRound (min (averageTarget sampleBits *
        clampedMs measuredMs expectedMs factor / max expectedMs 1) maxTarget) := by
  have hclamped := @clampedMs_le measuredMs expectedMs factor hexpected
  have hpos : max (clampedMs measuredMs expectedMs factor) 1 =
      clampedMs measuredMs expectedMs factor := by
    unfold clampedMs
    omega
  rw [laneRetargetBits, laneRetargetDecision_eq hmin]
  dsimp only
  rw [scaledBits, Nat.mod_eq_of_lt (sum_targets_lt hlength), hpos]
  change
    fromCompactTargetBits (compactTargetBits (min (averageTarget sampleBits * _ % _ / _) _)) = _
  rw [Nat.mod_eq_of_lt (averageTarget_mul_lt hclamped),
    fromCompactTargetBits_compactTargetBits (by omega)]

theorem scaled_mono {ms ms' : ℕ} (h : ms ≤ ms') :
    min (average * ms / max expectedMs 1) maxTarget ≤
      min (average * ms' / max expectedMs 1) maxTarget :=
  min_le_min_right _ (Nat.div_le_div_right (Nat.mul_le_mul_left _ h))

theorem leastTarget_of_dvd (hdvd : factor ∣ max expectedMs 1) :
    leastTarget average expectedMs factor maxTarget = min (average / factor) maxTarget := by
  obtain ⟨q, hq⟩ := hdvd
  have hpos : 0 < factor * q := by omega
  have hfactor : 0 < factor := Nat.pos_of_mul_pos_right hpos
  have hqpos : 0 < q := Nat.pos_of_mul_pos_left hpos
  rw [leastTarget, hq, Nat.mul_div_cancel_left q hfactor, Nat.max_eq_left hqpos,
    Nat.mul_div_mul_right _ _ hqpos]

end Retarget

/-- Too few samples hold the given bits. Otherwise no operation leaves its 320 bits, and the decoded
target is at most the lane's maximum and the average times the factor, at least the least target of
the clamp up to the sixteen bits a compact form keeps, and grows with the measured duration; the
work falls as the target grows. -/
theorem laneRetargetBits_bounded {p : LaneDifficultyParams} {genesisBits : ℕ}
    (hp : p.isConsistentForActivation genesisBits = true) {sampleBits : List ℕ}
    {expectedMs maxTarget : ℕ} (hlength : sampleBits.length ≤ U64_MAX)
    (hexpected : expectedMs ≤ U64_MAX) (hmax : maxTarget < 2 ^ 256) (holdBits : ℕ) :
    let bits := fun measuredMs => laneRetargetBits sampleBits measuredMs expectedMs holdBits
      p.minSamples p.maxAdjustFactor maxTarget
    let average := averageTarget sampleBits
    let least := leastTarget average expectedMs p.maxAdjustFactor maxTarget
    (sampleBits.length < p.minSamples → ∀ measuredMs, bits measuredMs = holdBits) ∧
    (p.minSamples ≤ sampleBits.length →
      ((sampleBits.map fromCompactTargetBits).sum < 2 ^ 320 ∧
        ∀ measuredMs clamped, laneRetargetDecision sampleBits.length p.minSamples measuredMs
          expectedMs p.maxAdjustFactor = .adjust clamped → average * max clamped 1 < 2 ^ 320) ∧
      (∀ measuredMs, fromCompactTargetBits (bits measuredMs) ≤ maxTarget ∧
        fromCompactTargetBits (bits measuredMs) ≤ average * p.maxAdjustFactor ∧
        least - least / 2 ^ 15 ≤ fromCompactTargetBits (bits measuredMs)) ∧
      (p.maxAdjustFactor ∣ max expectedMs 1 → least = min (average / p.maxAdjustFactor) maxTarget) ∧
      ∀ measuredMs measuredMs', measuredMs ≤ measuredMs' →
        fromCompactTargetBits (bits measuredMs) ≤ fromCompactTargetBits (bits measuredMs')) ∧
    ∀ bits, 0 < fromCompactTargetBits bits →
      calcWork bits = 2 ^ 256 / (fromCompactTargetBits bits + 1) ∧
      ∀ bits', fromCompactTargetBits bits ≤ fromCompactTargetBits bits' →
        calcWork bits' ≤ calcWork bits := by
  intro bits average least
  have hfactor : 1 ≤ p.maxAdjustFactor := by
    simp only [LaneDifficultyParams.isConsistentForActivation,
      LaneDifficultyParams.isStructurallyValid, Bool.and_eq_true, decide_eq_true_eq] at hp
    exact hp.1.1.1.1.1.1.1.1.2
  refine ⟨fun hshort measuredMs => ?_, fun hmin => ?_, fun bits hpos => ⟨calcWork_eq hpos,
    fun bits' hle => ?_⟩⟩
  · simp only [bits, laneRetargetBits, laneRetargetDecision, if_pos hshort]
  · have hdecoded : ∀ measuredMs, fromCompactTargetBits (bits measuredMs) =
        compactRound (min (average * clampedMs measuredMs expectedMs p.maxAdjustFactor /
          max expectedMs 1) maxTarget) :=
      fun measuredMs => fromCompactTargetBits_laneRetargetBits hmin hlength hexpected hmax
    refine ⟨⟨sum_targets_lt hlength, ?_⟩, ?_, leastTarget_of_dvd, ?_⟩
    · intro measuredMs clamped hdecision
      have hclamped := @clampedMs_le measuredMs expectedMs p.maxAdjustFactor hexpected
      rw [laneRetargetDecision_eq hmin] at hdecision
      cases hdecision
      exact averageTarget_mul_lt (max_le hclamped (by decide))
    · intro measuredMs
      rw [hdecoded]
      refine ⟨(compactRound_le _).trans (min_le_right _ _),
        (compactRound_le _).trans ((min_le_left _ _).trans ?_), ?_⟩
      · refine Nat.div_le_of_le_mul ?_
        have hclamped := @clampedMs_le_mul measuredMs expectedMs p.maxAdjustFactor
        rw [Nat.max_eq_left hfactor] at hclamped
        calc average * clampedMs measuredMs expectedMs p.maxAdjustFactor
            ≤ average * (max expectedMs 1 * p.maxAdjustFactor) := Nat.mul_le_mul_left _ hclamped
          _ = max expectedMs 1 * (average * p.maxAdjustFactor) := mul_left_comm _ _ _
      · have hclamped : max (max expectedMs 1 / p.maxAdjustFactor) 1 ≤
            clampedMs measuredMs expectedMs p.maxAdjustFactor := by
          rw [clampedMs, Nat.max_eq_left hfactor]
          exact le_max_left _ _
        exact (sub_le_compactRound least).trans (compactRound_mono (scaled_mono hclamped))
    · intro measuredMs measuredMs' hle
      rw [hdecoded, hdecoded]
      refine compactRound_mono (scaled_mono ?_)
      exact max_le_max_left _ (min_le_min_right _ hle)
  · rw [calcWork_eq hpos, calcWork_eq (hpos.trans_le hle)]
    exact Nat.div_le_div_left (by omega) (Nat.succ_pos _)

def quickLane : LaneDifficultyParams := ⟨1, 1, 10, 10, 3, 1, 2, 1, 1, 0x1e7fffff, 0x1e7fffff⟩

/-- Three samples of one target, found in twice the expected time. -/
theorem laneRetargetBits_bounded_quick :
    fromCompactTargetBits (laneRetargetBits [0x1e7fffff, 0x1e7fffff, 0x1e7fffff] 6 3 0 3 2
      MAX_DIFFICULTY_TARGET) ≤ averageTarget [0x1e7fffff, 0x1e7fffff, 0x1e7fffff] * 2 :=
  (((@laneRetargetBits_bounded quickLane 0x1e7fffff (by decide)
    [0x1e7fffff, 0x1e7fffff, 0x1e7fffff] 3 MAX_DIFFICULTY_TARGET (by decide) (by decide) (by decide)
    0).2.1 (by decide)).2.1 6).2.1

/-- Three blocks expected in three milliseconds and found in one: half of three is rounded to one,
so a target falls to a third of the average although the factor is two. And the work of the target
zero is zero, less than that of the target one. -/
theorem laneRetargetBits_below_factor :
    quickLane.isConsistentForActivation 0x1e7fffff = true ∧
      laneExpectedBits [(0x1e7fffff, 1), (0x1e7fffff, 1), (0x1e7fffff, 2), (0x1e7fffff, 2)]
        (quickLane.laneTargetTimeMs .hashFloor) (quickLane.laneSampleRate .hashFloor)
        quickLane.minSamples quickLane.maxAdjustFactor 0 MAX_DIFFICULTY_TARGET =
          some (laneRetargetBits [0x1e7fffff, 0x1e7fffff, 0x1e7fffff] 1 3 0 1 2
            MAX_DIFFICULTY_TARGET) ∧
      5 * fromCompactTargetBits (laneRetargetBits [0x1e7fffff, 0x1e7fffff, 0x1e7fffff] 1 3 0
        quickLane.minSamples quickLane.maxAdjustFactor MAX_DIFFICULTY_TARGET) <
          2 * averageTarget [0x1e7fffff, 0x1e7fffff, 0x1e7fffff] ∧
      fromCompactTargetBits (laneRetargetBits [0x01010000, 0x01010000, 0x01010000] 1 3 0
        quickLane.minSamples quickLane.maxAdjustFactor MAX_DIFFICULTY_TARGET) = 0 ∧
      calcWork 0 = 0 ∧ fromCompactTargetBits 0 = 0 ∧ fromCompactTargetBits 0x01010000 = 1 ∧
      0 < calcWork 0x01010000 := by
  decide +kernel

end Misaka.Pipeline
