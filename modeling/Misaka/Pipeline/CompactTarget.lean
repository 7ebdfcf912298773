import Mathlib.Data.Nat.Digits.Lemmas
import Misaka.Pipeline.LaneRetarget

/-!
# What compact bits denote

`Uint256::from_compact_target_bits` shifts a mantissa by a distance that a peer chooses, with the
limb shift of `math/src/uint.rs`, which drops what leaves the width and reduces a longer distance
modulo the width. The sign is tested after the mantissa of a small exponent has been shifted.
-/

namespace Misaka.Pipeline

open List

def shiftLimbs (leftShifts : ℕ) : ℕ → List ℕ → List ℕ
  | _, [] => []
  | carry, word :: words =>
    ((word <<< leftShifts) % 2 ^ 64 ||| carry) ::
      shiftLimbs leftShifts (if 0 < leftShifts then word >>> (64 - leftShifts) else 0) words

def overflowingShl (limbs : List ℕ) (s : ℕ) : List ℕ × Bool :=
  let bits := 64 * limbs.length
  let leftWords := s % bits / 64
  (List.replicate leftWords 0 ++
    shiftLimbs (s % bits % 64) 0 (limbs.take (limbs.length - leftWords)), decide (bits ≤ s))

theorem ofDigits_shiftLimbs {shift carry : ℕ} {words : List ℕ} (hshift : shift < 64)
    (hcarry : carry < 2 ^ shift) (hwords : ∀ w ∈ words, w < 2 ^ 64) :
    Nat.ofDigits (2 ^ 64) (shiftLimbs shift carry words) =
      (carry + 2 ^ shift * Nat.ofDigits (2 ^ 64) words) % (2 ^ 64) ^ words.length := by
  induction words generalizing carry with
  | nil => simp [shiftLimbs, Nat.mod_one]
  | cons word words ih =>
    rw [forall_mem_cons] at hwords
    set rest := 2 ^ (64 - shift) with hrest
    have hlimb : 2 ^ 64 = 2 ^ shift * rest := by
      rw [hrest, ← pow_add, Nat.add_sub_cancel' hshift.le]
    have hlow : (word <<< shift) % 2 ^ 64 ||| carry = 2 ^ shift * (word % rest) + carry := by
      rw [Nat.two_pow_add_eq_or_of_lt hcarry, Nat.shiftLeft_eq, Nat.mul_comm word, hlimb,
        Nat.mul_mod_mul_left]
    have hhigh : (if 0 < shift then word >>> (64 - shift) else 0) = word / rest := by
      rw [Nat.shiftRight_eq_div_pow, ← hrest]
      split
      · rfl
      · next hzero =>
        rw [hrest, show shift = 0 by omega, Nat.div_eq_of_lt hwords.1]
    have hnext : word / rest < 2 ^ shift := by
      rw [Nat.div_lt_iff_lt_mul (by positivity), ← hlimb]
      exact hwords.1
    have hfits : 2 ^ shift * (word % rest) + carry < 2 ^ 64 := by
      have hword : word % rest + 1 ≤ rest := Nat.mod_lt _ (by positivity)
      have := Nat.mul_le_mul_left (2 ^ shift) hword
      rw [hlimb]
      linarith
    -- the low limb of the sum is what is written, and the rest is the carry of the next step
    have hsum : carry + 2 ^ shift * (word + 2 ^ 64 * Nat.ofDigits (2 ^ 64) words) =
        2 ^ shift * (word % rest) + carry +
          2 ^ 64 * (word / rest + 2 ^ shift * Nat.ofDigits (2 ^ 64) words) := by
      have := Nat.mod_add_div word rest
      nth_rewrite 1 [← this]
      rw [hlimb]
      ring
    rw [shiftLimbs, Nat.ofDigits_cons, Nat.ofDigits_cons, hlow, hhigh, ih hnext hwords.2,
      length_cons, pow_succ' (2 ^ 64) words.length, Nat.mod_mul]
    rw [hsum, Nat.add_mul_mod_self_left, Nat.mod_eq_of_lt hfits,
      Nat.add_mul_div_left _ _ (by positivity), Nat.div_eq_of_lt hfits, Nat.zero_add]

theorem ofDigits_overflowingShl {limbs : List ℕ} {s : ℕ} (hlimbs : ∀ w ∈ limbs, w < 2 ^ 64) :
    Nat.ofDigits (2 ^ 64) (overflowingShl limbs s).1 =
      Nat.ofDigits (2 ^ 64) limbs * 2 ^ (s % (64 * limbs.length)) % (2 ^ 64) ^ limbs.length := by
  set distance := s % (64 * limbs.length) with hdistance
  rcases Nat.eq_zero_or_pos limbs.length with hnil | hpos
  · simp [overflowingShl, length_eq_zero_iff.mp hnil, shiftLimbs, Nat.mod_one]
  have hwidth : distance < 64 * limbs.length := Nat.mod_lt _ (by omega)
  set kept := limbs.length - distance / 64 with hkept
  have hsplit : Nat.ofDigits (2 ^ 64) limbs = Nat.ofDigits (2 ^ 64) (limbs.take kept) +
      (2 ^ 64) ^ kept * Nat.ofDigits (2 ^ 64) (limbs.drop kept) := by
    have h := @Nat.ofDigits_append (2 ^ 64) (limbs.take kept) (limbs.drop kept)
    rwa [take_append_drop, length_take, min_eq_left (by omega)] at h
  have hpow : (2 ^ 64 : ℕ) ^ limbs.length = (2 ^ 64) ^ (distance / 64) * (2 ^ 64) ^ kept := by
    rw [← pow_add, Nat.add_sub_cancel' (by omega)]
  have hshift : 2 ^ distance = (2 ^ 64) ^ (distance / 64) * 2 ^ (distance % 64) := by
    rw [← pow_mul, ← pow_add, Nat.div_add_mod]
  rw [overflowingShl, Nat.ofDigits_append, Nat.ofDigits_replicate_zero, length_replicate,
    ofDigits_shiftLimbs (Nat.mod_lt _ (by decide)) (by positivity)
      fun w hw => hlimbs w (mem_of_mem_take hw), length_take]
  simp only [← hdistance, ← hkept, Nat.zero_add]
  rw [min_eq_left (by omega), hsplit, hshift, hpow, ← Nat.mul_mod_mul_left]
  have : (Nat.ofDigits (2 ^ 64) (limbs.take kept) +
      (2 ^ 64) ^ kept * Nat.ofDigits (2 ^ 64) (limbs.drop kept)) *
        ((2 ^ 64) ^ (distance / 64) * 2 ^ (distance % 64)) =
      (2 ^ 64) ^ (distance / 64) * (2 ^ (distance % 64) * Nat.ofDigits (2 ^ 64) (limbs.take kept)) +
        (2 ^ 64) ^ (distance / 64) * (2 ^ 64) ^ kept *
          (Nat.ofDigits (2 ^ 64) (limbs.drop kept) * 2 ^ (distance % 64)) := by
    ring
  rw [this, Nat.add_mul_mod_self_left]

def compactParts (bits : ℕ) : ℕ × ℕ :=
  let unshiftedExpt := bits >>> 24
  if unshiftedExpt ≤ 3 then ((bits &&& 0xFFFFFF) >>> (8 * (3 - unshiftedExpt)), 0)
  else (bits &&& 0xFFFFFF, 8 * (unshiftedExpt - 3))

/-- `from_compact_target_bits` over limbs in a debug build, where `Shl` asserts that the distance is
below the width; `none` is the panic. -/
def fromCompactTargetBitsDebug (bits : ℕ) : Option ℕ :=
  let parts := compactParts bits
  if 0x7FFFFF < parts.1 then some 0
  else
    let shifted := overflowingShl [parts.1, 0, 0, 0] parts.2
    if shifted.2 then none else some (Nat.ofDigits (2 ^ 64) shifted.1)

def compactValue (bits : ℕ) : ℕ :=
  if bits % 2 ^ 24 < 2 ^ 23 then bits % 2 ^ 24 * 256 ^ (bits / 2 ^ 24) / 256 ^ 3 else 0

/-- A mantissa that stays within 256 bits, or a negative one that is not shifted before its test. -/
def WellScaled (bits : ℕ) : Prop :=
  let exponent := bits / 2 ^ 24
  let mantissa := bits % 2 ^ 24
  if mantissa < 2 ^ 23 then
    exponent ≤ 32 ∨ exponent = 33 ∧ mantissa < 2 ^ 16 ∨ exponent = 34 ∧ mantissa < 2 ^ 8
  else exponent = 0 ∨ 3 ≤ exponent

theorem compactParts_eq (bits : ℕ) :
    compactParts bits = if bits / 2 ^ 24 ≤ 3
      then (bits % 2 ^ 24 / 2 ^ (8 * (3 - bits / 2 ^ 24)), 0)
      else (bits % 2 ^ 24, 8 * (bits / 2 ^ 24 - 3)) := by
  have hmask : bits &&& 0xFFFFFF = bits % 2 ^ 24 := Nat.and_two_pow_sub_one_eq_mod bits 24
  simp only [compactParts, hmask, Nat.shiftRight_eq_div_pow]

theorem compactParts_lt (bits : ℕ) : (compactParts bits).1 < 2 ^ 24 := by
  have hlt := Nat.mod_lt bits (show 0 < 2 ^ 24 by decide)
  rw [compactParts_eq]
  split
  · exact (Nat.div_le_self _ _).trans_lt hlt
  · exact hlt

variable {mantissa target target' : ℕ}

theorem ofDigits_overflowingShl_mantissa (hmantissa : mantissa < 2 ^ 24) (s : ℕ) :
    Nat.ofDigits (2 ^ 64) (overflowingShl [mantissa, 0, 0, 0] s).1 =
      mantissa * 2 ^ (s % 256) % 2 ^ 256 := by
  rw [ofDigits_overflowingShl]
  · simp [Nat.ofDigits_cons]
  · simp only [forall_mem_cons, not_mem_nil, false_implies, implies_true, and_true]
    omega

theorem fromCompactTargetBits_eq_parts (bits : ℕ) :
    fromCompactTargetBits bits = if 0x7FFFFF < (compactParts bits).1 then 0
      else (compactParts bits).1 * 2 ^ ((compactParts bits).2 % 256) % 2 ^ 256 := by
  simp only [fromCompactTargetBits, compactParts, Nat.shiftLeft_eq]
  by_cases hsmall : bits >>> 24 ≤ 3 <;> simp only [if_pos, if_neg, hsmall, not_false_eq_true]

theorem fromCompactTargetBitsDebug_eq (bits : ℕ) :
    fromCompactTargetBitsDebug bits = if 0x7FFFFF < (compactParts bits).1 then some 0
      else if 256 ≤ (compactParts bits).2 then none else some (fromCompactTargetBits bits) := by
  rw [fromCompactTargetBits_eq_parts, fromCompactTargetBitsDebug]
  split
  · rfl
  · simp only [ofDigits_overflowingShl_mantissa (compactParts_lt bits)]
    simp [overflowingShl]

theorem shifted_eq_iff {exponent : ℕ} (hexponent : 3 < exponent) (hle : exponent ≤ 34) :
    mantissa * 2 ^ (8 * (exponent - 3) % 256) % 2 ^ 256 = mantissa * 256 ^ exponent / 256 ^ 3 ↔
      mantissa < 2 ^ (256 - 8 * (exponent - 3)) := by
  have hdistance : 8 * (exponent - 3) % 256 = 8 * (exponent - 3) := Nat.mod_eq_of_lt (by omega)
  have hvalue : mantissa * 256 ^ exponent / 256 ^ 3 = mantissa * 2 ^ (8 * (exponent - 3)) := by
    rw [show (256 : ℕ) ^ exponent = 2 ^ (8 * (exponent - 3)) * 256 ^ 3 by
      rw [show (256 : ℕ) = 2 ^ 8 from rfl, ← pow_mul, ← pow_mul, ← pow_add,
        show 8 * (exponent - 3) + 8 * 3 = 8 * exponent by omega],
      ← Nat.mul_assoc, Nat.mul_div_cancel _ (by decide)]
  rw [hdistance, hvalue, Nat.mod_eq_iff_lt (by positivity),
    show 2 ^ 256 = 2 ^ (256 - 8 * (exponent - 3)) * 2 ^ (8 * (exponent - 3)) by
      rw [← pow_add, Nat.sub_add_cancel (by omega)]]
  exact Nat.mul_lt_mul_right (by positivity)

theorem fromCompactTargetBits_exact_iff (bits : ℕ) :
    (fromCompactTargetBits bits = compactValue bits ∧
      fromCompactTargetBitsDebug bits = some (compactValue bits)) ↔ WellScaled bits := by
  have hlt := Nat.mod_lt bits (show 0 < 2 ^ 24 by decide)
  rw [fromCompactTargetBitsDebug_eq, fromCompactTargetBits_eq_parts, compactParts_eq, compactValue,
    WellScaled]
  generalize bits / 2 ^ 24 = exponent
  generalize bits % 2 ^ 24 = mantissa at hlt ⊢
  by_cases hsmall : exponent ≤ 3
  · have hvalue : mantissa * 256 ^ exponent / 256 ^ 3 = mantissa / 2 ^ (8 * (3 - exponent)) := by
      rw [show (256 : ℕ) ^ 3 = 256 ^ exponent * 2 ^ (8 * (3 - exponent)) by
        interval_cases exponent <;> rfl, ← Nat.div_div_eq_div_mul,
        Nat.mul_div_cancel _ (by positivity)]
    have hle := Nat.div_le_self mantissa (2 ^ (8 * (3 - exponent)))
    simp only [if_pos hsmall, hvalue, Nat.zero_mod, Nat.pow_zero, Nat.mul_one]
    rw [Nat.mod_eq_of_lt (by omega), if_neg (by decide : ¬ 256 ≤ 0)]
    by_cases hpositive : mantissa < 2 ^ 23
    · have hsign : ¬ 0x7FFFFF < mantissa / 2 ^ (8 * (3 - exponent)) := by omega
      simp only [if_pos hpositive, if_neg hsign, and_self, true_iff]
      omega
    · simp only [if_neg hpositive]
      interval_cases exponent <;> simp <;> omega
  · simp only [if_neg hsmall]
    by_cases hpositive : mantissa < 2 ^ 23
    · rw [if_neg (by omega), if_pos hpositive, if_pos hpositive, if_neg (by omega)]
      by_cases hwide : 256 ≤ 8 * (exponent - 3)
      · simp only [if_pos hwide, reduceCtorEq, and_false, false_iff]
        omega
      · rw [if_neg hwide, Option.some.injEq, and_self, shifted_eq_iff (by omega) (by omega)]
        have hexponent : exponent ≤ 32 ∨ exponent = 33 ∨ exponent = 34 := by omega
        rcases hexponent with hexponent | rfl | rfl
        · have := Nat.pow_le_pow_right (show 0 < 2 by decide)
            (show 23 ≤ 256 - 8 * (exponent - 3) by omega)
          omega
        · simp
        · simp
    · rw [if_pos (by omega), if_neg hpositive, if_neg hpositive, if_pos (by omega)]
      simp only [true_iff, and_self]
      omega

theorem size_compactRound (target : ℕ) : (compactRound target).size = target.size := by
  refine Nat.le_antisymm (Nat.size_le_size (compactRound_le target)) ?_
  rcases Nat.eq_zero_or_pos target with rfl | hpos
  · simp
  have hsize : 0 < target.size := Nat.size_pos.mpr hpos
  -- the leading bit is kept
  have hleading : compactRound (2 ^ (target.size - 1)) = 2 ^ (target.size - 1) := by
    refine Nat.div_mul_cancel (Nat.pow_dvd_pow 2 ?_)
    rw [droppedBits, Nat.size_pow]
    omega
  have hle := compactRound_mono (Nat.lt_size.mp (by omega) : 2 ^ (target.size - 1) ≤ target)
  rw [hleading] at hle
  have := Nat.lt_size.mpr hle
  omega

theorem mantissaUnder_compactRound (target : ℕ) :
    mantissaUnder (target.size / 8 + 1) (compactRound target) =
      mantissaUnder (target.size / 8 + 1) target := by
  unfold mantissaUnder compactRound
  split
  · rw [show droppedBits target = 0 by unfold droppedBits; omega, pow_zero, Nat.div_one,
      Nat.mul_one]
  · rw [show 8 * (target.size / 8 + 1 - 3) = droppedBits target by unfold droppedBits; omega,
      Nat.mul_div_cancel _ (by positivity)]

theorem mantissaUnder_mono (size : ℕ) (h : target ≤ target') :
    mantissaUnder size target ≤ mantissaUnder size target' := by
  unfold mantissaUnder
  split
  · exact Nat.mul_le_mul_right _ h
  · exact Nat.div_le_div_right h

theorem compactTargetBits_compactRound (hfits : target < 2 ^ 256) :
    compactTargetBits (compactRound target) = compactTargetBits target := by
  rcases Nat.eq_zero_or_pos target with rfl | hpos
  · rfl
  have hround : 0 < compactRound target := by
    rw [← Nat.size_pos, size_compactRound]
    exact Nat.size_pos.mpr hpos
  rw [compactTargetBits_eq hpos hfits, compactTargetBits_eq hround
    ((compactRound_le _).trans_lt hfits), size_compactRound, mantissaUnder_compactRound]

theorem compactTargetBits_mono (h : target ≤ target') (hfits : target' < 2 ^ 256) :
    compactTargetBits target ≤ compactTargetBits target' := by
  rcases Nat.eq_zero_or_pos target with rfl | hpos
  · exact Nat.zero_le _
  have hsize : target'.size ≤ 256 := Nat.size_le.mpr hfits
  have hsizes := Nat.size_le_size h
  have hmantissa : ∀ {t : ℕ}, mantissaUnder (t.size / 8 + 1) t < 2 ^ 24 := fun {t} =>
    (mantissaUnder_lt_iff (by omega) (by omega)).mpr (by omega)
  rw [compactTargetBits_eq hpos (h.trans_lt hfits), compactTargetBits_eq (hpos.trans_le h) hfits,
    compactWord_eq _ _ (by omega) hmantissa, compactWord_eq _ _ (by omega) hmantissa]
  rcases (Nat.div_le_div_right hsizes : target.size / 8 ≤ target'.size / 8).eq_or_lt with heq | hlt
  · rw [heq]
    exact Nat.add_le_add_left (mantissaUnder_mono _ h) _
  · have := @hmantissa target
    omega

theorem sub_compactRound_lt (hpos : 0 < target) :
    (target - compactRound target) * 2 ^ 15 < target := by
  have hsplit := Nat.div_add_mod' target (2 ^ droppedBits target)
  have hmod := Nat.mod_lt target (show 0 < 2 ^ droppedBits target by positivity)
  have hloss : target - compactRound target = target % 2 ^ droppedBits target := by
    unfold compactRound
    omega
  rw [hloss]
  rcases two_pow_droppedBits_le hpos with hzero | hkept
  · rwa [hzero, pow_zero, Nat.mod_one, zero_mul]
  · exact (Nat.mul_lt_mul_of_pos_right hmod (by decide)).trans_le hkept

def fromCompactTargetBits512 (bits : ℕ) : ℕ := (fromCompactTargetBits bits <<< 256) % 2 ^ 512

def compactTargetBits512 (target : ℕ) : ℕ :=
  let lo := target >>> 256
  compactTargetBits (if lo < 2 ^ 256 then lo else 0)

/-- Compact bits denote what they say exactly if the value fits in 256 bits and a negative mantissa
is not shifted before its sign is read. The compact form rounds down by less than a part in `2 ^
15`, is stable under decoding, and orders targets as they are. -/
theorem compactTarget_denotes (bits : ℕ) :
    ((fromCompactTargetBits bits = compactValue bits ∧
      fromCompactTargetBitsDebug bits = some (compactValue bits)) ↔ WellScaled bits) ∧
    (∀ target < 2 ^ 256,
      fromCompactTargetBits (compactTargetBits target) ≤ target ∧
      (0 < target → (target - fromCompactTargetBits (compactTargetBits target)) * 2 ^ 15 < target) ∧
      compactTargetBits (fromCompactTargetBits (compactTargetBits target)) =
        compactTargetBits target ∧
      ∀ target' < 2 ^ 256,
        (target ≤ target' → compactTargetBits target ≤ compactTargetBits target') ∧
        (compactTargetBits target ≤ compactTargetBits target' →
          fromCompactTargetBits (compactTargetBits target) ≤
            fromCompactTargetBits (compactTargetBits target'))) ∧
    fromCompactTargetBits512 bits = fromCompactTargetBits bits * 2 ^ 256 ∧
    ∀ target < 2 ^ 512, compactTargetBits512 target = compactTargetBits (target / 2 ^ 256) := by
  have hlift : 2 ^ 512 = 2 ^ 256 * 2 ^ 256 := by rw [← pow_add]
  refine ⟨fromCompactTargetBits_exact_iff bits, fun target hfits => ?_, ?_, fun target hfits => ?_⟩
  · have hdecode := @fromCompactTargetBits_compactTargetBits
    rw [hdecode hfits]
    refine ⟨compactRound_le _, sub_compactRound_lt, compactTargetBits_compactRound hfits,
      fun target' hfits' => ⟨fun h => compactTargetBits_mono h hfits', fun h => ?_⟩⟩
    rw [hdecode hfits']
    rcases le_total target target' with hle | hge
    · exact compactRound_mono hle
    · have heq := h.antisymm (compactTargetBits_mono hge hfits)
      rw [← hdecode hfits, ← hdecode hfits', heq]
  · rw [fromCompactTargetBits512, Nat.shiftLeft_eq, hlift, Nat.mod_eq_of_lt]
    exact Nat.mul_lt_mul_of_pos_right (fromCompactTargetBits_lt bits) (by positivity)
  · have hlo : target / 2 ^ 256 < 2 ^ 256 := Nat.div_lt_of_lt_mul (hlift ▸ hfits)
    simp only [compactTargetBits512, Nat.shiftRight_eq_div_pow, if_pos hlo]

/-- A distance of 256 bits is taken for none, the top bit of a longer mantissa is lost, and a
negative mantissa of exponent two counts as a positive one. -/
theorem compactTarget_wrapped :
    (fromCompactTargetBits 0x23000001 = 1 ∧ compactValue 0x23000001 = 2 ^ 256 ∧
      fromCompactTargetBitsDebug 0x23000001 = none) ∧
    (fromCompactTargetBits 0x21010000 = 0 ∧ compactValue 0x21010000 = 2 ^ 256) ∧
    fromCompactTargetBits 0x02800000 = 0x8000 ∧ compactValue 0x02800000 = 0 := by
  decide

end Misaka.Pipeline
