import Mathlib.Data.Nat.Bits
import Mathlib.Tactic.Linarith

/-!
# Blue work

Work arithmetic of the header DAG (`math/src/uint.rs`, `consensus/src/processes/difficulty.rs` and
the component-work cap of `consensus/core/src/palw.rs`). `BlueWorkType` is `Uint576`; its `+` drops
the carry in a release build.
-/

namespace Misaka

/-- Largest `BlueWorkType`, a 576-bit number. -/
@[irreducible] def BLUE_WORK_MAX : ℕ := 2 ^ 576 - 1

theorem BLUE_WORK_MAX_eq : BLUE_WORK_MAX = 2 ^ 256 * (2 ^ 64 * 2 ^ 256) - 1 := by
  decide +kernel

/-- `Add for Uint576`: the carry is dropped. -/
def blueAdd (a b : ℕ) : ℕ := (a + b) % (BLUE_WORK_MAX + 1)

def blueSaturatingAdd (a b : ℕ) : ℕ := if BLUE_WORK_MAX < a + b then BLUE_WORK_MAX else a + b

/-- `overflowing_mul_u64`, pinned to the maximum on overflow as its callers do. -/
def blueMulOrMax (a b : ℕ) : ℕ := if BLUE_WORK_MAX < a * b then BLUE_WORK_MAX else a * b

theorem blueAdd_eq {a b : ℕ} (h : a + b ≤ BLUE_WORK_MAX) : blueAdd a b = a + b :=
  Nat.mod_eq_of_lt (Nat.lt_add_one_of_le h)

theorem blueSaturatingAdd_eq_min (a b : ℕ) :
    blueSaturatingAdd a b = min (a + b) BLUE_WORK_MAX := by
  unfold blueSaturatingAdd
  split <;> omega

theorem blueMulOrMax_eq_min (a b : ℕ) : blueMulOrMax a b = min (a * b) BLUE_WORK_MAX := by
  unfold blueMulOrMax
  split <;> omega

/-- The target of a compact header field; a negative one is zero. -/
def fromCompactTargetBits (bits : ℕ) : ℕ :=
  let unshiftedExpt := bits >>> 24
  let mant := if unshiftedExpt ≤ 3 then (bits &&& 0xFFFFFF) >>> (8 * (3 - unshiftedExpt))
    else bits &&& 0xFFFFFF
  let expt := if unshiftedExpt ≤ 3 then 0 else 8 * (unshiftedExpt - 3)
  -- the mantissa is signed but may not be negative
  if 0x7FFFFF < mant then 0 else (mant <<< (expt % 256)) % 2 ^ 256

/-- The expected number of hashes under the target. -/
def calcWork (bits : ℕ) : ℕ :=
  let target := fromCompactTargetBits bits
  ((2 ^ 256 - 1 - target) / (target + 1) + 1) % 2 ^ 256

def normalizePalwWork (bits computeWorkScale : ℕ) : ℕ :=
  blueMulOrMax (calcWork bits) computeWorkScale

theorem calcWork_lt (bits : ℕ) : calcWork bits < 2 ^ 256 :=
  Nat.mod_lt _ (by positivity)

theorem normalizePalwWork_lt {bits scale : ℕ} (hscale : scale < 2 ^ 64) :
    normalizePalwWork bits scale < 2 ^ 256 * 2 ^ 64 := by
  have hmul : calcWork bits * scale < 2 ^ 256 * 2 ^ 64 :=
    Nat.mul_lt_mul'' (calcWork_lt bits) hscale
  rw [normalizePalwWork, blueMulOrMax_eq_min]
  exact (min_le_left _ _).trans_lt hmul

def COMPUTE_TO_HASH_CAP : ℕ := 4

def computeWorkCap (hashWork cap : ℕ) : ℕ := blueMulOrMax hashWork cap

/-- Compute work counts up to a multiple of the hash work. -/
def cappedComputeWork (computeWork hashWork cap : ℕ) : ℕ :=
  min computeWork (computeWorkCap hashWork cap)

def computeHeadroom (hashWork computeWork cap : ℕ) : ℕ := computeWorkCap hashWork cap - computeWork

/-- What blocks are ordered by. -/
def effectiveBlueWork (hashWork computeWork cap : ℕ) : ℕ :=
  blueSaturatingAdd hashWork (cappedComputeWork computeWork hashWork cap)

theorem cappedComputeWork_eq {hashWork computeWork cap : ℕ} (h : computeWork ≤ BLUE_WORK_MAX) :
    cappedComputeWork computeWork hashWork cap = min computeWork (hashWork * cap) := by
  rw [cappedComputeWork, computeWorkCap, blueMulOrMax_eq_min]
  omega

theorem effectiveBlueWork_eq {hashWork computeWork cap : ℕ}
    (h : hashWork + computeWork ≤ BLUE_WORK_MAX) :
    effectiveBlueWork hashWork computeWork cap = hashWork + min computeWork (hashWork * cap) := by
  rw [effectiveBlueWork, blueSaturatingAdd_eq_min, cappedComputeWork_eq (by omega)]
  omega

end Misaka
