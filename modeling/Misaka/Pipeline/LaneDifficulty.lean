import Misaka.Chain.BlueWork
import Misaka.Pipeline.Verify

/-!
# Lane difficulty

The per-lane retarget of `consensus/src/processes/difficulty.rs`. The difficulty window is a binary
heap and is read in its layout order, so which of several oldest samples is trimmed is up to the
layout.
-/

namespace Misaka.Pipeline

open Misaka.Core List

inductive WorkLane where
  | hashFloor
  | replicaPalw
  deriving DecidableEq, Repr

def checkLiveAlgoId (algoId : UInt8) : Option WorkLane :=
  if algoId = POW_ALGO_ID_BLAKE2B_SHA3 then some .hashFloor
  else if algoId = POW_ALGO_ID_PALW_REPLICA then some .replicaPalw
  else none

structure LaneDifficultyParams where
  hashTargetTimeMs : ℕ
  replicaTargetTimeMs : ℕ
  hashWindowSize : ℕ
  replicaWindowSize : ℕ
  minSamples : ℕ
  computeWorkScale : ℕ
  maxAdjustFactor : ℕ
  hashSampleRate : ℕ
  replicaSampleRate : ℕ
  genesisHashBits : ℕ
  genesisReplicaBits : ℕ
  deriving DecidableEq, Repr

namespace LaneDifficultyParams

def isStructurallyValid (p : LaneDifficultyParams) : Bool :=
  0 < p.hashTargetTimeMs && 0 < p.replicaTargetTimeMs && 0 < p.hashWindowSize &&
    0 < p.replicaWindowSize && 0 < p.computeWorkScale && 1 ≤ p.maxAdjustFactor &&
    1 ≤ p.hashSampleRate && 1 ≤ p.replicaSampleRate

def isConsistentForActivation (p : LaneDifficultyParams) (genesisBits : ℕ) : Bool :=
  p.isStructurallyValid && p.genesisHashBits != 0 && p.genesisReplicaBits != 0 &&
    p.genesisHashBits == genesisBits && p.minSamples ≤ p.hashWindowSize &&
    p.minSamples ≤ p.replicaWindowSize && 1 ≤ p.minSamples

def genesisBits (p : LaneDifficultyParams) : WorkLane → ℕ
  | .hashFloor => p.genesisHashBits
  | .replicaPalw => p.genesisReplicaBits

def laneSampleRate (p : LaneDifficultyParams) : WorkLane → ℕ
  | .hashFloor => max p.hashSampleRate 1
  | .replicaPalw => max p.replicaSampleRate 1

def laneTargetTimeMs (p : LaneDifficultyParams) : WorkLane → ℕ
  | .hashFloor => p.hashTargetTimeMs
  | .replicaPalw => p.replicaTargetTimeMs

end LaneDifficultyParams

inductive LaneRetargetDecision where
  | holdLastBits
  | adjust (clampedMeasuredMs : ℕ)
  deriving DecidableEq, Repr

/-- Held with too few samples, else clamped by the factor. -/
def laneRetargetDecision (sampleCount minSamples measuredMs targetMs maxAdjustFactor : ℕ) :
    LaneRetargetDecision :=
  if sampleCount < minSamples then .holdLastBits
  else
    let f := max maxAdjustFactor 1
    let target := max targetMs 1
    let lo := max (target / f) 1
    let hi := min (target * f) U64_MAX
    .adjust (max lo (min measuredMs hi))

/-- The compact form, rounded down. -/
def compactTargetBits (target : ℕ) : ℕ :=
  let size := (target.size + 7) / 8
  let compact := if size ≤ 3 then (target % 2 ^ 64) <<< (8 * (3 - size)) % 2 ^ 32
    else (target >>> (8 * (size - 3))) % 2 ^ 32
  if compact &&& 0x00800000 ≠ 0 then (compact >>> 8) ||| ((size + 1) <<< 24) % 2 ^ 32
  else compact ||| (size <<< 24) % 2 ^ 32

def MAX_DIFFICULTY_TARGET : ℕ := 2 ^ 255 - 1

/-- The bits of an average target over `count` samples, scaled by the durations; the sums and
products are `Uint320` values. -/
def scaledBits (targetsSum count clampedMeasuredMs expectedMs maxTarget : ℕ) : ℕ :=
  let averageTarget := targetsSum / count
  let newTarget := averageTarget * max clampedMeasuredMs 1 % 2 ^ 320 / max expectedMs 1
  compactTargetBits (min newTarget maxTarget)

def laneRetargetBits (sampleBits : List ℕ)
    (measuredMs expectedMs holdBits minSamples maxAdjustFactor maxTarget : ℕ) : ℕ :=
  match laneRetargetDecision sampleBits.length minSamples measuredMs expectedMs maxAdjustFactor with
  | .holdLastBits => holdBits
  | .adjust clampedMeasuredMs =>
    scaledBits ((sampleBits.map fromCompactTargetBits).sum % 2 ^ 320) sampleBits.length
      clampedMeasuredMs expectedMs maxTarget

def laneExpectedBits (laneSamples : List (ℕ × ℕ))
    (laneTargetTimeMs sampleRate minSamples maxAdjustFactor holdBits maxTarget : ℕ) : Option ℕ :=
  if laneSamples.length < minSamples then some holdBits
  else do
    let minTs ← (laneSamples.map Prod.snd).min?
    let maxTs ← (laneSamples.map Prod.snd).max?
    -- `min_by_key` returns the first of several least elements
    let minI := laneSamples.findIdx (·.2 == minTs)
    let measuredMs := max (maxTs - minTs) 1
    let sampleBits := (laneSamples.eraseIdx minI).map Prod.fst
    let expectedMs := min (min (laneTargetTimeMs * sampleRate) U64_MAX * sampleBits.length) U64_MAX
    return laneRetargetBits sampleBits measuredMs expectedMs holdBits 1 maxAdjustFactor maxTarget

structure WindowHeader where
  bits : ℕ
  timestamp : ℕ
  powAlgoId : UInt8
  deriving DecidableEq, Repr

/-- The loop of `lane_bits_from_window` over the window in iteration order. -/
def laneSamples (headers : BlockHash → WindowHeader) (window : List BlockHash) (lane : WorkLane) :
    List (ℕ × ℕ) :=
  (window.filter fun hash => checkLiveAlgoId (headers hash).powAlgoId == some lane).map fun hash =>
    ((headers hash).bits, (headers hash).timestamp)

def laneBitsFromWindow (headers : BlockHash → WindowHeader) (window : List BlockHash)
    (headerAlgoId : UInt8) (p : LaneDifficultyParams) : Option ℕ := do
  let lane ← checkLiveAlgoId headerAlgoId
  laneExpectedBits (laneSamples headers window lane) (p.laneTargetTimeMs lane)
    (p.laneSampleRate lane) p.minSamples p.maxAdjustFactor (p.genesisBits lane)
    MAX_DIFFICULTY_TARGET

def IsOldest (samples : List (ℕ × ℕ)) (s : ℕ × ℕ) : Prop :=
  s ∈ samples ∧ ∀ t ∈ samples, s.2 ≤ t.2

/-- The target of the samples other than `s`: their sum divided by their number, scaled by the time
between the oldest and the youngest sample, in compact form. -/
def targetWithout (samples : List (ℕ × ℕ))
    (laneTargetTimeMs sampleRate maxAdjustFactor maxTarget : ℕ) (s : ℕ × ℕ) : ℕ :=
  let count := samples.length - 1
  let measuredMs := max (((samples.map Prod.snd).max?).getD 0 - s.2) 1
  let expectedMs := min (min (laneTargetTimeMs * sampleRate) U64_MAX * count) U64_MAX
  let f := max maxAdjustFactor 1
  let clampedMs := max (max (max expectedMs 1 / f) 1) (min measuredMs (min (max expectedMs 1 * f)
    U64_MAX))
  scaledBits ((((samples.map fun t => fromCompactTargetBits t.1).sum) -
    fromCompactTargetBits s.1) % 2 ^ 320) count clampedMs expectedMs maxTarget

section Trim

variable {samples samples' : List (ℕ × ℕ)} {s : ℕ × ℕ}
  {targetMs rate minSamples factor hold maxTarget : ℕ}

theorem IsOldest.perm (h : IsOldest samples s) (hperm : samples.Perm samples') :
    IsOldest samples' s :=
  ⟨hperm.mem_iff.mp h.1, fun t ht => h.2 t (hperm.mem_iff.mpr ht)⟩

theorem IsOldest.min?_eq (h : IsOldest samples s) : (samples.map Prod.snd).min? = some s.2 := by
  rw [List.min?_eq_some_iff]
  refine ⟨mem_map_of_mem h.1, fun b hb => ?_⟩
  obtain ⟨t, ht, rfl⟩ := mem_map.mp hb
  exact h.2 t ht

theorem max?_perm (hperm : samples.Perm samples') :
    (samples.map Prod.snd).max? = (samples'.map Prod.snd).max? := by
  ext m
  rw [List.max?_eq_some_iff, List.max?_eq_some_iff]
  simp only [(hperm.map Prod.snd).mem_iff]

theorem targetWithout_perm (hperm : samples.Perm samples') :
    targetWithout samples targetMs rate factor maxTarget s =
      targetWithout samples' targetMs rate factor maxTarget s := by
  rw [targetWithout, targetWithout, hperm.length_eq, max?_perm hperm, (hperm.map _).sum_eq]

theorem sum_targets_eraseIdx {i : ℕ} (hi : samples[i]? = some s) :
    (((samples.eraseIdx i).map Prod.fst).map fromCompactTargetBits).sum =
      (samples.map fun t => fromCompactTargetBits t.1).sum - fromCompactTargetBits s.1 := by
  obtain ⟨hlt, hget⟩ := List.getElem?_eq_some_iff.mp hi
  have hperm := (getElem_cons_eraseIdx_perm hlt).map fun t => fromCompactTargetBits t.1
  rw [← hperm.sum_eq, map_cons, sum_cons, hget, Nat.add_sub_cancel_left, map_map]
  rfl

/-- With enough samples, and more than the trimmed one, the bits are what the trim of the first
oldest sample leaves. -/
theorem laneExpectedBits_eq (hmin : minSamples ≤ samples.length) (htwo : 2 ≤ samples.length)
    (hs : IsOldest samples s) (hi : samples[samples.findIdx (·.2 == s.2)]? = some s) :
    laneExpectedBits samples targetMs rate minSamples factor hold maxTarget =
      some (targetWithout samples targetMs rate factor maxTarget s) := by
  obtain ⟨hlt, -⟩ := List.getElem?_eq_some_iff.mp hi
  have hlength : ((samples.eraseIdx (samples.findIdx (·.2 == s.2))).map Prod.fst).length =
      samples.length - 1 := by rw [length_map, length_eraseIdx_of_lt hlt]
  have hsome : (samples.map Prod.snd).max?.isSome := isSome_max?_of_mem (mem_map_of_mem hs.1)
  obtain ⟨m, hm⟩ := Option.isSome_iff_exists.mp hsome
  rw [laneExpectedBits, if_neg (by omega), hs.min?_eq, hm]
  simp only [Option.bind_eq_bind, Option.bind_some, Option.pure_def]
  rw [laneRetargetBits, laneRetargetDecision, hlength, if_neg (by omega),
    sum_targets_eraseIdx hi]
  simp only [targetWithout, hm, Option.getD_some]

theorem exists_oldest (hne : samples ≠ []) : ∃ s, IsOldest samples s ∧
    samples[samples.findIdx (·.2 == s.2)]? = some s := by
  obtain ⟨m, hm⟩ := Option.isSome_iff_exists.mp
    (isSome_min?_of_ne_nil (mt map_eq_nil_iff.mp hne : samples.map Prod.snd ≠ []))
  obtain ⟨hmem, hle⟩ := List.min?_eq_some_iff.mp hm
  obtain ⟨t, ht, rfl⟩ := mem_map.mp hmem
  have hlt : samples.findIdx (·.2 == t.2) < samples.length :=
    findIdx_lt_length_of_exists ⟨t, ht, beq_self_eq_true _⟩
  have hfound : samples[samples.findIdx (·.2 == t.2)].2 = t.2 :=
    eq_of_beq (findIdx_getElem (w := hlt))
  refine ⟨samples[samples.findIdx (·.2 == t.2)], ⟨getElem_mem hlt, fun q hq => ?_⟩, ?_⟩
  · rw [hfound]
    exact hle _ (mem_map_of_mem hq)
  · rw [hfound, List.getElem?_eq_getElem hlt]

theorem laneExpectedBits_hold (hshort : samples.length < minSamples ∨ samples.length = 1) :
    laneExpectedBits samples targetMs rate minSamples factor hold maxTarget = some hold := by
  by_cases hlt : samples.length < minSamples
  · rw [laneExpectedBits, if_pos hlt]
  · obtain ⟨s, rfl⟩ := length_eq_one_iff.mp (hshort.resolve_left hlt)
    rw [laneExpectedBits, if_neg hlt]
    simp only [map_cons, map_nil, List.min?_singleton, List.max?_singleton,
      Option.bind_eq_bind, Option.bind_some, findIdx_cons, beq_self_eq_true, cond_true,
      eraseIdx_cons_zero, laneRetargetBits, laneRetargetDecision, length_nil,
      Nat.lt_one_iff, if_true, Option.pure_def]

theorem laneExpectedBits_cons (hmin : minSamples ≤ (s :: samples).length) (hne : samples ≠ [])
    (hs : IsOldest (s :: samples) s) :
    laneExpectedBits (s :: samples) targetMs rate minSamples factor hold maxTarget =
      some (targetWithout (s :: samples) targetMs rate factor maxTarget s) := by
  have hlength := length_pos_of_ne_nil hne
  refine laneExpectedBits_eq hmin (by rw [length_cons]; omega) hs ?_
  simp [findIdx_cons]

end Trim

/-- It makes no difference which of the oldest samples is trimmed: what the others leave rounds to
the same compact target. -/
def TrimIndifferent (samples : List (ℕ × ℕ))
    (laneTargetTimeMs sampleRate minSamples maxAdjustFactor maxTarget : ℕ) : Prop :=
  minSamples ≤ samples.length → ∀ s t, IsOldest samples s → IsOldest samples t →
    targetWithout samples laneTargetTimeMs sampleRate maxAdjustFactor maxTarget s =
      targetWithout samples laneTargetTimeMs sampleRate maxAdjustFactor maxTarget t

section OrderFree

variable {samples samples' : List (ℕ × ℕ)} {targetMs rate minSamples factor hold maxTarget : ℕ}

theorem trimIndifferent_of_targets_eq (h : ∀ s t, IsOldest samples s → IsOldest samples t →
      fromCompactTargetBits s.1 = fromCompactTargetBits t.1) :
    TrimIndifferent samples targetMs rate minSamples factor maxTarget := by
  intro _ s t hs ht
  have hts : s.2 = t.2 := le_antisymm (hs.2 t ht.1) (ht.2 s hs.1)
  rw [targetWithout, targetWithout, hts, h s t hs ht]

theorem laneExpectedBits_perm (hpos : 1 ≤ minSamples)
    (h : TrimIndifferent samples targetMs rate minSamples factor maxTarget)
    (hperm : samples'.Perm samples) :
    laneExpectedBits samples' targetMs rate minSamples factor hold maxTarget =
      laneExpectedBits samples targetMs rate minSamples factor hold maxTarget := by
  by_cases hshort : samples.length < minSamples ∨ samples.length = 1
  · rw [laneExpectedBits_hold hshort, laneExpectedBits_hold (by rwa [hperm.length_eq])]
  · have hne : samples ≠ [] := fun hnil => hshort (.inl (by rw [hnil, length_nil]; omega))
    have hne' : samples' ≠ [] := fun hnil => hne (hnil ▸ hperm).nil_eq.symm
    have hlength := hperm.length_eq
    have hpositive := length_pos_of_ne_nil hne
    -- each order trims an oldest sample of its own
    obtain ⟨s, hs, hi⟩ := exists_oldest hne
    obtain ⟨s', hs', hi'⟩ := exists_oldest hne'
    rw [laneExpectedBits_eq (by omega) (by omega) hs hi,
      laneExpectedBits_eq (by omega) (by omega) hs' hi', targetWithout_perm hperm,
      h (by omega) s' s (hs'.perm hperm) hs]

theorem laneExpectedBits_of_perm_cons {s : ℕ × ℕ} (hmin : minSamples ≤ samples.length)
    (htwo : 2 ≤ samples.length) (hs : IsOldest samples s) (hperm : (s :: samples').Perm samples) :
    laneExpectedBits (s :: samples') targetMs rate minSamples factor hold maxTarget =
      some (targetWithout samples targetMs rate factor maxTarget s) := by
  have hlength := hperm.length_eq
  have hne : samples' ≠ [] := fun hnil => by
    rw [hnil, length_singleton] at hlength
    omega
  rw [laneExpectedBits_cons (by omega) hne (hs.perm hperm.symm), targetWithout_perm hperm]

theorem trimIndifferent_of_forall_oldest (hold : ℕ)
    (h : ∀ s, IsOldest samples s → ∃ order, (s :: order).Perm samples ∧
      laneExpectedBits (s :: order) targetMs rate minSamples factor hold maxTarget =
        laneExpectedBits samples targetMs rate minSamples factor hold maxTarget) :
    TrimIndifferent samples targetMs rate minSamples factor maxTarget := by
  intro hmin s t hs ht
  by_cases htwo : 2 ≤ samples.length
  · obtain ⟨order, hperm, heq⟩ := h s hs
    obtain ⟨order', hperm', heq'⟩ := h t ht
    rw [laneExpectedBits_of_perm_cons hmin htwo hs hperm] at heq
    rw [laneExpectedBits_of_perm_cons hmin htwo ht hperm'] at heq'
    exact Option.some.inj (heq.trans heq'.symm)
  · -- a single sample is the only oldest one
    match samples, hs.1, ht.1, htwo with
    | [q], hsq, htq, _ => rw [mem_singleton.mp hsq, mem_singleton.mp htq]
    | _ :: _ :: _, _, _, hlt => exact absurd (by simp) hlt

end OrderFree

section Window

variable {headers : BlockHash → WindowHeader} {window order : List BlockHash} {lane : WorkLane}

theorem laneSamples_perm (hperm : order.Perm window) :
    (laneSamples headers order lane).Perm (laneSamples headers window lane) :=
  (hperm.filter _).map _

theorem exists_order_of_mem_laneSamples {s : ℕ × ℕ} (hs : s ∈ laneSamples headers window lane) :
    ∃ order rest, order.Perm window ∧ laneSamples headers order lane = s :: rest := by
  obtain ⟨hash, hmem, rfl⟩ := mem_map.mp hs
  obtain ⟨hmem, hlane⟩ := mem_filter.mp hmem
  refine ⟨hash :: window.erase hash, laneSamples headers (window.erase hash) lane,
    (perm_cons_erase hmem).symm, ?_⟩
  rw [laneSamples, filter_cons, if_pos hlane, map_cons]
  rfl

end Window

/-- The lane's bits do not depend on the order in which the samples, or the blocks of the window
heap, are visited exactly when it makes no difference which of the oldest samples is trimmed. One
target for all oldest samples is enough for that. -/
theorem lane_bits_order_free_iff (p : LaneDifficultyParams) (genesisBits : ℕ)
    (hp : p.isConsistentForActivation genesisBits = true) :
    (∀ (lane : WorkLane) (samples : List (ℕ × ℕ)) (holdBits maxTarget : ℕ),
      (∀ order, order.Perm samples →
        laneExpectedBits order (p.laneTargetTimeMs lane) (p.laneSampleRate lane) p.minSamples
            p.maxAdjustFactor holdBits maxTarget =
          laneExpectedBits samples (p.laneTargetTimeMs lane) (p.laneSampleRate lane) p.minSamples
            p.maxAdjustFactor holdBits maxTarget) ↔
        TrimIndifferent samples (p.laneTargetTimeMs lane) (p.laneSampleRate lane) p.minSamples
          p.maxAdjustFactor maxTarget) ∧
      (∀ (headers : BlockHash → WindowHeader) (window : List BlockHash) (headerAlgoId : UInt8)
        (lane : WorkLane), checkLiveAlgoId headerAlgoId = some lane →
        ((∀ order, order.Perm window → laneBitsFromWindow headers order headerAlgoId p =
          laneBitsFromWindow headers window headerAlgoId p) ↔
          TrimIndifferent (laneSamples headers window lane) (p.laneTargetTimeMs lane)
            (p.laneSampleRate lane) p.minSamples p.maxAdjustFactor MAX_DIFFICULTY_TARGET)) ∧
      ∀ (lane : WorkLane) (samples : List (ℕ × ℕ)) (maxTarget : ℕ),
        (∀ s t, IsOldest samples s → IsOldest samples t →
          fromCompactTargetBits s.1 = fromCompactTargetBits t.1) →
        TrimIndifferent samples (p.laneTargetTimeMs lane) (p.laneSampleRate lane) p.minSamples
          p.maxAdjustFactor maxTarget := by
  have hpos : 1 ≤ p.minSamples := by
    rw [LaneDifficultyParams.isConsistentForActivation, Bool.and_eq_true] at hp
    exact of_decide_eq_true hp.2
  refine ⟨fun lane samples holdBits maxTarget => ⟨fun h => ?_, fun h order hperm => ?_⟩,
    fun headers window headerAlgoId lane hlane => ⟨fun h => ?_, fun h order hperm => ?_⟩,
    fun lane samples maxTarget => trimIndifferent_of_targets_eq⟩
  · refine trimIndifferent_of_forall_oldest holdBits fun s hs => ?_
    have hperm := (perm_cons_erase hs.1).symm
    exact ⟨_, hperm, h _ hperm⟩
  · exact laneExpectedBits_perm hpos h hperm
  · refine trimIndifferent_of_forall_oldest (p.genesisBits lane) fun s hs => ?_
    obtain ⟨order, rest, hperm, hsamples⟩ := exists_order_of_mem_laneSamples hs.1
    have heq := h order hperm
    simp only [laneBitsFromWindow, hlane, Option.bind_eq_bind, Option.bind_some, hsamples] at heq
    exact ⟨rest, hsamples ▸ laneSamples_perm hperm, heq⟩
  · simp only [laneBitsFromWindow, hlane, Option.bind_eq_bind, Option.bind_some]
    exact laneExpectedBits_perm hpos h (laneSamples_perm hperm)

/-- `sift_up` of a `BinaryHeap<Reverse<SortableBlock>>`: a block of less blue work moves up. -/
def heapSiftUp (blueWork : BlockHash → ℕ) : ℕ → List BlockHash → ℕ → List BlockHash
  | 0, heap, _ => heap
  | fuel + 1, heap, pos =>
    match heap[pos]?, heap[(pos - 1) / 2]? with
    | some x, some parent =>
      if blueWork x < blueWork parent ∨ blueWork x = blueWork parent ∧ x < parent then
        heapSiftUp blueWork fuel ((heap.set pos parent).set ((pos - 1) / 2) x) ((pos - 1) / 2)
      else heap
    | _, _ => heap

def heapPush (blueWork : BlockHash → ℕ) (heap : List BlockHash) (hash : BlockHash) :
    List BlockHash :=
  heapSiftUp blueWork (heap.length + 1) (heap ++ [hash]) heap.length

/-- Three blocks of a chain; the second and the third carry one timestamp, before the first's, and
different bits. -/
def tiedHeaders (hash : BlockHash) : WindowHeader :=
  if hash = 1 then ⟨0x1e7fffff, 2000, 3⟩
  else if hash = 2 then ⟨0x1e7fffff, 1000, 3⟩
  else ⟨0x1d7fffff, 1000, 3⟩

def tiedParams : LaneDifficultyParams :=
  ⟨500, 125, 2641, 2641, 3, 1, 2, 1, 1, 0x1e7fffff, 0x1e7fffff⟩

/-- Grown block by block from cached windows, and walked down the chain without a cache. -/
theorem tied_window_bits_differ :
    tiedParams.isConsistentForActivation 0x1e7fffff = true ∧
      [1, 2, 3].foldl (heapPush id) [] = [1, 2, 3] ∧ [3, 2, 1].foldl (heapPush id) [] = [1, 3, 2] ∧
      laneBitsFromWindow tiedHeaders ([1, 2, 3].foldl (heapPush id) []) 3 tiedParams ≠
        laneBitsFromWindow tiedHeaders ([3, 2, 1].foldl (heapPush id) []) 3 tiedParams := by
  decide +kernel

/-- With one target for both oldest samples the two layouts agree. -/
theorem lane_bits_order_free_iff_tied :
    laneBitsFromWindow (fun hash => { tiedHeaders hash with bits := 0x1e7fffff }) [1, 3, 2] 3
        tiedParams =
      laneBitsFromWindow (fun hash => { tiedHeaders hash with bits := 0x1e7fffff }) [1, 2, 3] 3
        tiedParams := by
  obtain ⟨-, hwindow, htargets⟩ := lane_bits_order_free_iff tiedParams 0x1e7fffff (by decide)
  refine (hwindow (fun hash => { tiedHeaders hash with bits := 0x1e7fffff }) [1, 2, 3] 3 .hashFloor
    (by decide)).mpr (htargets _ _ _ fun s t hs ht => ?_) [1, 3, 2] (by decide)
  obtain ⟨_, -, rfl⟩ := mem_map.mp hs.1
  obtain ⟨_, -, rfl⟩ := mem_map.mp ht.1
  rfl

end Misaka.Pipeline
