import Misaka.Chain.Transaction
import Misaka.Core.Fallible
import Misaka.Core.RunLength

/-!
# Parents by level

`CompressedParents` of `consensus/core/src/header.rs`: the parents of a block at every level, as
cumulative runs. Both conversions that build a value compare each run with the one before it; the
conversion from runs never looks at the first one, and a first run of count zero makes every use of
the expansion panic.
-/

namespace Misaka.BlockHeader

open Misaka.Core List

abbrev Digest := { b : Bytes // b.length = 64 }

abbrev Run := UInt8 × List Digest

inductive CompressedParentsError where
  | levelsExceeded
  | levelsNotStrictlyIncreasing
  | notFullyCompressed
  deriving DecidableEq, Repr

inductive Panic where
  | countsNotIncreasing
  | subtractOverflow
  | indexOutOfBounds
  | timestampNotConvertible
  deriving DecidableEq, Repr

def Follows (r r' : Run) : Prop := r.1 < r'.1 ∧ r.2 ≠ r'.2

@[ext] structure CompressedParents where
  runs : List Run
  follows : runs.IsChain Follows
  deriving DecidableEq

namespace CompressedParents

def counts (runs : List Run) : List (ℕ × List Digest) := runs.map fun r => (r.1.toNat, r.2)

variable (p : CompressedParents)

def expandedLen : ℕ := (p.runs.getLast?.map (·.1.toNat)).getD 0

def expandedIter : Except Panic (List (List Digest)) :=
  (expandFrom 0 (counts p.runs)).elim (.error .countsNotIncreasing) .ok

/-- The predicate of the search in `get`. -/
def before (index : ℕ) (run : Run) : Except Panic Bool :=
  if run.1 = 0 then .error .subtractOverflow else .ok (run.1.toNat - 1 < index)

def get (index : ℕ) : Except Panic (Option (List Digest)) :=
  if p.expandedLen ≤ index then .ok none
  else if index = 0 then
    p.runs.head?.elim (.error .indexOutOfBounds) fun run => .ok (some run.2)
  else do
    let marks ← p.runs.mapM (before index)
    p.runs[(marks.takeWhile id).length]?.elim (.error .indexOutOfBounds) fun run => .ok (some run.2)

def checkRuns : List Run → Except CompressedParentsError Unit
  | r :: r' :: runs =>
    if r'.1 ≤ r.1 then .error .levelsNotStrictlyIncreasing
    else if r.2 = r'.2 then .error .notFullyCompressed
    else checkRuns (r' :: runs)
  | _ => .ok ()

variable {runs : List Run} {levels : List (List Digest)}

theorem checkRuns_eq_ok : checkRuns runs = .ok () ↔ runs.IsChain Follows := by
  induction runs with
  | nil => simp [checkRuns]
  | cons r runs ih =>
    cases runs with
    | nil => simp [checkRuns]
    | cons r' runs =>
      rw [checkRuns, isChain_cons_cons, error_ite_eq_ok, error_ite_eq_ok, ih, Follows,
        UInt8.not_le, and_assoc]

/-- `TryFrom<Vec<(u8, Vec<BlockHash>)>>`. -/
def tryFromRuns (runs : List Run) : Except CompressedParentsError CompressedParents :=
  match h : checkRuns runs with
  | .error e => .error e
  | .ok () => .ok ⟨runs, checkRuns_eq_ok.mp h⟩

/-- A run with its count cast to `u8`. -/
def castRun (r : ℕ × List Digest) : Run := (UInt8.ofNat r.1, r.2)

theorem follows_castRun {n : ℕ} {runs : List (ℕ × List Digest)} (h : CanonicalFrom n runs)
    (hle : ∀ r ∈ runs, r.1 ≤ 255) : (runs.map castRun).IsChain Follows := by
  induction runs generalizing n with
  | nil => exact .nil
  | cons r runs ih =>
    obtain ⟨-, hne, hrest⟩ := h
    have htail := ih hrest (forall_mem_cons.mp hle).2
    cases runs with
    | nil => exact .singleton _
    | cons r' runs =>
      refine isChain_cons_cons.mpr ⟨⟨?_, hne r' rfl⟩, htail⟩
      have hr' := hle r' (mem_cons_of_mem r mem_cons_self)
      have hlt : r.1 < r'.1 := hrest.1
      simp only [castRun, UInt8.lt_iff_toNat_lt, UInt8.toNat_ofNat']
      omega

def ofLevels (levels : List (List Digest)) (h : levels.length ≤ 255) : CompressedParents where
  runs := (rleFrom 0 levels).map castRun
  follows := follows_castRun (canonicalFrom_rleFrom 0 levels) fun _ hr => by
    have hle := le_of_mem_rleFrom hr
    omega

/-- `TryFrom<Vec<Vec<BlockHash>>>`. -/
def tryFromLevels (levels : List (List Digest)) : Except CompressedParentsError CompressedParents :=
  if h : levels.length ≤ 255 then .ok (ofLevels levels h) else .error .levelsExceeded

variable {p}

def FirstCounts (runs : List Run) : Prop := ∀ run ∈ runs.head?, run.1 ≠ 0

theorem canonicalFrom_counts {n : ℕ} (h : runs.IsChain Follows)
    (hfirst : ∀ run ∈ runs.head?, n < run.1.toNat) : CanonicalFrom n (counts runs) := by
  induction runs generalizing n with
  | nil => trivial
  | cons r runs ih =>
    refine ⟨hfirst r rfl, ?_, ih h.of_cons ?_⟩
    · intro s hs
      cases runs with
      | nil => cases hs
      | cons r' runs =>
        cases hs
        exact (isChain_cons_cons.mp h).1.2
    · intro s hs
      cases runs with
      | nil => cases hs
      | cons r' runs =>
        cases hs
        exact UInt8.lt_iff_toNat_lt.mp (isChain_cons_cons.mp h).1.1

theorem pos_of_firstCounts (h : FirstCounts runs) : ∀ run ∈ runs.head?, 0 < run.1.toNat := by
  intro run hrun
  refine pos_of_ne_zero fun hzero => h run hrun ?_
  exact UInt8.toNat_inj.mp hzero

theorem expandedIter_of_zero (h : ¬FirstCounts p.runs) :
    p.expandedIter = .error .countsNotIncreasing := by
  simp only [FirstCounts, not_forall, not_not] at h
  obtain ⟨run, hrun, hzero⟩ := h
  unfold expandedIter
  cases hruns : p.runs with
  | nil =>
    rw [hruns] at hrun
    cases hrun
  | cons r runs =>
    rw [hruns] at hrun
    cases hrun
    simp [counts, expandFrom, hzero]

theorem mapM_before {index : ℕ} (h : ∀ run ∈ runs, run.1 ≠ 0) :
    runs.mapM (before index) = .ok (runs.map fun run => decide (run.1.toNat - 1 < index)) := by
  rw [mapM_eq_ok, forall₂_map_right_iff, forall₂_same]
  intro run hrun
  rw [before, if_neg (h run hrun)]

theorem getElem?_takeWhile {index : ℕ} (h : ∀ run ∈ runs, run.1 ≠ 0) :
    runs[((runs.map fun run => decide (run.1.toNat - 1 < index)).takeWhile id).length]? =
      runs.find? fun run => index < run.1.toNat := by
  induction runs with
  | nil => rfl
  | cons r runs ih =>
    have hr : 0 < r.1.toNat := pos_of_ne_zero fun hzero =>
      h r mem_cons_self (UInt8.toNat_inj.mp hzero)
    have hrest := ih (forall_mem_cons.mp h).2
    by_cases hlt : index < r.1.toNat
    · rw [List.find?_cons_of_pos (by simpa using hlt), map_cons,
        takeWhile_cons_of_neg (by simp; omega)]
      rfl
    · rw [List.find?_cons_of_neg (by simpa using hlt), map_cons,
        takeWhile_cons_of_pos (by simp; omega), length_cons, List.getElem?_cons_succ,
        hrest]

theorem ne_zero_of_mem (h : CanonicalFrom 0 (counts runs)) : ∀ run ∈ runs, run.1 ≠ 0 := by
  intro run hrun hzero
  have hlt := h.lt_of_mem (mem_map_of_mem hrun)
  simp [hzero] at hlt

theorem castRun_counts (runs : List Run) : (counts runs).map castRun = runs := by
  simp [counts, castRun, Function.comp_def]

/-- What reading the parents gives: the same levels through the expansion, its length and each
position, and the runs are those of these levels. -/
structure ReadsAs (p : CompressedParents) (levels : List (List Digest)) : Prop where
  expanded : p.expandedIter = .ok levels
  length : p.expandedLen = levels.length
  get : ∀ i, p.get i = .ok levels[i]?
  raw : p.runs = (rleFrom 0 levels).map castRun

theorem get_eq (h : CanonicalFrom 0 (counts p.runs))
    (hlevels : expandFrom 0 (counts p.runs) = some levels) (hlen : p.expandedLen = levels.length)
    (i : ℕ) : p.get i = .ok levels[i]? := by
  have hfind : levels[i]? = (p.runs.find? fun run => i < run.1.toNat).map Prod.snd := by
    have hget := getElem?_expandFrom hlevels (Nat.zero_le i)
    rwa [Nat.sub_zero, counts, List.find?_map, Option.map_map] at hget
  unfold get
  split
  · next hle => rw [List.getElem?_eq_none (hlen ▸ hle)]
  · next hlt =>
    have hsome : ∃ run, (p.runs.find? fun run => i < run.1.toNat) = some run := by
      have hget := List.getElem?_eq_getElem (l := levels) (i := i) (by omega)
      rw [hget] at hfind
      obtain ⟨run, hrun, -⟩ := Option.map_eq_some_iff.mp hfind.symm
      exact ⟨run, hrun⟩
    obtain ⟨run, hrun⟩ := hsome
    rw [hrun] at hfind
    split
    · next hzero =>
      subst hzero
      cases hruns : p.runs with
      | nil =>
        rw [hruns] at hrun
        cases hrun
      | cons r runs =>
        rw [hruns] at hrun h
        have hr : 0 < r.1.toNat := h.1
        rw [List.find?_cons_of_pos (by simpa using hr)] at hrun
        cases hrun
        rw [hfind]
        rfl
    · have hne := ne_zero_of_mem h
      rw [mapM_before hne]
      change (p.runs[_]?).elim _ _ = _
      rw [getElem?_takeWhile hne, hrun, hfind]
      rfl

theorem exists_readsAs (h : FirstCounts p.runs) : ∃ levels, p.ReadsAs levels := by
  have hcanonical := canonicalFrom_counts p.follows (pos_of_firstCounts h)
  obtain ⟨levels, hlevels⟩ := exists_expandFrom hcanonical
  have hlen : p.expandedLen = levels.length := by
    have hlast := length_expandFrom hlevels
    rwa [counts, List.getLast?_map, Option.map_map, zero_add] at hlast
  refine ⟨levels, ?_, hlen, get_eq hcanonical hlevels hlen, ?_⟩
  · rw [expandedIter, hlevels]
    rfl
  · rw [rleFrom_expandFrom hcanonical hlevels, castRun_counts]

theorem readsAs_of_expandedIter (h : p.expandedIter = .ok levels) : p.ReadsAs levels := by
  have hfirst : FirstCounts p.runs := by
    by_contra hzero
    rw [expandedIter_of_zero hzero] at h
    cases h
  obtain ⟨levels', hreads⟩ := exists_readsAs hfirst
  obtain rfl := Except.ok.inj (h.symm.trans hreads.expanded)
  exact hreads

theorem expandedLen_lt (p : CompressedParents) : p.expandedLen < 256 := by
  unfold expandedLen
  cases p.runs.getLast? with
  | none => decide
  | some run => exact run.1.toNat_lt

theorem tryFromRuns_of_follows (p : CompressedParents) : tryFromRuns p.runs = .ok p := by
  unfold tryFromRuns
  split
  · next e he =>
    rw [checkRuns_eq_ok.mpr p.follows] at he
    cases he
  · rfl

theorem ReadsAs.tryFromLevels (h : p.ReadsAs levels) : tryFromLevels levels = .ok p := by
  have hlen : levels.length ≤ 255 := by
    rw [← h.length]
    exact Nat.le_of_lt_succ p.expandedLen_lt
  rw [CompressedParents.tryFromLevels, dif_pos hlen]
  exact congrArg Except.ok (CompressedParents.ext h.raw.symm)

theorem exists_run_of_expandedIter (h : p.expandedIter = .ok levels) {level : List Digest}
    (hlevel : level ∈ levels) : ∃ run ∈ p.runs, run.2 = level := by
  unfold expandedIter at h
  cases hexpand : expandFrom 0 (counts p.runs) with
  | none =>
    rw [hexpand] at h
    cases h
  | some l =>
    rw [hexpand] at h
    cases h
    obtain ⟨run, hrun, heq⟩ := exists_run_of_mem hexpand hlevel
    obtain ⟨run', hrun', rfl⟩ := mem_map.mp hrun
    exact ⟨run', hrun', heq⟩

end CompressedParents

end Misaka.BlockHeader
