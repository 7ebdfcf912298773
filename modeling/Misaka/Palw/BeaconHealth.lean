import Misaka.Palw.BeaconRun

/-!
# Health signals of the beacon

Three readings of one history of beacon states: the counter of degraded epochs with its mode, the
first halted epoch in closed form, and the run of equal seeds over a sample of epochs. The counter
is the number of epochs since the last Healthy one, and the other two agree with it.
-/

namespace Misaka.Palw

open Misaka.Core Dns List

def PalwBeaconStateV1.haltedSince (s : PalwBeaconStateV1) (graceEpochs : ℕ) : Option ℕ :=
  if s.mode = PalwBeaconMode.halted.toU8 then
    some (saturatingAdd (saturatingAdd s.epoch graceEpochs) 1 - s.degradedEpochs)
  else none

/-- The loop of `palw_seed_carry_run` over the older samples, newest first. -/
def oldestEqual (newestSeed : Hash64) : ℕ → List (ℕ × Hash64) → ℕ
  | oldest, [] => oldest
  | oldest, (epoch, seed) :: older =>
    if seed ≠ newestSeed then oldest else oldestEqual newestSeed epoch older

def palwSeedCarryRun (samples : List (ℕ × Hash64)) : ℕ :=
  match samples.reverse with
  | [] => 0
  | (newestEpoch, newestSeed) :: older => newestEpoch - oldestEqual newestSeed newestEpoch older

inductive BeaconHistory (P : PalwPrimitives) (params : BeaconParams) :
    List PalwBeaconStateV1 → Prop
  | first {epoch : ℕ} {anchor : BeaconDnsAnchor} {inputs : BeaconEpochInputs} {dnsHealthy : Bool}
      {stakeOf : TransactionOutpoint → ℕ} : BeaconHistory P params
        [deriveBeaconEpochState P params epoch 0 anchor inputs dnsHealthy 0 stakeOf]
  | next {prev : PalwBeaconStateV1} {older : List PalwBeaconStateV1} {anchor : BeaconDnsAnchor}
      {inputs : BeaconEpochInputs} {dnsHealthy : Bool} {stakeOf : TransactionOutpoint → ℕ}
      (history : BeaconHistory P params (prev :: older)) : BeaconHistory P params
        (deriveBeaconEpochState P params (prev.epoch + 1) prev.seed anchor inputs dnsHealthy
          prev.degradedEpochs stakeOf :: prev :: older)

def degradedRun (states : List PalwBeaconStateV1) : ℕ :=
  (states.takeWhile (·.mode ≠ PalwBeaconMode.healthy.toU8)).length

def FreshSeeds (states : List PalwBeaconStateV1) : Prop :=
  states.IsChain fun s prev => s.mode = PalwBeaconMode.healthy.toU8 → s.seed ≠ prev.seed

variable {P : PalwPrimitives} {B : BeaconProcessor} {params : BeaconParams}
  {s prev : PalwBeaconStateV1} {older : List PalwBeaconStateV1} {anchor : BeaconDnsAnchor}

theorem replayEpochs_history {view : PalwBeaconAccumViewV1} {dnsHealthy : Bool} {n : ℕ}
    {replayed : Option PalwBeaconStateV1} (hhistory : BeaconHistory P params (prev :: older))
    (hreplayed : replayed.all (· = prev))
    (h : replayEpochs P params view anchor dnsHealthy (List.range' (prev.epoch + 1) n) prev.seed
      prev.degradedEpochs replayed = some s) :
    ∃ between, BeaconHistory P params (s :: between) := by
  induction n generalizing prev older replayed with
  | zero =>
    obtain rfl : replayed = some s := h
    obtain rfl : s = prev := by simpa using hreplayed
    exact ⟨older, hhistory⟩
  | succ n ih =>
    rw [List.range'_succ, replayEpochs] at h
    exact ih hhistory.next (by simp) h

/-- The state of a block is the newest of a history, whatever epochs it had to replay. -/
theorem exists_history_of_beaconRun {blocks : List BeaconBlock} {chain : BeaconChain}
    (h : beaconRun P B params blocks = .ok chain) (hstate : chain.state = some s) :
    ∃ older, BeaconHistory P params (s :: older) := by
  revert s
  refine foldlM_induction (I := fun c => ∀ {s}, c.state = some s →
    ∃ older, BeaconHistory P params (s :: older)) (fun c b c' _ hc hstep => ?_) ?_ h
  · intro s hs
    obtain ⟨s', hderive, hstate', -⟩ := commit_eq_ok hstep
    obtain rfl : s' = s := Option.some.inj (hstate'.symm.trans hs)
    unfold derivePalwBeaconStateCore at hderive
    split at hderive
    · cases hderive
      exact ⟨[], .first⟩
    · next prev hprev =>
      obtain ⟨older, hhistory⟩ := hc hprev
      dsimp only at hderive
      split at hderive
      · cases hderive
      · split at hderive
        · exact replayEpochs_history hhistory (by simp) (elim_eq_ok.mp hderive)
        · cases hderive
          exact ⟨older, hhistory⟩
  · intro s hs
    cases hs

theorem derive_cases (params : BeaconParams) (epoch : ℕ) (prevSeed : Hash64)
    (anchor : BeaconDnsAnchor) (inputs : BeaconEpochInputs) (dnsHealthy : Bool) (prevDegraded : ℕ)
    (stakeOf : TransactionOutpoint → ℕ) :
    let t := deriveBeaconEpochState P params epoch prevSeed anchor inputs dnsHealthy prevDegraded
      stakeOf
    t.mode = 0 ∧ t.degradedEpochs = 0 ∨
      t.mode = (if saturatingAdd prevDegraded 1 ≤ params.graceEpochs then 1 else 2) ∧
        t.degradedEpochs = saturatingAdd prevDegraded 1 ∧ t.seed = prevSeed := by
  dsimp only [deriveBeaconEpochState]
  generalize beaconQuorumReached _ _ _ _ _ = quorum
  cases hhealthy : dnsHealthy && quorum with
  | true => exact .inl ⟨by simp [beaconMode, hhealthy, PalwBeaconMode.toU8], by simp⟩
  | false =>
    refine .inr ?_
    by_cases hgrace : saturatingAdd prevDegraded 1 ≤ params.graceEpochs <;>
      simp [beaconMode, hhealthy, hgrace, PalwBeaconMode.toU8]

theorem degradedRun_cons :
    degradedRun (s :: older) = if s.mode = 0 then 0 else degradedRun older + 1 := by
  unfold degradedRun
  by_cases hmode : s.mode = 0 <;> simp [hmode, PalwBeaconMode.toU8]

theorem degradedRun_le_length (states : List PalwBeaconStateV1) :
    degradedRun states ≤ states.length :=
  (takeWhile_sublist _).length_le

def modeOf (graceEpochs degradedEpochs : ℕ) : ℕ :=
  if degradedEpochs = 0 then 0 else if degradedEpochs ≤ graceEpochs then 1 else 2

theorem derive_counter {epoch : ℕ} {prevSeed : Hash64} {inputs : BeaconEpochInputs}
    {dnsHealthy : Bool} {stakeOf : TransactionOutpoint → ℕ} (hsmall : degradedRun older < U64_MAX) :
    let t := deriveBeaconEpochState P params epoch prevSeed anchor inputs dnsHealthy
      (degradedRun older) stakeOf
    t.degradedEpochs = degradedRun (t :: older) ∧
      t.mode = modeOf params.graceEpochs t.degradedEpochs := by
  intro t
  have hsat : saturatingAdd (degradedRun older) 1 = degradedRun older + 1 := min_eq_left hsmall
  rcases derive_cases params epoch prevSeed anchor inputs dnsHealthy (degradedRun older) stakeOf
    with ⟨hmode, hzero⟩ | ⟨hmode, hcount, -⟩
  · rw [degradedRun_cons, if_pos hmode, hmode, hzero]
    exact ⟨rfl, rfl⟩
  · rw [hsat] at hmode hcount
    have hne : t.mode ≠ 0 := by
      rw [hmode]
      split <;> decide
    rw [degradedRun_cons, if_neg hne, hcount, modeOf, if_neg (Nat.succ_ne_zero _)]
    exact ⟨rfl, hmode⟩

/-- The counter of a history is the number of epochs since the last Healthy one, and the mode
follows from it. -/
theorem BeaconHistory.counter (h : BeaconHistory P params (s :: older))
    (hlength : older.length < U64_MAX) :
    s.degradedEpochs = degradedRun (s :: older) ∧
      s.mode = modeOf params.graceEpochs s.degradedEpochs := by
  generalize hstates : s :: older = states at h
  induction h generalizing s older with
  | first =>
    obtain ⟨rfl, rfl⟩ := List.cons.inj hstates
    have hfirst : degradedRun [] < U64_MAX := hlength
    exact derive_counter hfirst
  | @next prev older' _ _ _ _ history ih =>
    obtain ⟨rfl, rfl⟩ := List.cons.inj hstates
    rw [(ih (Nat.lt_of_succ_lt hlength) rfl).1]
    exact derive_counter ((degradedRun_le_length _).trans_lt hlength)

theorem BeaconHistory.epoch_cons (h : BeaconHistory P params (s :: prev :: older)) :
    s.epoch = prev.epoch + 1 ∧ BeaconHistory P params (prev :: older) := by
  cases h with
  | next history => exact ⟨rfl, history⟩

theorem mode_eq_two_iff {graceEpochs degradedEpochs : ℕ} :
    modeOf graceEpochs degradedEpochs = 2 ↔ graceEpochs < degradedEpochs := by
  unfold modeOf
  split_ifs with hzero hgrace
  · simp [hzero]
  · simpa using hgrace
  · simpa using hgrace

theorem haltedSince_of_halted {graceEpochs : ℕ} (hmode : s.mode = 2)
    (hfits : s.epoch + graceEpochs < U64_MAX) :
    s.haltedSince graceEpochs = some (s.epoch + graceEpochs + 1 - s.degradedEpochs) := by
  have hsum : saturatingAdd s.epoch graceEpochs = s.epoch + graceEpochs := min_eq_left hfits.le
  rw [PalwBeaconStateV1.haltedSince, PalwBeaconMode.toU8, if_pos hmode, hsum, saturatingAdd,
    min_eq_left hfits]

theorem BeaconHistory.haltedSince_eq (h : BeaconHistory P params (s :: older))
    (hlength : older.length < U64_MAX)
    (hfits : s.epoch + min params.graceEpochs older.length < U64_MAX) :
    s.haltedSince params.graceEpochs =
      ((s :: older).takeWhile (·.mode = 2)).getLast?.map (·.epoch) := by
  induction older generalizing s with
  | nil =>
    obtain ⟨hcount, hmode⟩ := h.counter hlength
    by_cases hhalted : s.mode = 2
    · have hgrace := mode_eq_two_iff.mp (hmode.symm.trans hhalted)
      have hone : s.degradedEpochs = 1 := by
        rw [hcount, degradedRun_cons, if_neg (by simp [hhalted])]
        rfl
      have hzero : params.graceEpochs = 0 := by omega
      rw [haltedSince_of_halted hhalted (by simpa [hzero] using hfits), hone]
      simp [hhalted, hzero]
    · simp [PalwBeaconStateV1.haltedSince, PalwBeaconMode.toU8, hhalted]
  | cons prev older ih =>
    obtain ⟨hepoch, hprev⟩ := h.epoch_cons
    obtain ⟨hcount, hmode⟩ := h.counter hlength
    obtain ⟨hcount', hmode'⟩ := hprev.counter (Nat.lt_of_succ_lt hlength)
    by_cases hhalted : s.mode = 2
    · have hgrace := mode_eq_two_iff.mp (hmode.symm.trans hhalted)
      have hrun : s.degradedEpochs = prev.degradedEpochs + 1 := by
        rw [hcount, degradedRun_cons, if_neg (by simp [hhalted]), hcount']
      have hdegraded := degradedRun_le_length (prev :: older)
      rw [min_eq_left (by omega)] at hfits
      rw [haltedSince_of_halted hhalted hfits, takeWhile_cons_of_pos (by simpa using hhalted)]
      by_cases hbefore : prev.mode = 2
      · -- the run began earlier, where the state before says
        have hgrace' := mode_eq_two_iff.mp (hmode'.symm.trans hbefore)
        have hrest := ih hprev (Nat.lt_of_succ_lt hlength) (by omega)
        rw [haltedSince_of_halted hbefore (by omega),
          takeWhile_cons_of_pos (by simpa using hbefore)] at hrest
        rw [takeWhile_cons_of_pos (by simpa using hbefore), List.getLast?_cons_cons, ← hrest]
        congr 1
        omega
      · -- the run begins here
        have hwithin : prev.degradedEpochs ≤ params.graceEpochs :=
          not_lt.mp fun hlt => hbefore (hmode'.trans (mode_eq_two_iff.mpr hlt))
        rw [takeWhile_cons_of_neg (by simpa using hbefore)]
        simp only [List.getLast?_singleton, Option.map_some, Option.some_inj]
        omega
    · simp [PalwBeaconStateV1.haltedSince, PalwBeaconMode.toU8, hhalted]

theorem BeaconHistory.sub_oldestEqual_le (h : BeaconHistory P params (s :: older))
    (hfresh : FreshSeeds (s :: older)) (n : ℕ) :
    s.epoch - oldestEqual s.seed s.epoch ((older.take n).map fun t => (t.epoch, t.seed)) ≤
      degradedRun (s :: older) := by
  induction older generalizing s n with
  | nil => simp [oldestEqual]
  | cons prev older ih =>
    cases n with
    | zero => simp [oldestEqual]
    | succ n =>
      obtain ⟨hepoch, hprev⟩ := h.epoch_cons
      obtain ⟨hstep, hfresh'⟩ := isChain_cons_cons.mp hfresh
      rw [take_succ_cons, map_cons, oldestEqual]
      split
      · omega
      · next hsame =>
        rw [not_not] at hsame
        have hrest := ih hprev hfresh' n
        rw [hsame] at hrest
        have hdegraded : s.mode ≠ 0 := fun hmode => hstep hmode hsame.symm
        rw [degradedRun_cons, if_neg hdegraded]
        omega

theorem BeaconHistory.append_derive (h : BeaconHistory P params (prev :: older))
    (epochs : List BeaconEpoch) :
    BeaconHistory P params ((deriveHistory P params (prev.epoch + 1) prev.seed prev.degradedEpochs
      epochs).reverse ++ prev :: older) := by
  induction epochs generalizing prev older with
  | nil => exact h
  | cons e epochs ih =>
    rw [deriveHistory, reverse_cons, append_assoc]
    exact ih h.next

/-- In every history of epochs the mode is Halted exactly when more than the grace period of epochs
up to there were not Healthy, the closed form gives the first epoch of the halted run and nothing
outside of one, and a run of equal seeds that is longer than the grace period ends in a halted
epoch. The counter has to fit its type, and for the closed form the sum of epoch and grace. -/
theorem beaconHealth_signals_agree (P : PalwPrimitives) (B : BeaconProcessor)
    (params : BeaconParams) :
    (∀ blocks chain s, beaconRun P B params blocks = .ok chain → chain.state = some s →
      ∃ older, BeaconHistory P params (s :: older)) ∧
    ∀ s older, BeaconHistory P params (s :: older) → older.length < U64_MAX →
      (s.mode = PalwBeaconMode.halted.toU8 ↔
        params.graceEpochs < degradedRun (s :: older)) ∧
      (s.epoch + min params.graceEpochs older.length < U64_MAX →
        s.haltedSince params.graceEpochs =
          ((s :: older).takeWhile (·.mode = PalwBeaconMode.halted.toU8)).getLast?.map (·.epoch)) ∧
      ∀ n, FreshSeeds (s :: older) →
        params.graceEpochs < palwSeedCarryRun
          (((s :: older).take n).reverse.map fun t => (t.epoch, t.seed)) →
            s.mode = PalwBeaconMode.halted.toU8 := by
  refine ⟨fun _ _ _ h hstate => exists_history_of_beaconRun h hstate, fun s older h hlength => ?_⟩
  obtain ⟨hcount, hmode⟩ := h.counter hlength
  have hhalted : s.mode = 2 ↔ params.graceEpochs < degradedRun (s :: older) := by
    rw [hmode, mode_eq_two_iff, hcount]
  refine ⟨hhalted, h.haltedSince_eq hlength, fun n hfresh hrun => hhalted.mpr ?_⟩
  cases n with
  | zero => simp [palwSeedCarryRun] at hrun
  | succ n =>
    refine hrun.trans_le ?_
    rw [palwSeedCarryRun, ← map_reverse, reverse_reverse, take_succ_cons,
      map_cons]
    exact h.sub_oldestEqual_le hfresh n

def firstState : PalwBeaconStateV1 :=
  deriveBeaconEpochState samplePalwPrimitives ⟨1, 2, 3⟩ 5 0 idleEpoch.anchor {} false 0 fun _ => 0

/-- The epochs from 9 down to 5, of which 6 was the last Healthy one. -/
def haltedHistory : List PalwBeaconStateV1 :=
  (deriveHistory samplePalwPrimitives ⟨1, 2, 3⟩ 6 firstState.seed firstState.degradedEpochs
    [openedEpoch, idleEpoch, idleEpoch, idleEpoch]).reverse ++ [firstState]

theorem beaconHealth_signals_agree_halted :
    ∃ s older, s :: older = haltedHistory ∧
      BeaconHistory samplePalwPrimitives ⟨1, 2, 3⟩ (s :: older) ∧ FreshSeeds (s :: older) ∧
      s.mode = PalwBeaconMode.halted.toU8 ∧ s.haltedSince 1 = some 8 ∧
      1 < degradedRun (s :: older) := by
  have hfirst : BeaconHistory samplePalwPrimitives ⟨1, 2, 3⟩ [firstState] := .first
  have hhistory : BeaconHistory samplePalwPrimitives ⟨1, 2, 3⟩ haltedHistory :=
    hfirst.append_derive _
  have hfresh : FreshSeeds haltedHistory := by
    unfold FreshSeeds
    decide +kernel
  obtain ⟨hmode, hsince, hseeds⟩ := (beaconHealth_signals_agree samplePalwPrimitives beaconBodies
    ⟨1, 2, 3⟩).2 _ _ hhistory (by decide)
  have hhalted := hseeds 4 hfresh (by decide +kernel)
  exact ⟨_, _, rfl, hhistory, hfresh, hhalted, (hsince (by decide)).trans (by decide +kernel),
    hmode.mp hhalted⟩

end Misaka.Palw
