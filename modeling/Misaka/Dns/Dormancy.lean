import Misaka.Core.HighWater
import Misaka.Core.Run
import Misaka.Dns.MandatoryInclusion

/-!
# Dormancy

Bonds that do not attest for a window of epochs become dormant, so that dead stake leaves the
finality denominator, and are revived by a later attestation. `stage_dormancy_transitions` replays
every eviction round that got buried since the previous pass.
-/

namespace Misaka.Dns

open Misaka.Core List

def DnsParams.dnsV4ParamsConsistent (params : DnsParams) : Bool :=
  let l := params.attestationEpochLengthBlueScore
  let windowBlueScore := min (params.dormancyWindowEpochs * l) U64_MAX
  let unbondHorizon := min (params.unbondingPeriodBlocks + params.maxReorgHorizonBlocks) U64_MAX
  let buryBlue := max params.attestationLagBlueScore params.maxReorgHorizonBlocks
  params.dnsV3ParamsConsistent && unbondHorizon ≤ windowBlueScore &&
    (0 < params.dormancyEvictLimitBps && params.dormancyEvictLimitBps ≤ 10000 &&
      1 ≤ params.dormancyEvictPeriodEpochs) &&
    1 ≤ params.dormancyRevivalDelayEpochs &&
    params.degradedStakeQualityEpochs < params.dormancyWindowEpochs &&
    min (buryBlue + l) U64_MAX ≤ params.stakeScoreWindowBlueScore

/-! ## One eviction round -/

structure StakeBondView where
  bondOutpoint : TransactionOutpoint
  amount : ℕ
  status : BondStatus
  lastAttestedEpoch : ℕ
  deriving DecidableEq, Repr

def StakeBondView.evictsBefore (a b : StakeBondView) : Bool :=
  a.lastAttestedEpoch < b.lastAttestedEpoch ||
    a.lastAttestedEpoch == b.lastAttestedEpoch &&
      (a.bondOutpoint.transactionId < b.bondOutpoint.transactionId ||
        a.bondOutpoint.transactionId == b.bondOutpoint.transactionId &&
          a.bondOutpoint.index ≤ b.bondOutpoint.index)

/-- The prefix of the candidates that fits the budget; the first one is taken whatever it costs,
unless the budget is empty. -/
def takeUnderBudget (budget used : ℕ) (first : Bool) : List StakeBondView → List TransactionOutpoint
  | [] => []
  | b :: rest =>
    if min (used + b.amount) U128_MAX ≤ budget ∨ first ∧ 0 < budget then
      b.bondOutpoint :: takeUnderBudget budget (min (used + b.amount) U128_MAX) false rest
    else []

/-- The bonds a due round evicts, under its budget. -/
def deriveDormancyEvictions (params : DnsParams) (bonds : List StakeBondView) (readyEpoch : ℕ) :
    List TransactionOutpoint :=
  if readyEpoch % max params.dormancyEvictPeriodEpochs 1 ≠ 0 then []
  else
    let expected := ((bonds.filter (·.status = .active)).map (·.amount)).sum
    let budget := min (expected * params.dormancyEvictLimitBps) U128_MAX / 10000
    let candidates := bonds.filter fun b =>
      b.status = .active ∧ params.dormancyWindowEpochs < readyEpoch - b.lastAttestedEpoch
    takeUnderBudget budget 0 true (candidates.insertionSort fun a b => a.evictsBefore b)

/-- Raise the last attested epoch to the latest attestation at or below `r`. -/
def StakeBondRecord.touch (attByBond : TransactionOutpoint → List ℕ) (r : ℕ)
    (record : StakeBondRecord) : StakeBondRecord :=
  { record with
    lastAttestedEpoch := raiseMark r (attByBond record.bondOutpoint) record.lastAttestedEpoch }

/-- The view of a bond at a sink; a bond that never attested counts from its activation epoch. -/
def StakeBondRecord.viewAt (sinkDaa epochLenBlue : ℕ) (record : StakeBondRecord) :
    StakeBondView where
  bondOutpoint := record.bondOutpoint
  amount := record.amount
  status := effectiveBondStatus record sinkDaa
  lastAttestedEpoch :=
    record.lastAttestedEpoch.getD (record.activationDaaScore / max epochLenBlue 1)

def StakeBondRecord.evict (roundAnchorDaa r : ℕ) (record : StakeBondRecord) : StakeBondRecord :=
  { record with
    status := .dormant
    dormantAtDaaScore := some roundAnchorDaa
    dormantAtEpoch := some r }

def StakeBondRecord.markEvicted (evicted : List TransactionOutpoint) (roundAnchorDaa r : ℕ)
    (record : StakeBondRecord) : StakeBondRecord :=
  if record.bondOutpoint ∈ evicted then record.evict roundAnchorDaa r else record

/-- Attestations up to the round, then its evictions. -/
def applyDormancyRound (params : DnsParams) (attByBond : TransactionOutpoint → List ℕ)
    (r roundAnchorDaa sinkDaa epochLenBlue : ℕ) (records : List StakeBondRecord) :
    List StakeBondRecord :=
  let touched := records.map (·.touch attByBond r)
  let evicted := deriveDormancyEvictions params (touched.map (·.viewAt sinkDaa epochLenBlue)) r
  touched.map (·.markEvicted evicted roundAnchorDaa r)

def dormancyRevivalReady (dormantEpoch lastAttestedEpoch readyEpoch revivalDelayEpochs : ℕ) :
    Bool :=
  dormantEpoch < lastAttestedEpoch &&
    min (lastAttestedEpoch + max revivalDelayEpochs 1) U64_MAX ≤ readyEpoch

/-! ## One pass -/

/-- The epochs a bond attested for up to the buried one: `att_by_bond`. -/
def attByBondOf (contributions : List AttestationContribution)
    (revivalSignals : List (TransactionOutpoint × ℕ)) (buriedEpoch : ℕ)
    (outpoint : TransactionOutpoint) : List ℕ :=
  (contributions.filter fun c => c.epoch ≤ buriedEpoch ∧ c.bondOutpoint = outpoint).map (·.epoch) ++
    (revivalSignals.filter fun s => s.2 ≤ buriedEpoch ∧ s.1 = outpoint).map (·.2)

/-- The eviction rounds in `(prevLastEvicted, buriedEpoch]`, ascending. -/
def dueRounds (period prevLastEvicted buriedEpoch : ℕ) : List ℕ :=
  (List.range (buriedEpoch / period - prevLastEvicted / period)).map fun i =>
    (prevLastEvicted / period + 1 + i) * period

def catchUp (round : ℕ → ℕ → List StakeBondRecord → List StakeBondRecord)
    (anchorDaa : ℕ → Option ℕ) :
    List ℕ → List StakeBondRecord → ℕ → List StakeBondRecord × ℕ
  | [], work, lastEvicted => (work, lastEvicted)
  | r :: rest, work, lastEvicted =>
    match anchorDaa r with
    | none => (work, lastEvicted)
    | some a => catchUp round anchorDaa rest (round r a work) r

def StakeBondRecord.revive (sinkDaa buriedEpoch revivalDelay : ℕ) (record : StakeBondRecord) :
    StakeBondRecord :=
  if effectiveBondStatus record sinkDaa ≠ .dormant then record
  else
    match record.dormantAtEpoch with
    | none => record
    | some dormantEpoch =>
      if dormancyRevivalReady dormantEpoch (record.lastAttestedEpoch.getD 0) buriedEpoch
          revivalDelay then
        { record with dormantAtDaaScore := none, dormantAtEpoch := none }.withStatusAt sinkDaa
      else record

variable (params : DnsParams)

def buriedEpochAt (sinkBlue : ℕ) : Option ℕ :=
  readyEpochFromTipBlueScore sinkBlue (max params.attestationEpochLengthBlueScore 1)
    (max params.attestationLagBlueScore params.maxReorgHorizonBlocks)

def roundAnchorDaa (chain : List HeaderRow) (epochAnchorDaa : List (ℕ × ℕ)) (r : ℕ) : Option ℕ :=
  (epochAnchorDaa.lookup r).or
    ((canonicalAnchorByBlueScore params r chain).map (·.anchorDaaScore))

/-- The rounds that became due, then the revivals. -/
def stageDormancyTransitions (chain : List HeaderRow) (bonds : List StakeBondRecord)
    (contributions : List AttestationContribution)
    (revivalSignals : List (TransactionOutpoint × ℕ)) (epochAnchorDaa : List (ℕ × ℕ))
    (prevLastEvicted sinkDaa sinkBlue : ℕ) : List StakeBondRecord × ℕ :=
  if sinkDaa < params.dormancyActivationDaaScore then (bonds, prevLastEvicted)
  else
    let epochLenBlue := max params.attestationEpochLengthBlueScore 1
    match buriedEpochAt params sinkBlue with
    | none => (bonds, prevLastEvicted)
    | some buriedEpoch =>
      let attByBond := attByBondOf contributions revivalSignals buriedEpoch
      let period := max params.dormancyEvictPeriodEpochs 1
      let revivalDelay := max params.dormancyRevivalDelayEpochs 1
      let (work, lastEvicted) := catchUp
        (fun r a => applyDormancyRound params attByBond r a sinkDaa epochLenBlue)
        (roundAnchorDaa params chain epochAnchorDaa) (dueRounds period prevLastEvicted buriedEpoch)
        bonds prevLastEvicted
      ((work.map (·.touch attByBond buriedEpoch)).map (·.revive sinkDaa buriedEpoch revivalDelay),
        lastEvicted)

/-! ## Runs of passes -/

/-- What the chain records of bonds over time: the epochs each attested for, and the DAA scores at
which an unbond request or a slash of it was accepted. -/
structure BondHistory where
  attested : TransactionOutpoint → List ℕ
  unbondedAt : TransactionOutpoint → Option ℕ
  slashedAt : TransactionOutpoint → Option ℕ

structure DormancySink where
  tip : HeaderRow
  older : List HeaderRow
  contributions : List AttestationContribution
  revivalSignals : List (TransactionOutpoint × ℕ)

def DormancySink.chain (s : DormancySink) : List HeaderRow := s.tip :: s.older

structure DormancyState where
  records : List StakeBondRecord
  lastEvictedRoundEpoch : ℕ
  deriving DecidableEq, Repr

/-- A record as the registry shows it at a DAA score: with the stamps accepted so far and a fresh
cached status. -/
def StakeBondRecord.asOf (history : BondHistory) (daa : ℕ) (record : StakeBondRecord) :
    StakeBondRecord :=
  { record with
    unbondRequestDaaScore := ((history.unbondedAt record.bondOutpoint).filter (· ≤ daa)).or
      record.unbondRequestDaaScore
    slashedAtDaaScore := ((history.slashedAt record.bondOutpoint).filter (· ≤ daa)).or
      record.slashedAtDaaScore }.withStatusAt daa

def dormancyCommit (history : BondHistory) (S : DormancyState) (s : DormancySink) : DormancyState :=
  let result := stageDormancyTransitions params s.chain
    (S.records.map (·.asOf history s.tip.daaScore)) s.contributions s.revivalSignals
    ((canonicalAnchorsInWindow params s.chain).map fun a => (a.1, a.2.anchorDaaScore))
    S.lastEvictedRoundEpoch s.tip.daaScore s.tip.blueScore
  ⟨result.1, result.2⟩

def DormancySink.passEpoch (s : DormancySink) : Option ℕ :=
  if s.tip.daaScore < params.dormancyActivationDaaScore then none
  else buriedEpochAt params s.tip.blueScore

def DormancySink.anchorDaa (s : DormancySink) (r : ℕ) : Option ℕ :=
  roundAnchorDaa params s.chain
    ((canonicalAnchorsInWindow params s.chain).map fun a => (a.1, a.2.anchorDaaScore)) r

def DormancyState.due (S : DormancyState) (b : ℕ) : List ℕ :=
  dueRounds (max params.dormancyEvictPeriodEpochs 1) S.lastEvictedRoundEpoch b

def DormancySink.Sees (history : BondHistory) (s : DormancySink) : Prop :=
  ∀ b ∈ s.passEpoch params, ∀ o, ∀ e ≤ b,
    e ∈ attByBondOf s.contributions s.revivalSignals b o ↔ e ∈ history.attested o

/-- A pass up to `b` that a later pass at `last` makes up for. -/
structure Absorbed (history : BondHistory) (last : DormancySink) (S : DormancyState)
    (s : DormancySink) (b : ℕ) : Prop where
  /-- The later pass runs. -/
  runs : (last.passEpoch params).isSome
  /-- Every round due finds its anchor at both sinks. -/
  anchored : ∀ r ∈ S.due params b, (s.anchorDaa params r).isSome ∧ (last.anchorDaa params r).isSome
  /-- If a round is due, no bond has another status at the later sink. -/
  steady : S.due params b ≠ [] → ∀ record ∈ S.records,
    effectiveBondStatus (record.asOf history s.tip.daaScore) s.tip.daaScore =
      effectiveBondStatus (record.asOf history last.tip.daaScore) last.tip.daaScore
  /-- No dormant bond is ready for revival, nor would be one that a due round evicts. -/
  unrevived : ∀ record ∈ S.records, ∀ dormantEpoch,
    (effectiveBondStatus (record.asOf history s.tip.daaScore) s.tip.daaScore = .dormant ∧
        record.dormantAtEpoch = some dormantEpoch ∨
      effectiveBondStatus (record.asOf history s.tip.daaScore) s.tip.daaScore = .active ∧
        dormantEpoch ∈ S.due params b) →
    dormancyRevivalReady dormantEpoch ((record.touch history.attested b).lastAttestedEpoch.getD 0) b
      (max params.dormancyRevivalDelayEpochs 1) = false

/-! ## Records -/

variable {att' : TransactionOutpoint → List ℕ} {o : TransactionOutpoint} {b' delay : ℕ}
  {round' : ℕ → ℕ → List StakeBondRecord → List StakeBondRecord}

section Records

variable {params : DnsParams} {history : BondHistory} {record : StakeBondRecord} {d d' a r : ℕ}

theorem touch_touch {att : TransactionOutpoint → List ℕ} {r' : ℕ} (h : r ≤ r') :
    (record.touch att r).touch att r' = record.touch att r' := by
  unfold StakeBondRecord.touch
  rw [raiseMark_raiseMark h]

theorem map_touch_touch {records : List StakeBondRecord} {att : TransactionOutpoint → List ℕ}
    {r' : ℕ} (h : r ≤ r') :
    (records.map (·.touch att r)).map (·.touch att r') = records.map (·.touch att r') := by
  rw [map_map]
  exact map_congr_left fun record _ => touch_touch h

theorem touch_congr {att : TransactionOutpoint → List ℕ}
    (h : ∀ o, ∀ e ≤ r, e ∈ att o ↔ e ∈ att' o) :
    record.touch att r = record.touch att' r := by
  unfold StakeBondRecord.touch
  rw [raiseMark_congr (h record.bondOutpoint)]

theorem asOf_asOf (h : d ≤ d') :
    (record.asOf history d).asOf history d' = record.asOf history d' := by
  have hstamp (f x : Option ℕ) :
      (f.filter (· ≤ d')).or ((f.filter (· ≤ d)).or x) = (f.filter (· ≤ d')).or x := by
    cases f with
    | none => rfl
    | some n =>
      by_cases hn : n ≤ d
      · simp [Option.filter, hn, hn.trans h]
      · simp [Option.filter, hn]
  simp only [StakeBondRecord.asOf, StakeBondRecord.withStatusAt, hstamp]
  rfl

theorem map_asOf_asOf (records : List StakeBondRecord) (h : d ≤ d') :
    (records.map (·.asOf history d)).map (·.asOf history d') = records.map (·.asOf history d') := by
  rw [map_map]
  exact map_congr_left fun record _ => asOf_asOf h

theorem effectiveBondStatus_eq_active :
    effectiveBondStatus record d = .active ↔
      record.slashedAtDaaScore.any (· ≤ d) = false ∧
      record.unbondRequestDaaScore.any (· ≤ d) = false ∧
      record.dormantAtDaaScore.any (· ≤ d) = false ∧ record.activationDaaScore ≤ d := by
  unfold effectiveBondStatus
  split_ifs <;> simp_all

theorem effectiveBondStatus_evict (hactive : effectiveBondStatus record d = .active) (ha : a ≤ d) :
    effectiveBondStatus (record.evict a r) d = .dormant := by
  obtain ⟨hslash, hunbond, -, -⟩ := effectiveBondStatus_eq_active.mp hactive
  simp [effectiveBondStatus, StakeBondRecord.evict, hslash, hunbond, ha]

theorem asOf_evict (hactive : effectiveBondStatus (record.asOf history d) d = .active)
    (ha : a ≤ d) : (record.evict a r).asOf history d = (record.asOf history d).evict a r := by
  have hstatus := effectiveBondStatus_evict (r := r) hactive ha
  have hasOf : (record.evict a r).asOf history d =
      ((record.asOf history d).evict a r).withStatusAt d := rfl
  rw [hasOf, StakeBondRecord.withStatusAt, hstatus]
  rfl

theorem markEvicted_asOf {evicted : List TransactionOutpoint} (ha : a ≤ d)
    (hactive : record.bondOutpoint ∈ evicted →
      effectiveBondStatus (record.asOf history d) d = .active) :
    (record.markEvicted evicted a r).asOf history d =
      (record.asOf history d).markEvicted evicted a r := by
  have hkey : (record.asOf history d).bondOutpoint = record.bondOutpoint := rfl
  unfold StakeBondRecord.markEvicted
  rw [hkey]
  by_cases h : record.bondOutpoint ∈ evicted
  · rw [if_pos h, if_pos h]
    exact asOf_evict (hactive h) ha
  · rw [if_neg h, if_neg h]

end Records

/-! ## Rounds -/

theorem exists_of_mem_takeUnderBudget {budget : ℕ} {l : List StakeBondView} :
    ∀ {used : ℕ} {first : Bool}, o ∈ takeUnderBudget budget used first l →
      ∃ v ∈ l, v.bondOutpoint = o := by
  induction l with
  | nil => exact nofun
  | cons b rest ih =>
    intro used first h
    unfold takeUnderBudget at h
    split at h
    · rcases mem_cons.mp h with rfl | h
      · exact ⟨b, mem_cons_self, rfl⟩
      · obtain ⟨v, hv, hout⟩ := ih h
        exact ⟨v, mem_cons_of_mem _ hv, hout⟩
    · cases h

theorem active_of_mem_evictions {params : DnsParams} {views : List StakeBondView} {r : ℕ}
    (h : o ∈ deriveDormancyEvictions params views r) :
    ∃ v ∈ views, v.bondOutpoint = o ∧ v.status = .active := by
  unfold deriveDormancyEvictions at h
  split at h
  · cases h
  · obtain ⟨v, hv, hout⟩ := exists_of_mem_takeUnderBudget h
    have hmem := mem_filter.mp ((mem_insertionSort _).mp hv)
    exact ⟨v, hmem.1, hout, (of_decide_eq_true hmem.2).1⟩

variable {record' : StakeBondRecord} {period : ℕ}

section Rounds

variable {params : DnsParams} {history : BondHistory} {records : List StakeBondRecord}
  {att : TransactionOutpoint → List ℕ} {r a d d' epochLenBlue : ℕ}

theorem applyDormancyRound_congr (h : ∀ o, ∀ e ≤ r, e ∈ att o ↔ e ∈ att' o) :
    applyDormancyRound params att r a d epochLenBlue records =
      applyDormancyRound params att' r a d epochLenBlue records := by
  have htouch : records.map (·.touch att r) = records.map (·.touch att' r) :=
    map_congr_left fun record _ => touch_congr h
  unfold applyDormancyRound
  rw [htouch]

theorem applyDormancyRound_touch {b : ℕ} (h : b ≤ r) :
    applyDormancyRound params att r a d epochLenBlue (records.map (·.touch att b)) =
      applyDormancyRound params att r a d epochLenBlue records := by
  unfold applyDormancyRound
  rw [map_touch_touch h]

theorem map_bondOutpoint_applyDormancyRound :
    (applyDormancyRound params att r a d epochLenBlue records).map (·.bondOutpoint) =
      records.map (·.bondOutpoint) := by
  unfold applyDormancyRound
  simp only [map_map]
  refine map_congr_left fun record _ => ?_
  simp only [Function.comp_apply, StakeBondRecord.markEvicted]
  split <;> rfl

/-- Outpoints are keys, so the evicted view is the record's own. -/
theorem active_of_evicted (hkeys : (records.map (·.bondOutpoint)).Nodup)
    {record : StakeBondRecord} (hrecord : record ∈ records)
    (hevict : record.bondOutpoint ∈ deriveDormancyEvictions params
      (records.map fun record => (record.touch att r).viewAt d epochLenBlue) r) :
    effectiveBondStatus record d = .active := by
  obtain ⟨v, hv, hout, hactive⟩ := active_of_mem_evictions hevict
  obtain ⟨other, hother, rfl⟩ := mem_map.mp hv
  obtain rfl : other = record := inj_on_of_nodup_map hkeys hother hrecord hout
  exact hactive

theorem mem_applyDormancyRound (hkeys : (records.map (·.bondOutpoint)).Nodup)
    (h : record' ∈ applyDormancyRound params att r a d epochLenBlue records) :
    ∃ record ∈ records, record' = record.touch att r ∨
      effectiveBondStatus record d = .active ∧ record' = (record.touch att r).evict a r := by
  unfold applyDormancyRound at h
  simp only [map_map, mem_map, Function.comp_apply] at h
  obtain ⟨record, hrecord, rfl⟩ := h
  refine ⟨record, hrecord, ?_⟩
  unfold StakeBondRecord.markEvicted
  split
  · next hevict =>
    exact .inr ⟨active_of_evicted hkeys hrecord hevict, rfl⟩
  · exact .inl rfl

def StakeBondRecord.Steady (history : BondHistory) (d d' : ℕ) (record : StakeBondRecord) : Prop :=
  effectiveBondStatus record d = effectiveBondStatus (record.asOf history d') d'

theorem steady_applyDormancyRound (hkeys : (records.map (·.bondOutpoint)).Nodup) (ha : a ≤ d)
    (hd : d ≤ d') (hsteady : ∀ record ∈ records, record.Steady history d d')
    (h : record' ∈ applyDormancyRound params att r a d epochLenBlue records) :
    record'.Steady history d d' := by
  obtain ⟨record, hrecord, rfl | ⟨hactive, rfl⟩⟩ := mem_applyDormancyRound hkeys h
  · exact hsteady record hrecord
  · have hlater : effectiveBondStatus ((record.touch att r).asOf history d') d' = .active :=
      (hsteady record hrecord).symm.trans hactive
    unfold StakeBondRecord.Steady
    rw [asOf_evict hlater (ha.trans hd), effectiveBondStatus_evict hlater (ha.trans hd)]
    exact effectiveBondStatus_evict hactive ha

theorem applyDormancyRound_asOf (hkeys : (records.map (·.bondOutpoint)).Nodup) (ha : a ≤ d')
    (hsteady : ∀ record ∈ records, record.Steady history d d') :
    applyDormancyRound params att r a d' epochLenBlue (records.map (·.asOf history d')) =
      (applyDormancyRound params att r a d epochLenBlue records).map (·.asOf history d') := by
  have hviews : (records.map (·.asOf history d')).map
        (fun record => (record.touch att r).viewAt d' epochLenBlue) =
      records.map fun record => (record.touch att r).viewAt d epochLenBlue := by
    rw [map_map]
    refine map_congr_left fun record hrecord => ?_
    have htouched : (record.touch att r).Steady history d d' := hsteady record hrecord
    rw [Function.comp_apply, StakeBondRecord.viewAt, StakeBondRecord.viewAt, htouched]
    rfl
  simp only [applyDormancyRound, map_map, Function.comp_def] at hviews ⊢
  rw [hviews]
  refine map_congr_left fun record hrecord => ?_
  symm
  refine markEvicted_asOf ha fun hevict => ?_
  exact (hsteady record hrecord).symm.trans (active_of_evicted hkeys hrecord hevict)

end Rounds

/-! ## The catch-up loop -/

theorem le_of_mem_dueRounds {prev b r : ℕ} (h : r ∈ dueRounds period prev b) : r ≤ b := by
  obtain ⟨i, hi, rfl⟩ := mem_map.mp h
  rw [mem_range] at hi
  calc (prev / period + 1 + i) * period ≤ b / period * period :=
        Nat.mul_le_mul_right _ (by omega)
    _ ≤ b := Nat.div_mul_le_self b period

theorem lt_of_mem_dueRounds {prev b r : ℕ} (hperiod : 0 < period)
    (hprev : b / period ≤ prev / period) (h : r ∈ dueRounds period prev b') : b < r := by
  obtain ⟨i, -, rfl⟩ := mem_map.mp h
  calc b < (b / period + 1) * period := by
        rw [mul_comm]
        exact Nat.lt_mul_div_succ b hperiod
    _ ≤ (prev / period + 1 + i) * period := Nat.mul_le_mul_right _ (by omega)

def cursorAfter (rounds : List ℕ) (prev : ℕ) : ℕ := rounds.getLast?.getD prev

theorem cursorAfter_dueRounds {prev b : ℕ} (hperiod : 0 < period) :
    cursorAfter (dueRounds period prev b) prev / period = max (prev / period) (b / period) := by
  unfold cursorAfter dueRounds
  rw [List.getLast?_map]
  rcases eq_zero_or_pos (b / period - prev / period) with hzero | hpos
  · rw [hzero]
    simp only [range_zero, List.getLast?_nil, Option.map_none, Option.getD_none]
    omega
  · rw [List.getLast?_range, if_neg hpos.ne']
    simp only [Option.map_some, Option.getD_some]
    rw [Nat.mul_div_cancel _ hperiod]
    omega

theorem dueRounds_append {prev b : ℕ} (hperiod : 0 < period) (hb : b ≤ b') :
    dueRounds period prev b' =
      dueRounds period prev b ++
        dueRounds period (cursorAfter (dueRounds period prev b) prev) b' := by
  have hcursor := @cursorAfter_dueRounds period prev b hperiod
  have hdiv : b / period ≤ b' / period := Nat.div_le_div_right hb
  have hcount : b' / period - prev / period = (b / period - prev / period) +
      (b' / period - max (prev / period) (b / period)) := by omega
  generalize cursorAfter (dueRounds period prev b) prev = cursor at hcursor ⊢
  unfold dueRounds
  rw [hcursor, hcount, range_add, map_append, map_map]
  congr 1
  refine map_congr_left fun i hi => ?_
  rw [mem_range] at hi
  simp only [Function.comp_apply]
  congr 1
  omega

section CatchUp

variable {round : ℕ → ℕ → List StakeBondRecord → List StakeBondRecord} {anchorDaa : ℕ → Option ℕ}
  {rounds : List ℕ} {work : List StakeBondRecord} {prev : ℕ}

theorem catchUp_append (hanchor : ∀ r ∈ rounds, (anchorDaa r).isSome) (rest : List ℕ) :
    catchUp round anchorDaa (rounds ++ rest) work prev =
      catchUp round anchorDaa rest (catchUp round anchorDaa rounds work prev).1
        (cursorAfter rounds prev) := by
  induction rounds generalizing work prev with
  | nil => rfl
  | cons r rounds ih =>
    obtain ⟨a, ha⟩ := Option.isSome_iff_exists.mp (hanchor r mem_cons_self)
    have hcursor : cursorAfter (r :: rounds) prev = cursorAfter rounds r := by
      unfold cursorAfter
      rw [List.getLast?_cons]
      rfl
    rw [hcursor]
    simp only [cons_append, catchUp, ha]
    exact ih (forall_mem_cons.mp hanchor).2

theorem catchUp_cursor (hanchor : ∀ r ∈ rounds, (anchorDaa r).isSome) :
    (catchUp round anchorDaa rounds work prev).2 = cursorAfter rounds prev := by
  have happend := @catchUp_append round anchorDaa rounds work prev hanchor []
  rw [append_nil] at happend
  rw [happend]
  rfl

theorem catchUp_induction {I : List StakeBondRecord → Prop}
    (hround : ∀ r ∈ rounds, ∀ a, anchorDaa r = some a → ∀ w, I w → I (round r a w))
    (hwork : I work) : I (catchUp round anchorDaa rounds work prev).1 := by
  induction rounds generalizing work prev with
  | nil => exact hwork
  | cons r rounds ih =>
    unfold catchUp
    split
    · exact hwork
    · next a ha =>
      exact ih (forall_mem_cons.mp hround).2
        (hround r mem_cons_self a ha work hwork)

theorem catchUp_sim {R : List StakeBondRecord → List StakeBondRecord → Prop}
    {anchorDaa' : ℕ → Option ℕ} (hanchor : ∀ r ∈ rounds, anchorDaa r = anchorDaa' r)
    (hround : ∀ r ∈ rounds, ∀ a, anchorDaa r = some a → ∀ w w', R w w' →
      R (round r a w) (round' r a w')) {work' : List StakeBondRecord} (hwork : R work work') :
    R (catchUp round anchorDaa rounds work prev).1
        (catchUp round' anchorDaa' rounds work' prev).1 ∧
      (catchUp round anchorDaa rounds work prev).2 =
        (catchUp round' anchorDaa' rounds work' prev).2 := by
  induction rounds generalizing work work' prev with
  | nil => exact ⟨hwork, rfl⟩
  | cons r rounds ih =>
    simp only [catchUp, ← hanchor r mem_cons_self]
    split
    · exact ⟨hwork, rfl⟩
    · next a ha =>
      exact ih (forall_mem_cons.mp hanchor).2
        (forall_mem_cons.mp hround).2
        (hround r mem_cons_self a ha work work' hwork)

theorem catchUp_congr (hround : ∀ r ∈ rounds, ∀ a w, round r a w = round' r a w) :
    catchUp round anchorDaa rounds work prev = catchUp round' anchorDaa rounds work prev := by
  refine Prod.ext_iff.mpr (catchUp_sim (R := Eq) (fun _ _ => rfl) (fun r hr a _ w w' hw => ?_) rfl)
  rw [hw]
  exact hround r hr a w'

end CatchUp

/-! ## Anchors -/

section Anchors

variable {params : DnsParams} {s last : DormancySink} {r b : ℕ}

theorem DormancySink.passEpoch_eq_some :
    s.passEpoch params = some b ↔
      params.dormancyActivationDaaScore ≤ s.tip.daaScore ∧
        buriedEpochAt params s.tip.blueScore = some b := by
  unfold DormancySink.passEpoch
  split
  · next h => simp [not_le.mpr h]
  · next h => simp [Nat.le_of_not_lt h]

theorem DormancySink.anchorDaa_latest {a : ℕ} (h : s.anchorDaa params r = some a) :
    ∃ row, latestAtMost (·.blueScore) (params.cutoff r) s.chain = some row ∧ a = row.daaScore := by
  rcases Option.or_eq_some_iff.mp h with hwindow | ⟨-, hwalk⟩
  · obtain ⟨before, after, hsplit, -⟩ := lookup_eq_some_iff.mp hwindow
    have hmem : (r, a) ∈ (canonicalAnchorsInWindow params s.chain).map
        fun anchor => (anchor.1, anchor.2.anchorDaaScore) := by
      rw [hsplit]
      exact mem_append_right _ mem_cons_self
    obtain ⟨⟨epoch, anchor⟩, hanchor, heq⟩ := mem_map.mp hmem
    cases heq
    obtain ⟨tip, row, -, -, hrow, -, hdaa⟩ := mem_canonicalAnchorsInWindow hanchor
    exact ⟨row, hrow, hdaa⟩
  · obtain ⟨anchor, hanchor, rfl⟩ := Option.map_eq_some_iff.mp hwalk
    obtain ⟨row, hrow, -, hdaa⟩ := canonicalAnchorByBlueScore_latest hanchor
    exact ⟨row, hrow, hdaa⟩

theorem DormancySink.anchorDaa_le {a : ℕ} (hchain : Ascends s.chain)
    (h : s.anchorDaa params r = some a) : a ≤ s.tip.daaScore := by
  obtain ⟨row, hrow, rfl⟩ := DormancySink.anchorDaa_latest h
  rcases mem_cons.mp (mem_of_find?_eq_some hrow) with htip | hmem
  · exact le_of_eq (congrArg HeaderRow.daaScore htip)
  · exact ((pairwise_cons.mp hchain).1 row hmem).2.1

theorem anchorDaa_eq (hchain : Ascends last.chain) (hsuffix : s.chain <:+ last.chain)
    (hb : s.passEpoch params = some b) (hr : r ≤ b)
    (hknown : (s.anchorDaa params r).isSome ∧ (last.anchorDaa params r).isSome) :
    s.anchorDaa params r = last.anchorDaa params r := by
  obtain ⟨a, ha⟩ := Option.isSome_iff_exists.mp hknown.1
  obtain ⟨a', ha'⟩ := Option.isSome_iff_exists.mp hknown.2
  obtain ⟨row, hrow, rfl⟩ := DormancySink.anchorDaa_latest ha
  obtain ⟨row', hrow', rfl⟩ := DormancySink.anchorDaa_latest ha'
  obtain ⟨newer, hsplit⟩ := hsuffix
  have hpairs : Ascends (newer ++ s.chain) := by rwa [hsplit]
  have hcutoff : params.cutoff r ≤ s.tip.blueScore :=
    cutoff_le_of_ready (DormancySink.passEpoch_eq_some.mp hb).2 hr _
  have hnewer : ∀ x ∈ newer, params.cutoff r < x.blueScore := fun x hx =>
    hcutoff.trans_lt ((pairwise_append.mp hpairs).2.2 x hx s.tip mem_cons_self).1
  rw [← hsplit, latestAtMost_append hnewer, hrow] at hrow'
  cases hrow'
  exact ha.trans ha'.symm

end Anchors

/-! ## A pass that a later one makes up for -/

section Absorb

variable {params : DnsParams} {history : BondHistory} {s last : DormancySink} {S : DormancyState}
  {b d r prev : ℕ} {att : TransactionOutpoint → List ℕ} {rounds : List ℕ} {record : StakeBondRecord}
  {records : List StakeBondRecord}

def passRounds (params : DnsParams) (history : BondHistory) (s : DormancySink) (rounds : List ℕ)
    (records : List StakeBondRecord) (prev : ℕ) : List StakeBondRecord × ℕ :=
  catchUp (fun r a => applyDormancyRound params history.attested r a s.tip.daaScore
    (max params.attestationEpochLengthBlueScore 1)) (s.anchorDaa params) rounds records prev

def DormancyState.catchUpAt (params : DnsParams) (history : BondHistory) (S : DormancyState)
    (s : DormancySink) (b : ℕ) : List StakeBondRecord × ℕ :=
  passRounds params history s (S.due params b) (S.records.map (·.asOf history s.tip.daaScore))
    S.lastEvictedRoundEpoch

theorem dormancyCommit_of_none (h : s.passEpoch params = none) :
    dormancyCommit params history S s =
      ⟨S.records.map (·.asOf history s.tip.daaScore), S.lastEvictedRoundEpoch⟩ := by
  unfold DormancySink.passEpoch at h
  unfold dormancyCommit stageDormancyTransitions
  split at h
  · next hfence => rw [if_pos hfence]
  · next hfence =>
    rw [if_neg hfence]
    rw [h]

theorem dormancyCommit_eq (hsees : s.Sees params history) (hb : s.passEpoch params = some b) :
    dormancyCommit params history S s =
      ⟨((S.catchUpAt params history s b).1.map (·.touch history.attested b)).map
          (·.revive s.tip.daaScore b (max params.dormancyRevivalDelayEpochs 1)),
        (S.catchUpAt params history s b).2⟩ := by
  obtain ⟨hfence, hburied⟩ := DormancySink.passEpoch_eq_some.mp hb
  have hatt := hsees b hb
  have hloop : catchUp (fun r a => applyDormancyRound params
        (attByBondOf s.contributions s.revivalSignals b) r a s.tip.daaScore
        (max params.attestationEpochLengthBlueScore 1)) (s.anchorDaa params) (S.due params b)
        (S.records.map (·.asOf history s.tip.daaScore)) S.lastEvictedRoundEpoch =
      S.catchUpAt params history s b := by
    refine catchUp_congr fun r hr a w => ?_
    exact applyDormancyRound_congr fun o e he => hatt o e (he.trans (le_of_mem_dueRounds hr))
  have htouch (work : List StakeBondRecord) :
      work.map (·.touch (attByBondOf s.contributions s.revivalSignals b) b) =
        work.map (·.touch history.attested b) :=
    map_congr_left fun record _ => touch_congr hatt
  rw [← hloop, ← htouch]
  unfold dormancyCommit stageDormancyTransitions
  rw [if_neg (not_lt.mpr hfence)]
  rw [hburied]
  rfl

/-- Where a record of the catch-up loop comes from: a record with the same last attestation by `b`,
which it still looks like, or from which an eviction made it. -/
def TracesTo (att : TransactionOutpoint → List ℕ) (d b : ℕ) (rounds : List ℕ)
    (record record' : StakeBondRecord) : Prop :=
  (record'.touch att b).lastAttestedEpoch = (record.touch att b).lastAttestedEpoch ∧
    (effectiveBondStatus record' d = effectiveBondStatus record d ∧
        record'.dormantAtEpoch = record.dormantAtEpoch ∨
      effectiveBondStatus record d = .active ∧ ∃ r ∈ rounds, record'.dormantAtEpoch = some r)

theorem TracesTo.touch (h : TracesTo att d b rounds record record') (hr : r ≤ b) :
    TracesTo att d b rounds record (record'.touch att r) := by
  refine ⟨?_, h.2⟩
  rw [touch_touch hr]
  exact h.1

theorem TracesTo.evict {a : ℕ} (h : TracesTo att d b rounds record record') (hr : r ∈ rounds)
    (hactive : effectiveBondStatus record' d = .active) :
    TracesTo att d b rounds record (record'.evict a r) := by
  refine ⟨h.1, .inr ⟨?_, r, hr, rfl⟩⟩
  rcases h.2 with ⟨hstatus, -⟩ | ⟨hwas, -⟩
  · exact hstatus.symm.trans hactive
  · exact hwas

/-- What the touches and evictions of the rounds keep holds between a record and what they make of
it. -/
theorem mem_passRounds {R : StakeBondRecord → StakeBondRecord → Prop}
    (hkeys : (records.map (·.bondOutpoint)).Nodup) (hself : ∀ record, R record record)
    (htouch : ∀ r ∈ rounds, ∀ record x, R record x → R record (x.touch history.attested r))
    (hevict : ∀ r ∈ rounds, ∀ a, s.anchorDaa params r = some a → ∀ record x, R record x →
      effectiveBondStatus x s.tip.daaScore = .active → R record (x.evict a r))
    (h : record' ∈ (passRounds params history s rounds records prev).1) :
    ∃ record ∈ records, R record record' := by
  refine (catchUp_induction
    (I := fun w => (w.map (·.bondOutpoint)).Nodup ∧ ∀ x ∈ w, ∃ record ∈ records, R record x)
    (fun r hr a ha w hw => ?_) ⟨hkeys, fun record hrecord => ⟨record, hrecord, hself record⟩⟩).2
    record' h
  refine ⟨by rw [map_bondOutpoint_applyDormancyRound]; exact hw.1, fun x hx => ?_⟩
  obtain ⟨middle, hmiddle, hcase⟩ := mem_applyDormancyRound hw.1 hx
  obtain ⟨record, hrecord, hmade⟩ := hw.2 middle hmiddle
  have htouched := htouch r hr record middle hmade
  refine ⟨record, hrecord, ?_⟩
  rcases hcase with rfl | ⟨hactive, rfl⟩
  · exact htouched
  · exact hevict r hr a ha record _ htouched hactive

theorem tracesTo_passRounds (hkeys : (records.map (·.bondOutpoint)).Nodup)
    (hrounds : ∀ r ∈ rounds, r ≤ b)
    (h : record' ∈ (passRounds params history s rounds records prev).1) :
    ∃ record ∈ records,
      TracesTo history.attested s.tip.daaScore b rounds record record' :=
  mem_passRounds hkeys (fun _ => ⟨rfl, .inl ⟨rfl, rfl⟩⟩)
    (fun r hr _ _ htrace => htrace.touch (hrounds r hr))
    (fun _ hr _ _ _ _ htrace hactive => htrace.evict hr hactive) h

theorem revive_eq_self
    (h : effectiveBondStatus record d = .dormant → ∀ e, record.dormantAtEpoch = some e →
      dormancyRevivalReady e (record.lastAttestedEpoch.getD 0) b delay = false) :
    record.revive d b delay = record := by
  unfold StakeBondRecord.revive
  split
  · rfl
  · next hdormant =>
    split
    · rfl
    · next e he =>
      rw [if_neg]
      exact ne_true_of_eq_false (h (not_not.mp hdormant) e he)

theorem revive_passRounds (habs : Absorbed params history last S s b)
    (hkeys : (S.records.map (·.bondOutpoint)).Nodup) :
    (((S.catchUpAt params history s b).1.map (·.touch history.attested b)).map
        (·.revive s.tip.daaScore b (max params.dormancyRevivalDelayEpochs 1))) =
      (S.catchUpAt params history s b).1.map (·.touch history.attested b) := by
  rw [map_map]
  refine map_congr_left fun record' h' => ?_
  have hkeys' : ((S.records.map (·.asOf history s.tip.daaScore)).map (·.bondOutpoint)).Nodup := by
    rwa [map_map]
  obtain ⟨shown, hshown, hlast, hcase⟩ :=
    tracesTo_passRounds hkeys' (fun r hr => le_of_mem_dueRounds hr) h'
  obtain ⟨record, hrecord, rfl⟩ := mem_map.mp hshown
  have hunrevived := habs.unrevived record hrecord
  rw [Function.comp_apply]
  refine revive_eq_self fun hdormant dormantEpoch hepoch => ?_
  rw [hlast]
  refine hunrevived dormantEpoch ?_
  rcases hcase with ⟨hsame, hsameEpoch⟩ | ⟨hactive, r, hr, hevicted⟩
  · exact .inl ⟨hsame.symm.trans hdormant, hsameEpoch.symm.trans hepoch⟩
  · obtain rfl := Option.some.inj (hevicted.symm.trans hepoch)
    exact .inr ⟨hactive, hr⟩

theorem passRounds_asOf (hchain : Ascends last.chain) (hsuffix : s.chain <:+ last.chain)
    (hb : s.passEpoch params = some b) (habs : Absorbed params history last S s b)
    (hdaa : s.tip.daaScore ≤ last.tip.daaScore)
    (hkeys : (S.records.map (·.bondOutpoint)).Nodup) :
    (S.catchUpAt params history last b).1 =
      (S.catchUpAt params history s b).1.map (·.asOf history last.tip.daaScore) := by
  have hshown : (S.records.map (·.asOf history s.tip.daaScore)).map _ = _ :=
    map_asOf_asOf S.records hdaa
  unfold DormancyState.catchUpAt
  rcases eq_or_ne (S.due params b) [] with hnone | hsome
  · rw [hnone]
    exact hshown.symm
  · have hanchor {r : ℕ} (hr : r ∈ S.due params b) :=
      anchorDaa_eq hchain hsuffix hb (le_of_mem_dueRounds hr) (habs.anchored r hr)
    refine (catchUp_sim
      (R := fun w w' => w' = w.map (·.asOf history last.tip.daaScore) ∧
        (w.map (·.bondOutpoint)).Nodup ∧
          ∀ record ∈ w, record.Steady history s.tip.daaScore last.tip.daaScore)
      (fun r hr => hanchor hr) ?_ ?_).1.1
    · rintro r hr a ha w w' ⟨rfl, hw, hsteady⟩
      have hle := DormancySink.anchorDaa_le (hchain.sublist hsuffix.sublist) ha
      refine ⟨applyDormancyRound_asOf hw (hle.trans hdaa) hsteady, ?_, fun record h => ?_⟩
      · rwa [map_bondOutpoint_applyDormancyRound]
      · exact steady_applyDormancyRound hw hle hdaa hsteady h
    · refine ⟨hshown.symm, by rw [map_map]; exact hkeys, fun record h => ?_⟩
      obtain ⟨original, horiginal, rfl⟩ := mem_map.mp h
      unfold StakeBondRecord.Steady
      rw [asOf_asOf hdaa]
      exact habs.steady hsome original horiginal

theorem passRounds_touch (hrounds : ∀ r ∈ rounds, b ≤ r) (hb : b ≤ b') :
    (passRounds params history s rounds (records.map (·.touch history.attested b)) prev).1.map
        (·.touch history.attested b') =
      (passRounds params history s rounds records prev).1.map (·.touch history.attested b') ∧
    (passRounds params history s rounds (records.map (·.touch history.attested b)) prev).2 =
      (passRounds params history s rounds records prev).2 := by
  have hfinal := @map_touch_touch b records history.attested b' hb
  unfold passRounds
  cases rounds with
  | nil => exact ⟨hfinal, rfl⟩
  | cons r rest =>
    unfold catchUp
    split
    · exact ⟨hfinal, rfl⟩
    · rw [applyDormancyRound_touch (hrounds r mem_cons_self)]
      exact ⟨rfl, rfl⟩

theorem dormancyCommit_absorb (hchain : Ascends last.chain) (hsuffix : s.chain <:+ last.chain)
    (hsees : s.Sees params history) (hseesLast : last.Sees params history)
    (hkeys : (S.records.map (·.bondOutpoint)).Nodup)
    (habs : ∀ b ∈ s.passEpoch params, Absorbed params history last S s b) :
    dormancyCommit params history (dormancyCommit params history S s) last =
      dormancyCommit params history S last := by
  have htip : s.tip.daaScore ≤ last.tip.daaScore ∧ s.tip.blueScore ≤ last.tip.blueScore := by
    have hmem : s.tip ∈ last.chain := hsuffix.subset mem_cons_self
    rcases mem_cons.mp hmem with htip | hmem
    · rw [htip]
      exact ⟨le_rfl, le_rfl⟩
    · have hpair := (pairwise_cons.mp hchain).1 s.tip hmem
      exact ⟨hpair.2.1, hpair.1.le⟩
  cases hb : s.passEpoch params with
  | none =>
    rw [dormancyCommit_of_none hb]
    unfold dormancyCommit
    rw [map_asOf_asOf S.records htip.1]
  | some b =>
    have habs := habs b hb
    obtain ⟨b', hb'⟩ := Option.isSome_iff_exists.mp habs.runs
    have hbb : b ≤ b' := ready_mono htip.2 (DormancySink.passEpoch_eq_some.mp hb).2
      (DormancySink.passEpoch_eq_some.mp hb').2
    have hperiod : 0 < max params.dormancyEvictPeriodEpochs 1 := by omega
    have hcursor : (S.catchUpAt params history s b).2 =
        cursorAfter (S.due params b) S.lastEvictedRoundEpoch :=
      catchUp_cursor fun r hr => (habs.anchored r hr).1
    rw [dormancyCommit_eq hsees hb, revive_passRounds habs hkeys, hcursor,
      dormancyCommit_eq hseesLast hb', dormancyCommit_eq hseesLast hb']
    have hlater : ∀ r ∈ dueRounds (max params.dormancyEvictPeriodEpochs 1)
        (cursorAfter (S.due params b) S.lastEvictedRoundEpoch) b', b ≤ r := by
      refine fun r hr => (lt_of_mem_dueRounds hperiod ?_ hr).le
      exact (le_max_right _ _).trans_eq (cursorAfter_dueRounds hperiod).symm
    have hjump : S.catchUpAt params history last b' =
        passRounds params history last
          (dueRounds (max params.dormancyEvictPeriodEpochs 1)
            (cursorAfter (S.due params b) S.lastEvictedRoundEpoch) b')
          ((S.catchUpAt params history s b).1.map (·.asOf history last.tip.daaScore))
          (cursorAfter (S.due params b) S.lastEvictedRoundEpoch) := by
      rw [← passRounds_asOf hchain hsuffix hb habs htip.1 hkeys]
      refine (congrArg (passRounds _ _ _ · _ _) (dueRounds_append hperiod hbb)).trans ?_
      exact catchUp_append (fun r hr => (habs.anchored r hr).2) _
    rw [hjump]
    generalize (S.catchUpAt params history s b).1 = work
    have hmap : (work.map (·.touch history.attested b)).map (·.asOf history last.tip.daaScore) =
        (work.map (·.asOf history last.tip.daaScore)).map (·.touch history.attested b) := by
      rw [map_map, map_map]
      rfl
    dsimp only [DormancyState.catchUpAt, DormancyState.due] at hlater ⊢
    rw [hmap, (passRounds_touch hlater hbb).1, (passRounds_touch hlater hbb).2]

theorem map_bondOutpoint_passRounds :
    (passRounds params history s rounds records prev).1.map (·.bondOutpoint) =
      records.map (·.bondOutpoint) := by
  refine catchUp_induction (I := fun w => w.map (·.bondOutpoint) = records.map (·.bondOutpoint))
    (fun r _ a _ w hw => ?_) rfl
  rwa [map_bondOutpoint_applyDormancyRound]

theorem bondOutpoint_revive :
    (record.revive d b delay).bondOutpoint = record.bondOutpoint := by
  unfold StakeBondRecord.revive
  split
  · rfl
  · split
    · rfl
    · split <;> rfl

theorem map_bondOutpoint_dormancyCommit (hsees : s.Sees params history) :
    (dormancyCommit params history S s).records.map (·.bondOutpoint) =
      S.records.map (·.bondOutpoint) := by
  have hshown : (S.records.map (·.asOf history s.tip.daaScore)).map (·.bondOutpoint) =
      S.records.map (·.bondOutpoint) := by
    rw [map_map]
    rfl
  cases hb : s.passEpoch params with
  | none => rw [dormancyCommit_of_none hb, hshown]
  | some b =>
    rw [dormancyCommit_eq hsees hb]
    have hrounds : (S.catchUpAt params history s b).1.map (·.bondOutpoint) =
        S.records.map (·.bondOutpoint) :=
      map_bondOutpoint_passRounds.trans hshown
    rw [← hrounds, map_map, map_map]
    exact map_congr_left fun record _ => bondOutpoint_revive

end Absorb

/-- Dormancy passes at each sink of a chain end as one pass at the last sink, if that pass makes up
for each of the others. -/
theorem dormancyCommits_skip {params : DnsParams} {history : BondHistory} {S : DormancyState}
    {sinks : List DormancySink} {last : DormancySink} (hchain : Ascends last.chain)
    (hincreasing : (sinks ++ [last]).Pairwise fun s s' => s.chain <:+ s'.chain)
    (hsees : ∀ s ∈ sinks ++ [last], s.Sees params history)
    (hkeys : (S.records.map (·.bondOutpoint)).Nodup)
    (hmeet : StepsMeet (dormancyCommit params history)
      (fun S s => ∀ b ∈ s.passEpoch params, Absorbed params history last S s b) S sinks) :
    (sinks ++ [last]).foldl (dormancyCommit params history) S =
      dormancyCommit params history S last := by
  have hlast : last.Sees params history := hsees last (mem_append_right _ mem_cons_self)
  induction sinks generalizing S with
  | nil => rfl
  | cons s sinks ih =>
    have hs : s.Sees params history := hsees s mem_cons_self
    have hsuffix : s.chain <:+ last.chain :=
      (pairwise_cons.mp hincreasing).1 last (mem_append_right _ mem_cons_self)
    have hkeys' : ((dormancyCommit params history S s).records.map (·.bondOutpoint)).Nodup := by
      rwa [map_bondOutpoint_dormancyCommit hs]
    have htail := ih (pairwise_cons.mp hincreasing).2
      (forall_mem_cons.mp hsees).2 hkeys' hmeet.2
    exact htail.trans (dormancyCommit_absorb hchain hsuffix hs hlast hkeys hmeet.1)

/-- Epochs of one blue score; a bond is evicted after two silent epochs, at most half of the active
stake a round. -/
def dormancyParams : DnsParams :=
  { (default : DnsParams) with
    attestationEpochLengthBlueScore := 1
    attestationLagBlueScore := 1
    maxReorgHorizonBlocks := 1
    unbondingPeriodBlocks := 1
    stakeScoreWindowBlueScore := 20
    dormancyWindowEpochs := 2
    dormancyEvictPeriodEpochs := 1
    dormancyEvictLimitBps := 5000
    dormancyRevivalDelayEpochs := 1 }

def dormancyBond (id amount activation : ℕ) : StakeBondRecord :=
  { (default : StakeBondRecord) with
    bondOutpoint := ⟨id, 0⟩
    amount := amount
    activationDaaScore := activation
    status := .pending }

def heightRows : ℕ → List HeaderRow
  | 0 => [⟨100, 0, 0⟩]
  | n + 1 => ⟨101 + n, n + 1, n + 1⟩ :: heightRows n

def heightSink (n : ℕ) : DormancySink := ⟨⟨101 + n, n + 1, n + 1⟩, heightRows n, [], []⟩

def silentHistory : BondHistory := ⟨fun _ => [], fun _ => none, fun _ => none⟩

theorem heightSink_sees (n : ℕ) : (heightSink n).Sees dormancyParams silentHistory :=
  fun _ _ _ _ _ => Iff.rfl

/-- Two silent bonds: the first pass evicts one of them, the next one the other. -/
theorem dormancyCommits_skip_silent :
    ([heightSink 3] ++ [heightSink 4]).foldl (dormancyCommit dormancyParams silentHistory)
        ⟨[dormancyBond 1 100 0, dormancyBond 2 100 0], 0⟩ =
      dormancyCommit dormancyParams silentHistory
        ⟨[dormancyBond 1 100 0, dormancyBond 2 100 0], 0⟩ (heightSink 4) := by
  have hchain : Ascends (heightSink 4).chain := by
    unfold Ascends
    decide +kernel
  refine dormancyCommits_skip hchain ?_ ?_ (by decide) ⟨?_, trivial⟩
  · refine pairwise_cons.mpr ⟨fun s hs => ?_, pairwise_singleton _ _⟩
    rw [mem_singleton.mp hs]
    exact suffix_cons _ _
  · intro s hs
    simp only [cons_append, nil_append, mem_cons, not_mem_nil, or_false] at hs
    rcases hs with rfl | rfl
    · exact heightSink_sees 3
    · exact heightSink_sees 4
  · intro b hb
    have hpass : (heightSink 3).passEpoch dormancyParams = some 3 := by decide +kernel
    obtain rfl := Option.some.inj (hpass.symm.trans hb)
    refine ⟨by decide +kernel, by decide +kernel, fun _ => by decide +kernel, ?_⟩
    intro record hrecord dormantEpoch _
    have hnever : ∀ r ∈ [dormancyBond 1 100 0, dormancyBond 2 100 0],
        (r.touch silentHistory.attested 3).lastAttestedEpoch = none := by decide
    rw [hnever record hrecord]
    simp [dormancyRevivalReady]

/-- A third bond gets active between the two sinks. The pass at the first sink evicts one silent
bond, the pass that jumps to the second sink evicts both in the same round, against the larger
denominator. -/
theorem activation_between_sinks_diverges :
    dormancyParams.dnsV4ParamsConsistent = true ∧
    Ascends (heightSink 4).chain ∧ (heightSink 3).chain <:+ (heightSink 4).chain ∧
    (heightSink 3).Sees dormancyParams silentHistory ∧
    (heightSink 4).Sees dormancyParams silentHistory ∧
    [heightSink 3, heightSink 4].foldl (dormancyCommit dormancyParams silentHistory)
        ⟨[dormancyBond 1 100 0, dormancyBond 2 100 0, dormancyBond 3 200 5], 0⟩ ≠
      dormancyCommit dormancyParams silentHistory
        ⟨[dormancyBond 1 100 0, dormancyBond 2 100 0, dormancyBond 3 200 5], 0⟩
        (heightSink 4) := by
  refine ⟨by decide +kernel, ?_, suffix_cons _ _, heightSink_sees 3, heightSink_sees 4, ?_⟩
  · unfold Ascends
    decide +kernel
  · decide +kernel

end Misaka.Dns
