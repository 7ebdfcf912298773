import Misaka.Core.Machine
import Misaka.Evm.Conservation
import Misaka.Pipeline.ChainWalk

/-!
# Storage mass

`calc_storage_mass` of `consensus/core/src/mass/mod.rs`, with every addition, product and division
that may stop it. An output counts as several cells if its script is long, so a mean amount per cell
can be zero.
-/

namespace Misaka.Pipeline

open Misaka.Core Dns List

/-! ## The formula -/

def UTXO_CONST_STORAGE : ℕ := 64 + 4 + 8 + 8 + 1 + 2 + 8
def UTXO_UNIT_SIZE : ℕ := 100
def STORAGE_MASS_PARAMETER : ℕ := 100000000 * 10000

def utxoPlurality (spk : ScriptPublicKey) : ℕ :=
  (UTXO_CONST_STORAGE + spk.script.length + (UTXO_UNIT_SIZE - 1)) / UTXO_UNIT_SIZE

structure UtxoCell where
  plurality : ℕ
  amount : ℕ
  deriving DecidableEq, Repr

/-- `From<&UtxoEntry>`. -/
def UtxoCell.ofEntry (entry : UtxoEntry) : UtxoCell :=
  ⟨utxoPlurality entry.scriptPublicKey, entry.amount⟩

/-- `From<&TransactionOutput>`. -/
def UtxoCell.ofOutput (out : TransactionOutput) : UtxoCell :=
  ⟨utxoPlurality out.scriptPublicKey, out.value⟩

/-- How the formula ends without a mass: `None`, or a panic. -/
inductive MassExit where
  | incomputable
  | panic (fault : ArithFault)
  deriving DecidableEq, Repr

/-- A `checked_` operation under `?`. -/
def orIncomputable {α : Type} (x : Except ArithFault α) : Except MassExit α :=
  x.mapError fun _ => .incomputable

def orPanic {α : Type} (x : Except ArithFault α) : Except MassExit α := x.mapError .panic

def addOutput (stormParam : ℕ) (acc : ℕ × ℕ) (cell : UtxoCell) : Except MassExit (ℕ × ℕ) := do
  let plurality ← orPanic (machineAdd U64_MAX acc.1 cell.plurality)
  let scaled ← orIncomputable (machineMul U64_MAX stormParam cell.plurality)
  let scaled ← orIncomputable (machineMul U64_MAX scaled cell.plurality)
  let term ← orPanic (machineDiv scaled cell.amount)
  let harmonic ← orIncomputable (machineAdd U64_MAX acc.2 term)
  return (plurality, harmonic)

def relaxedFormulaPath (outsPlurality : ℕ) (inputs : List UtxoCell) : Except ArithFault Bool :=
  if outsPlurality = 1 then .ok true
  else if 2 < inputs.length then .ok false
  else do
    let insPlurality ← inputs.foldlM (fun acc c => machineAdd U64_MAX acc c.plurality) 0
    return insPlurality = 1 || (outsPlurality = 2 && insPlurality = 2)

def addHarmonicInput (stormParam total : ℕ) (cell : UtxoCell) : Except ArithFault ℕ := do
  let scaled ← machineMul U64_MAX stormParam cell.plurality
  let scaled ← machineMul U64_MAX scaled cell.plurality
  let current ← machineDiv scaled cell.amount
  return min (total + current) U64_MAX

def addInput (acc : ℕ × ℕ) (cell : UtxoCell) : Except ArithFault (ℕ × ℕ) := do
  let plurality ← machineAdd U64_MAX acc.1 cell.plurality
  let amount ← machineAdd U64_MAX acc.2 cell.amount
  return (plurality, amount)

/-- The arithmetic part of the inputs: `|I| · (C / mean_ins)`, zero if there are none. -/
def arithmeticIns (stormParam : ℕ) (inputs : List UtxoCell) : Except ArithFault ℕ := do
  let sums ← inputs.foldlM addInput (0, 0)
  if sums.1 = 0 then return 0
  else do
    let meanIns ← machineDiv sums.2 sums.1
    let quotient ← machineDiv stormParam meanIns
    return min (sums.1 * quotient) U64_MAX

def inputsPart (stormParam outsPlurality : ℕ) (inputs : List UtxoCell) : Except ArithFault ℕ := do
  if ← relaxedFormulaPath outsPlurality inputs then
    inputs.foldlM (addHarmonicInput stormParam) 0
  else arithmeticIns stormParam inputs

/-- The part of the outputs over that of the inputs. -/
def calcStorageMass (isCoinbase : Bool) (inputs outputs : List UtxoCell) (stormParam : ℕ) :
    Except MassExit ℕ :=
  if isCoinbase then .ok 0
  else do
    let outs ← outputs.foldlM (addOutput stormParam) (0, 0)
    let ins ← orPanic (inputsPart stormParam outs.1 inputs)
    return outs.2 - ins

def calcContextualMasses (tx : Transaction) (entries : List UtxoEntry) : Except MassExit ℕ :=
  calcStorageMass tx.isCoinbase (entries.map .ofEntry) (tx.outputs.map .ofOutput)
    STORAGE_MASS_PARAMETER

def Panics (x : Except MassExit ℕ) : Prop := ∃ fault, x = .error (.panic fault)

/-! ## Cells of consensus size -/

def MAX_SCRIPT_PUBLIC_KEY_LEN : ℕ := 10000

def MAX_TX_CELLS : ℕ := 1000

def MAX_PLURALITY : ℕ := 101

structure UtxoCell.Sound (c : UtxoCell) : Prop where
  pos : 0 < c.plurality
  le : c.plurality ≤ MAX_PLURALITY
  amount_ne : c.amount ≠ 0

def plurality (cells : List UtxoCell) : ℕ := (cells.map (·.plurality)).sum

def amounts (cells : List UtxoCell) : ℕ := (cells.map (·.amount)).sum

section Formula

variable {cells inputs outputs : List UtxoCell}

theorem length_le_plurality (h : ∀ c ∈ cells, c.Sound) : cells.length ≤ plurality cells := by
  unfold plurality
  rw [← length_map (f := fun c : UtxoCell => c.plurality)]
  refine length_le_sum_of_one_le _ fun n hn => ?_
  obtain ⟨c, hc, rfl⟩ := mem_map.mp hn
  exact (h c hc).pos

theorem plurality_le (h : ∀ c ∈ cells, c.Sound) :
    plurality cells ≤ cells.length * MAX_PLURALITY := by
  have hle := sum_le_card_nsmul (cells.map (·.plurality)) MAX_PLURALITY fun n hn => by
    obtain ⟨c, hc, rfl⟩ := mem_map.mp hn
    exact (h c hc).le
  simpa [plurality] using hle

theorem UtxoCell.Sound.scaled_le {c : UtxoCell} (h : c.Sound) :
    STORAGE_MASS_PARAMETER * c.plurality * c.plurality ≤
      STORAGE_MASS_PARAMETER * MAX_PLURALITY * MAX_PLURALITY :=
  Nat.mul_le_mul (Nat.mul_le_mul_left _ h.le) h.le

theorem UtxoCell.Sound.machineMul_eq {c : UtxoCell} (h : c.Sound) :
    machineMul U64_MAX STORAGE_MASS_PARAMETER c.plurality =
        .ok (STORAGE_MASS_PARAMETER * c.plurality) ∧
      machineMul U64_MAX (STORAGE_MASS_PARAMETER * c.plurality) c.plurality =
        .ok (STORAGE_MASS_PARAMETER * c.plurality * c.plurality) :=
  ⟨machineMul_of_le ((Nat.mul_le_mul_left _ h.le).trans (by decide)),
    machineMul_of_le (h.scaled_le.trans (by decide))⟩

theorem exists_foldlM_addOutput (h : ∀ c ∈ cells, c.Sound) {p harmonic : ℕ}
    (hp : p + cells.length * MAX_PLURALITY ≤ U64_MAX)
    (hharmonic : harmonic +
      cells.length * (STORAGE_MASS_PARAMETER * MAX_PLURALITY * MAX_PLURALITY) ≤ U64_MAX) :
    ∃ total, cells.foldlM (addOutput STORAGE_MASS_PARAMETER) (p, harmonic) =
      .ok (p + plurality cells, total) := by
  induction cells generalizing p harmonic with
  | nil => exact ⟨harmonic, rfl⟩
  | cons c cells ih =>
    have hc := h c mem_cons_self
    have hle := hc.le
    rw [length_cons, add_mul] at hp hharmonic
    have hterm : STORAGE_MASS_PARAMETER * c.plurality * c.plurality / c.amount ≤
        STORAGE_MASS_PARAMETER * MAX_PLURALITY * MAX_PLURALITY :=
      (Nat.div_le_self _ _).trans hc.scaled_le
    have hstep : addOutput STORAGE_MASS_PARAMETER (p, harmonic) c = .ok (p + c.plurality,
        harmonic + STORAGE_MASS_PARAMETER * c.plurality * c.plurality / c.amount) := by
      simp only [addOutput, orPanic, orIncomputable, bind_eq_ok, mapError_eq_ok]
      exact ⟨_, machineAdd_of_le (by omega), _, hc.machineMul_eq.1, _, hc.machineMul_eq.2, _,
        machineDiv_of_ne hc.amount_ne, _, machineAdd_of_le (by omega), rfl⟩
    obtain ⟨total, htotal⟩ := ih (forall_mem_cons.mp h).2
      (show p + c.plurality + cells.length * MAX_PLURALITY ≤ U64_MAX by omega)
      (show harmonic + STORAGE_MASS_PARAMETER * c.plurality * c.plurality / c.amount +
        cells.length * (STORAGE_MASS_PARAMETER * MAX_PLURALITY * MAX_PLURALITY) ≤ U64_MAX by omega)
    refine ⟨total, foldlM_cons_eq_ok.mpr ⟨_, hstep, ?_⟩⟩
    rw [htotal, plurality, plurality, map_cons, sum_cons, add_assoc]

theorem exists_foldlM_addHarmonicInput (h : ∀ c ∈ cells, c.Sound) (start : ℕ) :
    ∃ total, cells.foldlM (addHarmonicInput STORAGE_MASS_PARAMETER) start = .ok total := by
  refine (exists_foldlM_eq_ok_iff fun c hc s => ?_).mpr h
  refine iff_of_true ?_ (h c hc)
  simp only [addHarmonicInput, bind_eq_ok]
  exact ⟨_, _, (h c hc).machineMul_eq.1, _, (h c hc).machineMul_eq.2, _,
    machineDiv_of_ne (h c hc).amount_ne, rfl⟩

theorem foldlM_addInput_eq_ok {p amount : ℕ} {sums : ℕ × ℕ}
    (hp : p + plurality cells ≤ U64_MAX) (hamount : amount ≤ U64_MAX) :
    cells.foldlM addInput (p, amount) = .ok sums ↔
      sums = (p + plurality cells, amount + amounts cells) ∧
        amount + amounts cells ≤ U64_MAX := by
  induction cells generalizing p amount with
  | nil =>
    rw [foldlM_nil_ok, Except.ok.injEq, eq_comm]
    simp [plurality, amounts, hamount]
  | cons c cells ih =>
    simp only [plurality, amounts, map_cons, sum_cons] at hp ⊢
    have hstep (q : ℕ × ℕ) : addInput (p, amount) c = .ok q ↔
        amount + c.amount ≤ U64_MAX ∧ q = (p + c.plurality, amount + c.amount) := by
      simp only [addInput, machineAdd_of_le (show p + c.plurality ≤ U64_MAX by omega), bind_eq_ok,
        machineAdd_eq_ok]
      constructor
      · rintro ⟨_, hplur, _, ⟨hle, rfl⟩, hq⟩
        cases hplur
        exact ⟨hle, (Except.ok.inj hq).symm⟩
      · rintro ⟨hle, rfl⟩
        exact ⟨_, rfl, _, ⟨hle, rfl⟩, rfl⟩
    rw [foldlM_cons_eq_ok]
    constructor
    · rintro ⟨q, hq, hrest⟩
      obtain ⟨hle, rfl⟩ := (hstep q).mp hq
      obtain ⟨rfl, hsum⟩ := (ih (by unfold plurality; omega) hle).mp hrest
      exact ⟨by simp only [plurality, amounts, add_assoc],
        by simpa only [amounts, add_assoc] using hsum⟩
    · rintro ⟨rfl, hsum⟩
      refine ⟨_, (hstep _).mpr ⟨by omega, rfl⟩,
        (ih (by unfold plurality; omega) (by omega)).mpr ⟨?_, ?_⟩⟩
      · simp only [plurality, amounts, add_assoc]
      · unfold amounts
        omega

theorem exists_arithmeticIns_iff (h : ∀ c ∈ inputs, c.Sound) (hlen : inputs.length ≤ MAX_TX_CELLS) :
    (∃ part, arithmeticIns STORAGE_MASS_PARAMETER inputs = .ok part) ↔
      inputs = [] ∨ plurality inputs ≤ amounts inputs ∧ amounts inputs ≤ U64_MAX := by
  have hfits : 0 + plurality inputs ≤ U64_MAX := (Nat.zero_add _).trans_le
    (((plurality_le h).trans (Nat.mul_le_mul_right _ hlen)).trans (by decide))
  have hsums (sums : ℕ × ℕ) : inputs.foldlM addInput (0, 0) = .ok sums ↔
      sums = (0 + plurality inputs, 0 + amounts inputs) ∧ 0 + amounts inputs ≤ U64_MAX :=
    foldlM_addInput_eq_ok hfits (Nat.zero_le U64_MAX)
  simp only [Nat.zero_add] at hsums
  have hpos := length_le_plurality h
  constructor
  · rintro ⟨part, hpart⟩
    obtain ⟨sums, hfold, hpart⟩ := bind_eq_ok.mp hpart
    obtain ⟨rfl, hle⟩ := (hsums sums).mp hfold
    split at hpart
    · next hzero =>
      exact .inl (length_eq_zero_iff.mp (by simp only at hzero; omega))
    · obtain ⟨mean, hmean, hpart⟩ := bind_eq_ok.mp hpart
      obtain ⟨quotient, hquotient, -⟩ := bind_eq_ok.mp hpart
      obtain ⟨-, rfl⟩ := machineDiv_eq_ok.mp hmean
      obtain ⟨hne, -⟩ := machineDiv_eq_ok.mp hquotient
      refine .inr ⟨?_, hle⟩
      by_contra hlt
      exact hne (Nat.div_eq_of_lt (Nat.lt_of_not_le hlt))
  · rintro (rfl | ⟨hmean, hle⟩)
    · exact ⟨0, rfl⟩
    · by_cases hzero : plurality inputs = 0
      · exact ⟨0, bind_eq_ok.mpr ⟨_, (hsums _).mpr ⟨rfl, hle⟩, if_pos hzero⟩⟩
      · have hdiv : amounts inputs / plurality inputs ≠ 0 :=
          (Nat.div_pos hmean (Nat.pos_of_ne_zero hzero)).ne'
        refine ⟨min (plurality inputs * (STORAGE_MASS_PARAMETER /
          (amounts inputs / plurality inputs))) U64_MAX,
          bind_eq_ok.mpr ⟨_, (hsums _).mpr ⟨rfl, hle⟩, ?_⟩⟩
        rw [if_neg hzero]
        exact bind_eq_ok.mpr ⟨_, machineDiv_of_ne hzero,
          bind_eq_ok.mpr ⟨_, machineDiv_of_ne hdiv, rfl⟩⟩

def Relaxed (inputs outputs : List UtxoCell) : Prop :=
  plurality outputs = 1 ∨ inputs.length ≤ 2 ∧
    (plurality inputs = 1 ∨ plurality outputs = 2 ∧ plurality inputs = 2)

theorem relaxedFormulaPath_eq (h : ∀ c ∈ inputs, c.Sound) :
    ∃ path, relaxedFormulaPath (plurality outputs) inputs = .ok path ∧
      (path = true ↔ Relaxed inputs outputs) := by
  unfold relaxedFormulaPath Relaxed
  by_cases hone : plurality outputs = 1
  · exact ⟨true, if_pos hone, by simp [hone]⟩
  · rw [if_neg hone]
    by_cases hlen : 2 < inputs.length
    · exact ⟨false, if_pos hlen, by simp [hone, not_le.mpr hlen]⟩
    · have hfits : 0 + (inputs.map (·.plurality)).sum ≤ U64_MAX := (Nat.zero_add _).trans_le
        (((plurality_le h).trans (Nat.mul_le_mul_right _ (Nat.le_of_not_lt hlen))).trans
          (by decide))
      refine ⟨_, by rw [if_neg hlen, foldlM_machineAdd hfits]; rfl, ?_⟩
      unfold plurality at hone ⊢
      simp [hone, Nat.le_of_not_lt hlen]

/-- The formula has something to divide by: it is not asked, it is the relaxed one, there are no
inputs, or they hold at least one sompi for every cell they count as. -/
def MassDefined (tx : Transaction) (inputs outputs : List UtxoCell) : Prop :=
  tx.isCoinbase ∨ Relaxed inputs outputs ∨ inputs = [] ∨
    plurality inputs ≤ amounts inputs ∧ amounts inputs ≤ U64_MAX

theorem not_panics_iff {x : Except ArithFault ℕ} {f : ℕ → ℕ} :
    ¬Panics ((orPanic x).map f) ↔ ∃ a, x = .ok a := by
  cases x with
  | error e => exact ⟨fun h => absurd ⟨e, rfl⟩ h, nofun⟩
  | ok a => exact ⟨fun _ => ⟨a, rfl⟩, fun _ => nofun⟩

theorem not_panics_calcStorageMass_iff {tx : Transaction} (hins : ∀ c ∈ inputs, c.Sound)
    (houts : ∀ c ∈ outputs, c.Sound) (hinsLen : inputs.length ≤ MAX_TX_CELLS)
    (houtsLen : ¬tx.isCoinbase → outputs.length ≤ MAX_TX_CELLS) :
    ¬Panics (calcStorageMass tx.isCoinbase inputs outputs STORAGE_MASS_PARAMETER) ↔
      MassDefined tx inputs outputs := by
  unfold calcStorageMass MassDefined
  by_cases hcoinbase : tx.isCoinbase
  · rw [if_pos hcoinbase]
    exact iff_of_true nofun (.inl hcoinbase)
  · have hlen := houtsLen hcoinbase
    have hcells (n : ℕ) (hn : MAX_TX_CELLS * n ≤ U64_MAX) : 0 + outputs.length * n ≤ U64_MAX :=
      (Nat.zero_add _).trans_le ((Nat.mul_le_mul_right n hlen).trans hn)
    obtain ⟨harmonic, hfold⟩ :=
      exists_foldlM_addOutput houts (hcells _ (by decide)) (hcells _ (by decide))
    obtain ⟨path, hpath, hrelaxed⟩ := @relaxedFormulaPath_eq inputs outputs hins
    rw [if_neg hcoinbase, hfold]
    change ¬Panics ((orPanic (inputsPart STORAGE_MASS_PARAMETER (0 + plurality outputs)
      inputs)).map fun ins => harmonic - ins) ↔ _
    rw [not_panics_iff, Nat.zero_add, inputsPart, hpath]
    cases path with
    | true =>
      refine iff_of_true ?_ (.inr (.inl (hrelaxed.mp rfl)))
      exact exists_foldlM_addHarmonicInput hins 0
    | false =>
      have hnot : ¬Relaxed inputs outputs := fun hr => Bool.false_ne_true (hrelaxed.mpr hr)
      have hiff := exists_arithmeticIns_iff hins hinsLen
      simp only [hcoinbase, hnot, false_or, Bool.false_eq_true]
      exact hiff

end Formula

/-! ## What can be on the chain -/

structure Funded (e : UtxoEntry) : Prop where
  amount_ne : e.amount ≠ 0
  script_le : e.scriptPublicKey.script.length ≤ MAX_SCRIPT_PUBLIC_KEY_LEN

structure TransactionValidator.PresetLimits (T : TransactionValidator) : Prop where
  inputs : T.maxTxInputs = MAX_TX_CELLS
  outputs : T.maxTxOutputs = MAX_TX_CELLS
  scripts : T.maxScriptPublicKeyLen = MAX_SCRIPT_PUBLIC_KEY_LEN

theorem sound_ofEntry {e : UtxoEntry} (h : Funded e) : (UtxoCell.ofEntry e).Sound := by
  have hscript := h.script_le
  refine ⟨?_, ?_, h.amount_ne⟩
  · simp only [UtxoCell.ofEntry, utxoPlurality, UTXO_CONST_STORAGE, UTXO_UNIT_SIZE]
    omega
  · simp only [UtxoCell.ofEntry, utxoPlurality, UTXO_CONST_STORAGE, UTXO_UNIT_SIZE, MAX_PLURALITY,
      MAX_SCRIPT_PUBLIC_KEY_LEN] at hscript ⊢
    omega

def ViewAll (F : UtxoEntry → Prop) (view : UtxoView) : Prop := ∀ o e, view o = some e → F e

def AddsOnly (F : UtxoEntry → Prop) (diff : UtxoDiff) : Prop :=
  ∀ o e, diff.add.lookup o = some e → F e

variable {entries : List UtxoEntry} {daa : ℕ} {out : TransactionOutput} {window : SettlementInput}
  {txId : TransactionId} {s s' : UtxoState} {P : Primitives} {params : DnsParams}
  {bondView : ActiveBondView} {mint : TransactionOutpoint × TransactionOutput}
  {ctx : UtxoProcessingContext} {view : UtxoView}

section Adds

variable {F : UtxoEntry → Prop} {base : UtxoView} {d d' : UtxoDiff} {o : TransactionOutpoint}
  {e : UtxoEntry}

theorem AddsOnly.empty : AddsOnly F .empty := fun o e h => by
  rw [UtxoDiff.empty, Finmap.lookup_empty] at h
  cases h

theorem AddsOnly.viewAll (h : AddsOnly F d) (hbase : ViewAll F base) :
    ViewAll F (compose base d) := by
  intro o e he
  unfold compose at he
  split at he
  · next entry hentry => exact h o e (hentry.trans he)
  · split at he
    · cases he
    · exact hbase o e he

theorem AddsOnly.removeEntry (h : AddsOnly F d) (hd' : d.removeEntry o e = .ok d') :
    AddsOnly F d' := by
  unfold UtxoDiff.removeEntry at hd'
  split at hd'
  · cases hd'
    intro o' e' he'
    rw [Table.lookup_erase_eq] at he'
    split at he'
    · cases he'
    · exact h o' e' he'
  · split at hd'
    · cases hd'
      exact h
    · cases hd'

theorem AddsOnly.addEntry (h : AddsOnly F d) (he : F e) (hd' : d.addEntry o e = .ok d') :
    AddsOnly F d' := by
  unfold UtxoDiff.addEntry at hd'
  split at hd'
  · cases hd'
    exact h
  · split at hd'
    · cases hd'
      intro o' e' he'
      rw [Table.lookup_insert_eq] at he'
      split at he'
      · exact Option.some.inj he' ▸ he
      · exact h o' e' he'
    · cases hd'

theorem AddsOnly.addTransaction {tx : Transaction} (h : AddsOnly F d)
    (hcreated : ∀ p ∈ tx.createdUtxos txId daa, F p.2)
    (hd' : d.addTransaction txId tx entries daa = .ok d') : AddsOnly F d' := by
  obtain ⟨d₁, hspent, hadded⟩ := bind_eq_ok.mp hd'
  have hd₁ : AddsOnly F d₁ := foldlM_induction (I := AddsOnly F)
    (fun _ _ _ _ ht ht' => ht.removeEntry ht') h hspent
  exact foldlM_induction (I := AddsOnly F)
    (fun _ p _ hp ht ht' => ht.addEntry (hcreated p hp) ht') hd₁ hadded

theorem AddsOnly.mintUtxo (h : AddsOnly F s.mergesetDiff)
    (hout : F ⟨out.value, out.scriptPublicKey, daa, false⟩)
    (hs' : mintUtxo daa s o out = .ok s') : AddsOnly F s'.mergesetDiff := by
  obtain ⟨diff, hdiff, hs'⟩ := bind_eq_ok.mp hs'
  cases hs'
  exact h.addEntry hout hdiff

theorem AddsOnly.applySlashingEffectsToState {effects : List SlashingSideEffect}
    (h : AddsOnly F s.mergesetDiff) (hmints : ∀ effect ∈ effects, ∀ mint ∈ effect.mints,
      F ⟨mint.2.value, mint.2.scriptPublicKey, daa, false⟩)
    (hs' : applySlashingEffectsToState effects base daa s = .ok s') :
    AddsOnly F s'.mergesetDiff := by
  refine foldlM_induction (I := fun s : UtxoState => AddsOnly F s.mergesetDiff)
    (fun t effect t' heffect ht ht' => ?_) h hs'
  unfold Dns.applySlashingEffect at ht'
  split at ht'
  · cases ht'
    exact ht
  · obtain ⟨diff, hdiff, hmint⟩ := bind_eq_ok.mp ht'
    exact foldlM_induction (I := fun s : UtxoState => AddsOnly F s.mergesetDiff)
      (fun _ mint _ hmem hu hu' => hu.mintUtxo (hmints effect heffect mint hmem) hu')
      (ht.removeEntry hdiff) hmint

theorem AddsOnly.applyEvmBridgeEffects {E : EvmLane} {locks : List ConsumedLock}
    {ws : List WithdrawOp} (h : AddsOnly F s.mergesetDiff)
    (hwithdraw : ∀ w : WithdrawOp, w.amountSompi ≠ 0 →
      w.scriptPublicKey.script.length ≤ MAX_WITHDRAW_SCRIPT_BYTES →
      F (EvmLane.withdrawalEntry daa w))
    (hs' : E.applyEvmBridgeEffects daa locks ws s = .ok s') : AddsOnly F s'.mergesetDiff := by
  obtain ⟨t, ht, hws⟩ := bind_eq_ok.mp hs'
  have hlocks : AddsOnly F t.mergesetDiff :=
    foldlM_induction (I := fun s : UtxoState => AddsOnly F s.mergesetDiff)
      (fun u l u' _ hu hu' => by
        obtain ⟨diff, hdiff, rfl⟩ := EvmLane.consumeLock_eq_ok.mp hu'
        exact hu.removeEntry hdiff) h ht
  refine foldlM_induction (I := fun s : UtxoState => AddsOnly F s.mergesetDiff)
    (fun u w u' _ hu hu' => ?_) hlocks hws
  obtain ⟨hamount, hscript, diff, hdiff, rfl⟩ := EvmLane.materialize_eq_ok.mp hu'
  exact hu.addEntry (hwithdraw w hamount hscript) hdiff

end Adds

/-! ## The four producers -/

section Producers

variable {V : VirtualProcessor} {tx : Transaction} {c : AcceptanceContext} {m : MuHash}

theorem of_validateTxInIsolation {T : TransactionValidator}
    (h : T.validateTxInIsolation P tx = .ok ()) :
    tx.inputs.length ≤ T.maxTxInputs ∧ (¬tx.isCoinbase → tx.outputs.length ≤ T.maxTxOutputs) ∧
      ∀ out ∈ tx.outputs, out.value ≠ 0 ∧
        out.scriptPublicKey.script.length ≤ T.maxScriptPublicKeyLen := by
  simp only [TransactionValidator.validateTxInIsolation, bind_eq_ok] at h
  obtain ⟨_, -, _, hinputs, _, houtputs, _, -, _, -, _, hvalues, -⟩ := h
  simp only [TransactionValidator.checkTransactionInputsInIsolation, bind_eq_ok] at hinputs
  obtain ⟨_, -, _, hinputs, -⟩ := hinputs
  simp only [TransactionValidator.checkTransactionOutputsInIsolation, bind_eq_ok] at houtputs
  obtain ⟨_, hcount, hscripts⟩ := houtputs
  simp only [reject, error_ite_eq_ok] at hinputs hcount
  refine ⟨by simpa using hinputs.1, fun hcoinbase => ?_, fun out hout => ⟨?_, ?_⟩⟩
  · simpa [hcoinbase] using hcount.1
  · obtain ⟨_, hfold, -⟩ := bind_eq_ok.mp hvalues
    obtain ⟨i, hi⟩ := mem_iff_getElem?.mp hout
    obtain ⟨total, total', hstep⟩ :=
      exists_step_of_foldlM hfold (a := (out, i)) (mem_zipIdx_iff_getElem?.mpr hi)
    obtain ⟨_, hne, -⟩ := bind_eq_ok.mp hstep
    simp only [reject, error_ite_eq_ok] at hne
    simpa using hne.1
  · obtain ⟨i, hi⟩ := exists_of_checkEach hscripts hout
    simp only [reject, error_ite_eq_ok] at hi
    simpa using hi.1

def BodiesInIsolation (V : VirtualProcessor) : Prop :=
  ∀ block, ∀ tx ∈ V.blockTransactions block,
    V.validator.validateTxInIsolation V.primitives tx = .ok ()

theorem funded_createdUtxos (hlimits : V.validator.PresetLimits)
    (h : V.validator.validateTxInIsolation V.primitives tx = .ok ())
    {p : TransactionOutpoint × UtxoEntry} (hp : p ∈ tx.createdUtxos txId daa) :
    Funded p.2 := by
  obtain ⟨⟨out, i⟩, hi, rfl⟩ := mem_map.mp hp
  obtain ⟨hvalue, hscript⟩ := (of_validateTxInIsolation h).2.2 out (fst_mem_of_mem_zipIdx hi)
  exact ⟨hvalue, hscript.trans hlimits.scripts.le⟩

theorem script_p2pkhMldsa87Spk_le (payload : Hash64) :
    (p2pkhMldsa87Spk payload).script.length ≤ MAX_SCRIPT_PUBLIC_KEY_LEN := by
  simp [p2pkhMldsa87Spk, hash64Bytes, MAX_SCRIPT_PUBLIC_KEY_LEN]

def PaysToKey (out : TransactionOutput) : Prop :=
  out.value ≠ 0 ∧ ∃ payload, out.scriptPublicKey = p2pkhMldsa87Spk payload

theorem paysToKey_payoutOutputs {reward : ℕ → ℕ} {included : List (Hash64 × ℕ)}
    (h : out ∈ payoutOutputs reward included) : PaysToKey out := by
  obtain ⟨v, -, hv⟩ := mem_filterMap.mp h
  dsimp only at hv
  split at hv
  · next hpos =>
    cases hv
    exact ⟨pos_iff_ne_zero.mp hpos, _, rfl⟩
  · cases hv

theorem paysToKey_sideEffectOf {reporterBps reserveBps victimBps : ℕ} {r : ResolvedEvidence}
    (h : (sideEffectOf reporterBps reserveBps victimBps none r).reporterOutput = some out) :
    PaysToKey out := by
  simp only [sideEffectOf, slashingDistributionOutput] at h
  split at h
  · next hpos =>
    cases h
    exact ⟨pos_iff_ne_zero.mp hpos, _, rfl⟩
  · cases h

theorem paysToKey_mints_withVictims {e : SlashingSideEffect}
    (hreporter : ∀ out, e.reporterOutput = some out → PaysToKey out) (hnone : e.victimOutputs = [])
    (hmint : mint ∈ (withVictims params window bondView e).mints) : PaysToKey mint.2 := by
  rcases mem_append.mp hmint with hmint | hmint
  · obtain ⟨out, hout, rfl⟩ := mem_map.mp hmint
    have hsame : (withVictims params window bondView e).reporterOutput = e.reporterOutput := by
      unfold withVictims
      split <;> rfl
    exact hreporter out (hsame ▸ Option.mem_toList.mp hout)
  · obtain ⟨v, hv, rfl⟩ := mem_map.mp hmint
    have hv := fst_mem_of_mem_zipIdx hv
    unfold withVictims at hv
    split at hv
    · rw [hnone] at hv
      cases hv
    · simp only [slashedEpochVictimOutputs, victimCompensationOutputs] at hv
      exact paysToKey_payoutOutputs hv

theorem paysToKey_mints {accepted : List Transaction} {e : SlashingSideEffect}
    (he : e ∈ slashingEffects P params window accepted bondView daa) (hmint : mint ∈ e.mints) :
    PaysToKey mint.2 := by
  obtain ⟨e₀, he₀, rfl⟩ := mem_map.mp he
  obtain ⟨r, -, rfl⟩ := mem_map.mp he₀
  exact paysToKey_mints_withVictims (fun _ => paysToKey_sideEffectOf) rfl hmint

theorem funded_of_paysToKey (h : PaysToKey out) (daa : ℕ) :
    Funded ⟨out.value, out.scriptPublicKey, daa, false⟩ := by
  obtain ⟨hvalue, payload, hscript⟩ := h
  refine ⟨hvalue, ?_⟩
  rw [hscript]
  exact script_p2pkhMldsa87Spk_le payload

theorem AddsOnly.addAccepted (hlimits : V.validator.PresetLimits)
    (hisolated : V.validator.validateTxInIsolation V.primitives tx = .ok ()) {d d' : UtxoDiff}
    {fee : ℕ} (h : AddsOnly Funded d) (hd' : addAccepted V daa d ⟨tx, entries, fee⟩ = .ok d') :
    AddsOnly Funded d' :=
  h.addTransaction (fun _ hp => funded_createdUtxos hlimits hisolated hp) (mapError_eq_ok.mp hd')

section Accepting

variable (hlimits : V.validator.PresetLimits) (hbodies : BodiesInIsolation V)
  {s s' : AcceptanceState}

include hlimits hbodies

theorem addsOnly_acceptCoinbase (h : acceptCoinbase V c m = .ok s) :
    AddsOnly Funded s.utxo.mergesetDiff := by
  unfold acceptCoinbase at h
  split at h
  · cases h
  · next coinbase rest hbody =>
    obtain ⟨diff, hdiff, hs⟩ := bind_eq_ok.mp h
    cases hs
    refine AddsOnly.empty.addAccepted hlimits (hbodies c.ghostdagData.selectedParent _ ?_) hdiff
    rw [hbody]
    exact mem_cons_self

theorem AddsOnly.acceptBlock {block : MergedBlock} (h : AddsOnly Funded s.utxo.mergesetDiff)
    (hs' : acceptBlock V c s block = .ok s') : AddsOnly Funded s'.utxo.mergesetDiff := by
  obtain ⟨-, hdiff, -⟩ := acceptBlock_eq_ok hs'
  refine foldlM_induction (I := AddsOnly Funded) (fun d v d' hv hd hd' => ?_) h hdiff
  exact hd.addAccepted hlimits (hbodies block.hash v.1.tx (tx_mem_of_mem_acceptedFrom hv)) hd'

theorem addsOnly_acceptBlocks {merged : List MergedBlock} (h : acceptCoinbase V c m = .ok s)
    (hs' : merged.foldlM (acceptBlock V c) s = .ok s') : AddsOnly Funded s'.utxo.mergesetDiff :=
  foldlM_induction (I := fun s : AcceptanceState => AddsOnly Funded s.utxo.mergesetDiff)
    (fun _ _ _ _ ht ht' => ht.acceptBlock hlimits hbodies ht')
    (addsOnly_acceptCoinbase hlimits hbodies h) hs'

theorem addsOnly_calculateUtxoState {records : List StakeBondRecord}
    (h : calculateUtxoState V c records m = .ok ctx) : AddsOnly Funded ctx.utxo.mergesetDiff := by
  obtain ⟨start, hstart, h⟩ := bind_eq_ok.mp h
  obtain ⟨s, hs, h⟩ := bind_eq_ok.mp h
  obtain ⟨⟨utxo, accrual⟩, hside, hctx⟩ := bind_eq_ok.mp h
  cases hctx
  have hloop := addsOnly_acceptBlocks hlimits hbodies hstart hs
  replace hside := mapError_eq_ok.mp hside
  unfold applySlashingSideEffects at hside
  split at hside
  · cases hside
    exact hloop
  · split at hside
    · cases hside
      exact hloop
    · obtain ⟨utxo', hutxo, heq⟩ := bind_eq_ok.mp hside
      cases heq
      exact hloop.applySlashingEffectsToState
        (fun effect heffect mint hmint => funded_of_paysToKey (paysToKey_mints heffect hmint) _)
        hutxo

end Accepting

theorem AddsOnly.evmChainContextStep {ctx' : UtxoProcessingContext} {header : Header}
    {payload : EvmExecutionPayload} (h : AddsOnly Funded ctx.utxo.mergesetDiff)
    (hctx' : evmChainContextStep V ctx view header payload = .ok ctx') :
    AddsOnly Funded ctx'.utxo.mergesetDiff := by
  unfold Pipeline.evmChainContextStep at hctx'
  split at hctx'
  · cases hctx'
    exact h
  · obtain ⟨locks, -, hctx'⟩ := bind_eq_ok.mp hctx'
    obtain ⟨result, -, hctx'⟩ := bind_eq_ok.mp hctx'
    split at hctx'
    · obtain ⟨utxo, hutxo, heq⟩ := bind_eq_ok.mp hctx'
      cases heq
      refine h.applyEvmBridgeEffects (fun w hamount hscript => ⟨hamount, hscript.trans ?_⟩)
        (mapError_eq_ok.mp hutxo)
      decide
    · cases hctx'

end Producers

/-! ## Along the chain -/

section Chain

variable (V : VirtualProcessor) (start : ChainState)

/-- The views that transactions are validated in: at a tip of the walk, while a block or the virtual
block on top of it accepts its mergeset, once it has, and after the EVM step. -/
inductive ReachedView : UtxoView → Prop
  | tip {s : ChainState} : Walk V start s → ReachedView s.view
  | accepting {s : ChainState} {c : AcceptanceContext} {merged : List MergedBlock}
      {t t' : AcceptanceState} : Walk V start s → c.view = s.view →
      acceptCoinbase V c s.multiset = .ok t → merged.foldlM (acceptBlock V c) t = .ok t' →
      ReachedView (compose s.view t'.utxo.mergesetDiff)
  | accepted {s : ChainState} {c : AcceptanceContext} {records : List StakeBondRecord}
      {ctx : UtxoProcessingContext} : Walk V start s → c.view = s.view →
      calculateUtxoState V c records s.multiset = .ok ctx →
      ReachedView (compose s.view ctx.utxo.mergesetDiff)
  | bridged {s : ChainState} {c : AcceptanceContext} {records : List StakeBondRecord}
      {ctx ctx' : UtxoProcessingContext} {header : Header} {payload : EvmExecutionPayload} :
      Walk V start s → c.view = s.view → calculateUtxoState V c records s.multiset = .ok ctx →
      evmChainContextStep V ctx s.view header payload = .ok ctx' →
      ReachedView (compose s.view ctx'.utxo.mergesetDiff)

variable {V start}

theorem Walk.viewAll_funded {s : ChainState} (hlimits : V.validator.PresetLimits)
    (hbodies : BodiesInIsolation V) (hstart : ViewAll Funded start.view)
    (h : Walk V start s) : ViewAll Funded s.view := by
  induction h with
  | start => exact hstart
  | step _ hlists _ hstep ih =>
    obtain rfl | ⟨ctx, hcommits, rfl⟩ := walkBlock_eq_ok hlists hstep
    · exact ih
    · obtain ⟨verified, hproc⟩ := hcommits.processed
      obtain ⟨ctx₀, hctx₀, hevm, -⟩ := processChainBlock_eq_ok.mp hproc
      exact ((addsOnly_calculateUtxoState hlimits hbodies hctx₀).evmChainContextStep hevm).viewAll
        ih

theorem ReachedView.funded (hlimits : V.validator.PresetLimits) (hbodies : BodiesInIsolation V)
    (hstart : ViewAll Funded start.view) (h : ReachedView V start view) : ViewAll Funded view := by
  cases h with
  | tip hwalk => exact hwalk.viewAll_funded hlimits hbodies hstart
  | accepting hwalk _ hcoinbase hloop =>
    refine AddsOnly.viewAll ?_ (hwalk.viewAll_funded hlimits hbodies hstart)
    exact addsOnly_acceptBlocks hlimits hbodies hcoinbase hloop
  | accepted hwalk _ hctx =>
    exact (addsOnly_calculateUtxoState hlimits hbodies hctx).viewAll
      (hwalk.viewAll_funded hlimits hbodies hstart)
  | bridged hwalk _ hctx hevm =>
    exact ((addsOnly_calculateUtxoState hlimits hbodies hctx).evmChainContextStep hevm).viewAll
      (hwalk.viewAll_funded hlimits hbodies hstart)

theorem funded_of_populate {tx : Transaction} (hview : ViewAll Funded view)
    (h : populate view tx = .ok entries) :
    (∀ e ∈ entries, Funded e) ∧ entries.length = tx.inputs.length := by
  have hpopulated := populate_eq_ok.mp h
  refine ⟨fun e he => ?_, hpopulated.length_eq.symm⟩
  obtain ⟨input, -, hinput⟩ := exists_of_mem_left hpopulated.flip he
  exact hview _ e hinput

end Chain

/-- Whatever the chain brings into the UTXO set and whatever a transaction that passes in isolation
spends of it, computing the storage mass panics exactly if the arithmetic formula meets a mean of
zero: more cells spent than sompi in them. -/
theorem storage_mass_panics_iff (V : VirtualProcessor) (hlimits : V.validator.PresetLimits)
    (hbodies : BodiesInIsolation V) (start : ChainState)
    (hstart : ViewAll Funded start.view) (view : UtxoView)
    (hview : ReachedView V start view) (tx : Transaction)
    (htx : V.validator.validateTxInIsolation V.primitives tx = .ok ()) (entries : List UtxoEntry)
    (hentries : populate view tx = .ok entries) :
    ¬Panics (calcContextualMasses tx entries) ↔
      MassDefined tx (entries.map .ofEntry) (tx.outputs.map .ofOutput) := by
  obtain ⟨hfunded, hlen⟩ := funded_of_populate (hview.funded hlimits hbodies hstart) hentries
  obtain ⟨hinputs, houtputs, hout⟩ := of_validateTxInIsolation htx
  refine not_panics_calcStorageMass_iff (fun c hc => ?_) (fun c hc => ?_) ?_ fun hcoinbase => ?_
  · obtain ⟨e, he, rfl⟩ := mem_map.mp hc
    exact sound_ofEntry (hfunded e he)
  · obtain ⟨out, hmem, rfl⟩ := mem_map.mp hc
    obtain ⟨hvalue, hscript⟩ := hout out hmem
    exact sound_ofEntry (e := ⟨out.value, out.scriptPublicKey, 0, false⟩)
      ⟨hvalue, hscript.trans hlimits.scripts.le⟩
  · rw [length_map, hlen]
    exact hinputs.trans hlimits.inputs.le
  · rw [length_map]
    exact (houtputs hcoinbase).trans hlimits.outputs.le

/-! ## Three withdrawals of one sompi -/

open Misaka.Evm in
def dustResult : ExecutionResult where
  succeeded := true
  gasUsed := 63000
  logs := List.replicate 3 ⟨MISAKA_WITHDRAW_PRECOMPILE, [sampleRevm.withdrawTopic],
    sampleSender ++ (leBytes 32 EVM_NATIVE_SCALE).reverse ++ [0, 0] ++ (p2pkhMldsa87Spk 3).script⟩

open Misaka.Evm in
def dustProcessor : VirtualProcessor :=
  { sampleProcessor fun _ => [sampleCoinbase] with
    dnsParams := none
    evm := { sampleEvmLane with
      executeAcceptance _ _ _ _ :=
        .ok ⟨0, (withdrawOps sampleRevm 0 0 dustResult).map (·.toWithdrawOp)⟩ } }

def emptyTip : ChainState where
  diffPoint := 1
  view _ := none
  multiset := .empty
  bondView := .new
  povBondView := .new
  povDaaScore := 4

def dustBlock : Candidate where
  ghostdagData := ⟨1, 2, 0, [1], [], []⟩
  mergesetNonDaa := []
  block :=
    { header := ⟨9, 2, 5000, 5, 0, 0, 0, 3, 0, 0, 0, 0⟩
      transactions := [sampleCoinbase]
      evmPayload := ⟨[], [], List.replicate 20 2⟩ }

def dustSpend (n : ℕ) : Transaction :=
  { sampleOverlayTx 50 SUBNETWORK_ID_NATIVE [] with
    inputs := (List.range n).map fun i => ⟨⟨1000 + i, 0⟩, [], U64_MAX, 1⟩
    outputs := [⟨1, p2pkhMldsa87Spk 3⟩] }

def dustEntry : UtxoEntry := ⟨1, p2pkhMldsa87Spk 3, 5, false⟩

theorem dustBlock_reached {n : ℕ} {entries : List UtxoEntry}
    (h : (walkBlock dustProcessor [] emptyTip dustBlock).toOption.map (fun s =>
      (populate s.view (dustSpend n)).toOption) = some (some entries)) :
    ∃ view, ReachedView dustProcessor emptyTip view ∧
      populate view (dustSpend n) = .ok entries := by
  obtain ⟨s, hs, hentries⟩ := Option.map_eq_some_iff.mp h
  exact ⟨s.view, .tip (.step .start rfl rfl (toOption_eq_some.mp hs)),
    toOption_eq_some.mp hentries⟩

/-- A transaction that spends three withdrawals of one sompi passes in isolation, and its storage
mass divides by zero. -/
theorem dust_spend_panics : ∃ view entries,
    ReachedView dustProcessor emptyTip view ∧
      dustProcessor.validator.validateTxInIsolation dustProcessor.primitives (dustSpend 3) =
        .ok () ∧
      populate view (dustSpend 3) = .ok entries ∧
      calcContextualMasses (dustSpend 3) entries = .error (.panic .divideByZero) := by
  obtain ⟨view, hview, hentries⟩ :=
    @dustBlock_reached 3 [dustEntry, dustEntry, dustEntry] (by decide +kernel)
  exact ⟨view, _, hview, by decide +kernel, hentries, by decide +kernel⟩

theorem dustProcessor_bodies : BodiesInIsolation dustProcessor := by
  intro block tx htx
  obtain rfl : tx = sampleCoinbase := mem_singleton.mp htx
  decide +kernel

/-- One withdrawal alone falls under the relaxed formula. -/
theorem storage_mass_panics_iff_one_withdrawal : ∃ view entries,
    ReachedView dustProcessor emptyTip view ∧ populate view (dustSpend 1) = .ok entries ∧
      ¬Panics (calcContextualMasses (dustSpend 1) entries) := by
  obtain ⟨view, hview, hentries⟩ := @dustBlock_reached 1 [dustEntry] (by decide +kernel)
  refine ⟨view, _, hview, hentries, (storage_mass_panics_iff dustProcessor ⟨rfl, rfl, rfl⟩
    dustProcessor_bodies emptyTip nofun view hview (dustSpend 1) (by decide +kernel) _
    hentries).mpr (.inr (.inl (.inr ⟨by decide, .inr ⟨?_, ?_⟩⟩)))⟩
  · decide +kernel
  · decide +kernel

end Misaka.Pipeline
