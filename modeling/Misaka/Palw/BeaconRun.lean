import Misaka.Palw.BeaconState

/-!
# The beacon along a chain

A block's beacon state is derived from its selected parent's accumulator and state, and only then do
the block's own commits and reveals enter the accumulator it hands on. The seed of an epoch is
therefore fixed by what was accepted before the epoch's first block.
-/

namespace Misaka.Palw

open Misaka.Core Dns Pipeline List Table

namespace PalwBeaconAccumViewV1

def epochInputs (view : PalwBeaconAccumViewV1) (epoch : ℕ) : BeaconEpochInputs :=
  ((view.epochs.lookup epoch).map fun a => ⟨a.commits, a.validReveals⟩).getD {}

def stakeOf (view : PalwBeaconAccumViewV1) (epoch : ℕ) (bond : TransactionOutpoint) : ℕ :=
  ((((view.stakeByEpoch.lookup epoch).getD []).find? (·.1 = bond)).map (·.2)).getD 0

def retainFutureOf (view : PalwBeaconAccumViewV1) (currentEpoch : ℕ) : PalwBeaconAccumViewV1 :=
  { view with
    epochs := view.epochs.filterKeys (currentEpoch < ·)
    stakeByEpoch := view.stakeByEpoch.filterKeys (currentEpoch < ·) }

end PalwBeaconAccumViewV1

/-! ## Deriving and committing a block -/

/-- What the processor resolves for a chain block: its score, the bond view of its selected parent,
what it accepts, and the confirmed anchor and health at its selected parent. -/
structure BeaconBlock where
  daaScore : ℕ
  bondView : ActiveBondView
  acceptanceData : List MergesetBlockAcceptanceData
  dnsConfirmation : Option BeaconDnsAnchor × Bool

structure BeaconChain where
  view : PalwBeaconAccumViewV1
  state : Option PalwBeaconStateV1

def BeaconChain.new : BeaconChain := ⟨.new, none⟩

inductive BeaconChainFault where
  | epochRegressed
  | emptyRange
  | effects (fault : BeaconFault)
  deriving DecidableEq, Repr

variable (P : PalwPrimitives) (B : BeaconProcessor) (params : BeaconParams)

def palwEpochOf (daaScore : ℕ) : ℕ := daaScore / max B.palwEpochLengthDaa 1

def carriedAnchor (newlyConfirmed : Option BeaconDnsAnchor) (prev : Option PalwBeaconStateV1) :
    BeaconDnsAnchor :=
  match newlyConfirmed, prev with
  | some fresh, none => fresh
  | some fresh, some s =>
    if s.dnsAnchor ≠ fresh.hash then fresh
    else if s.dnsAnchor ≠ 0 then s.anchor
    else .UNCONFIRMED
  | none, some s => if s.dnsAnchor ≠ 0 then s.anchor else .UNCONFIRMED
  | none, none => .UNCONFIRMED

def replayEpochs (view : PalwBeaconAccumViewV1) (anchor : BeaconDnsAnchor) (dnsHealthy : Bool) :
    List ℕ → Hash64 → ℕ → Option PalwBeaconStateV1 → Option PalwBeaconStateV1
  | [], _, _, replayed => replayed
  | epoch :: rest, seed, degraded, _ =>
    let step := deriveBeaconEpochState P params epoch seed anchor (view.epochInputs epoch)
      dnsHealthy degraded (view.stakeOf epoch)
    replayEpochs view anchor dnsHealthy rest step.seed step.degradedEpochs (some step)

/-- Replays the epochs since the parent's. -/
def derivePalwBeaconStateCore (curDaa : ℕ) (parent : BeaconChain)
    (dnsConfirmation : Option BeaconDnsAnchor × Bool) :
    Except BeaconChainFault PalwBeaconStateV1 :=
  let epochCur := palwEpochOf B curDaa
  match parent.state with
  | none =>
    let anchor := carriedAnchor dnsConfirmation.1 none
    (replayEpochs P params parent.view anchor (dnsConfirmation.2 && anchor.isConfirmed) [epochCur] 0
      0 none).elim (.error .emptyRange) .ok
  | some prev =>
    if epochCur < prev.epoch then .error .epochRegressed
    else if prev.epoch < epochCur then
      let anchor := carriedAnchor dnsConfirmation.1 (some prev)
      (replayEpochs P params parent.view anchor (dnsConfirmation.2 && anchor.isConfirmed)
        (List.range' (prev.epoch + 1) (epochCur - prev.epoch)) prev.seed prev.degradedEpochs
        none).elim (.error .emptyRange) .ok
    else .ok prev

/-- The state of a block and the view it leaves. -/
def commitPalwBeaconState (parent : BeaconChain) (block : BeaconBlock) :
    Except BeaconChainFault BeaconChain := do
  let state ← derivePalwBeaconStateCore P B params block.daaScore parent block.dnsConfirmation
  let view ← (applyPalwBeaconEffects P B block.bondView block.daaScore
    (parent.view.retainFutureOf (palwEpochOf B block.daaScore)) block.acceptanceData).mapError
      .effects
  return ⟨view, some state⟩

def beaconRun (blocks : List BeaconBlock) : Except BeaconChainFault BeaconChain :=
  blocks.foldlM (commitPalwBeaconState P B params) .new

/-! ## The derived state -/

variable {parent : BeaconChain} {s : PalwBeaconStateV1} {block : BeaconBlock}
  {bond : TransactionOutpoint} {view : PalwBeaconAccumViewV1} {epoch : ℕ} {rows' : EpochRows}
  {blocks : List BeaconBlock}

variable {curDaa : ℕ} {dns : Option BeaconDnsAnchor × Bool} {chain' : BeaconChain}
  {view' : PalwBeaconAccumViewV1}

section Derived

variable {P B params}

theorem replayEpochs_concat (view : PalwBeaconAccumViewV1) (anchor : BeaconDnsAnchor)
    (dnsHealthy : Bool) (epochs : List ℕ) (epoch : ℕ) (seed : Hash64) (degraded : ℕ)
    (replayed : Option PalwBeaconStateV1) :
    ∃ s, replayEpochs P params view anchor dnsHealthy (epochs ++ [epoch]) seed degraded replayed =
      some s ∧ s.epoch = epoch := by
  induction epochs generalizing seed degraded replayed with
  | nil => exact ⟨_, rfl, rfl⟩
  | cons e rest ih => exact ih _ _ _

theorem derive_epoch (h : derivePalwBeaconStateCore P B params curDaa parent dns = .ok s) :
    s.epoch = palwEpochOf B curDaa := by
  unfold derivePalwBeaconStateCore at h
  cases hstate : parent.state with
  | none =>
    rw [hstate] at h
    cases h
    rfl
  | some prev =>
    rw [hstate] at h
    simp only at h
    split at h
    · cases h
    · split at h
      · rename_i hle hlt
        obtain ⟨k, hk⟩ : ∃ k, palwEpochOf B curDaa - prev.epoch = k + 1 := ⟨_, (Nat.succ_pred
          (Nat.sub_ne_zero_of_lt hlt)).symm⟩
        rw [hk, List.range'_concat] at h
        obtain ⟨s', hs', hepoch⟩ := replayEpochs_concat (P := P) parent.view
          (carriedAnchor dns.1 (some prev)) (dns.2 && (carriedAnchor dns.1 (some prev)).isConfirmed)
          (List.range' (prev.epoch + 1) k) (prev.epoch + 1 + 1 * k) prev.seed
          prev.degradedEpochs none
        rw [hs', Option.elim_some] at h
        cases h
        rw [hepoch]
        omega
      · cases h
        omega

theorem derive_same_epoch (hstate : parent.state = some s) (hepoch : s.epoch = palwEpochOf B curDaa)
    (dns : Option BeaconDnsAnchor × Bool) :
    derivePalwBeaconStateCore P B params curDaa parent dns = .ok s := by
  unfold derivePalwBeaconStateCore
  rw [hstate]
  simp only
  rw [if_neg (by omega), if_neg (by omega)]

/-- The derivation at a block reads its epoch, the parent's accumulator and state and the
confirmation, and nothing the block accepts. -/
theorem derive_congr {curDaa' : ℕ} {parent' : BeaconChain} {dns' : Option BeaconDnsAnchor × Bool}
    (hepoch : palwEpochOf B curDaa = palwEpochOf B curDaa') (hview : parent.view = parent'.view)
    (hstate : parent.state = parent'.state) (hdns : dns = dns') :
    derivePalwBeaconStateCore P B params curDaa parent dns =
      derivePalwBeaconStateCore P B params curDaa' parent' dns' := by
  subst hdns
  unfold derivePalwBeaconStateCore
  rw [hepoch, hview, hstate]

theorem commit_eq_ok {chain : BeaconChain}
    (h : commitPalwBeaconState P B params parent block = .ok chain) :
    ∃ s, derivePalwBeaconStateCore P B params block.daaScore parent block.dnsConfirmation = .ok s ∧
      chain.state = some s ∧
      applyPalwBeaconEffects P B block.bondView block.daaScore
        (parent.view.retainFutureOf (palwEpochOf B block.daaScore)) block.acceptanceData =
          .ok chain.view := by
  obtain ⟨s, hs, h⟩ := bind_eq_ok.mp h
  obtain ⟨view, hview, h⟩ := bind_eq_ok.mp h
  cases h
  exact ⟨s, hs, rfl, mapError_eq_ok.mp hview⟩

theorem state_of_same_epoch {chain : BeaconChain} {later : List BeaconBlock}
    (hstate : chain.state = some s) (hepoch : ∀ b ∈ later, palwEpochOf B b.daaScore = s.epoch)
    (h : later.foldlM (commitPalwBeaconState P B params) chain = .ok chain') :
    chain'.state = some s := by
  refine foldlM_induction (I := fun c => c.state = some s) (fun c b c' hb hc hstep => ?_) hstate h
  obtain ⟨s', hs', hstate', -⟩ := commit_eq_ok hstep
  rw [derive_same_epoch hc (hepoch b hb).symm] at hs'
  rw [hstate', Except.ok.inj hs']

end Derived

/-! ## The rows of a target epoch -/

structure EpochRows where
  commits : List (TransactionOutpoint × Hash64)
  reveals : List (TransactionOutpoint × Hash64)
  stakes : List (TransactionOutpoint × ℕ)
  deriving DecidableEq, Repr

def EpochRows.empty : EpochRows := ⟨[], [], []⟩

def PalwBeaconAccumViewV1.rows (view : PalwBeaconAccumViewV1) (epoch : ℕ) : EpochRows :=
  ⟨(view.epochInputs epoch).commits, (view.epochInputs epoch).validReveals,
    (view.stakeByEpoch.lookup epoch).getD []⟩

/-- A commit that a chain block accepts, in phase, from a bond that is active there, with the bond's
signature. -/
structure AcceptedCommit (block : BeaconBlock) (commit : PalwBeaconCommitV1)
    (bond : StakeBondRecord) : Prop where
  accepted : ∃ merged ∈ block.acceptanceData, ∃ entry ∈ merged.acceptedTransactions, ∃ tx kind,
    acceptedTx? B merged.blockHash entry = some tx ∧ tx.subnetworkId.palwTxKind = some kind ∧
      parsePalwOverlay P kind tx.payload = .ok (.beaconCommit commit)
  inPhase : commit.isInPhase (palwEpochOf B block.daaScore) = true
  active : block.bondView.activeBondAt commit.bondOutpoint block.daaScore = some bond
  signed : signedWith P bond.validatorPubkey
    (hash64Bytes (commit.signingHash P B.palwNetworkId)) commit.signature
      PALW_BEACON_MLDSA87_CONTEXT = true

inductive RowStep (block : BeaconBlock) (epoch : ℕ) : EpochRows → EpochRows → Prop
  | commit {rows : EpochRows} {commit : PalwBeaconCommitV1} {bond : StakeBondRecord}
      (haccepted : AcceptedCommit P B block commit bond) (hepoch : commit.epoch = epoch)
      (hnew : commit.bondOutpoint ∉ rows.commits.map (·.1)) :
      RowStep block epoch rows
        { rows with
          commits := rows.commits ++ [(commit.bondOutpoint, commit.commitment)]
          stakes := rows.stakes ++ [(commit.bondOutpoint, bond.amount)] }
  | reveal {rows : EpochRows} {bond : TransactionOutpoint} {digest : Hash64}
      (hphase : epoch = palwEpochOf B block.daaScore + PALW_BEACON_REVEAL_LEAD_EPOCHS)
      (hcommitted : bond ∈ rows.commits.map (·.1)) (hnew : bond ∉ rows.reveals.map (·.1)) :
      RowStep block epoch rows { rows with reveals := rows.reveals ++ [(bond, digest)] }

section Rows

variable {P B params}

theorem checkedAdd_eq {a b c : ℕ} (h : (checkedAdd a b == some c) = true) : c = a + b := by
  rw [checkedAdd] at h
  split at h
  · exact (Option.some.inj (eq_of_beq h)).symm
  · cases h

theorem any_fst_iff {β : Type} {rows : List (TransactionOutpoint × β)} :
    rows.any (·.1 = bond) = true ↔ bond ∈ rows.map (·.1) := by
  rw [any_eq_true, mem_map]
  simp only [decide_eq_true_eq]

theorem commitmentOf_isSome {accum : PalwBeaconEpochAccumV1} :
    (accum.commitmentOf bond).isSome = true ↔ bond ∈ accum.commits.map (·.1) := by
  rw [PalwBeaconEpochAccumV1.commitmentOf, Option.isSome_map, List.find?_isSome, mem_map]
  simp only [decide_eq_true_eq]

theorem rows_eq (view : PalwBeaconAccumViewV1) (epoch : ℕ) :
    view.rows epoch = ⟨((view.epochs.lookup epoch).getD {}).commits,
      ((view.epochs.lookup epoch).getD {}).validReveals,
      (view.stakeByEpoch.lookup epoch).getD []⟩ := by
  rw [PalwBeaconAccumViewV1.rows, PalwBeaconAccumViewV1.epochInputs]
  cases view.epochs.lookup epoch <;> rfl

theorem rows_recordCommit (view : PalwBeaconAccumViewV1) (target : ℕ) (bond : TransactionOutpoint)
    (commitment : Hash64) (stake epoch : ℕ) :
    (view.recordCommit target bond commitment stake).rows epoch = view.rows epoch ∨
      target = epoch ∧ bond ∉ (view.rows epoch).commits.map (·.1) ∧
        (view.recordCommit target bond commitment stake).rows epoch =
          { view.rows epoch with
            commits := (view.rows epoch).commits ++ [(bond, commitment)]
            stakes := (view.rows epoch).stakes ++ [(bond, stake)] } := by
  rw [rows_eq view, PalwBeaconAccumViewV1.recordCommit]
  by_cases hnew : bond ∈ ((view.epochs.lookup target).getD {}).commits.map (·.1)
  · exact .inl (by simp only [commitmentOf_isSome.mpr hnew, if_true, rows_eq])
  · simp only [commitmentOf_isSome.not.mpr hnew, Bool.false_eq_true, if_false, rows_eq,
      lookup_insert_eq]
    by_cases hepoch : target = epoch
    · subst hepoch
      refine .inr ⟨rfl, hnew, ?_⟩
      simp only [if_true, Option.getD_some, PalwBeaconEpochAccumV1.recordCommit,
        any_fst_iff.not.mpr hnew, Bool.false_eq_true, if_false]
    · exact .inl (by simp only [if_neg (Ne.symm hepoch)])

theorem rows_recordValidReveal (view : PalwBeaconAccumViewV1) (target : ℕ)
    (bond : TransactionOutpoint) (digest : Hash64) (epoch : ℕ) :
    (view.recordValidReveal target bond digest).rows epoch = view.rows epoch ∨
      target = epoch ∧ bond ∉ (view.rows epoch).reveals.map (·.1) ∧
        (view.recordValidReveal target bond digest).rows epoch =
          { view.rows epoch with reveals := (view.rows epoch).reveals ++ [(bond, digest)] } := by
  simp only [PalwBeaconAccumViewV1.recordValidReveal, PalwBeaconAccumViewV1.rows,
    PalwBeaconAccumViewV1.epochInputs, lookup_adjust_eq]
  by_cases hepoch : epoch = target
  · subst hepoch
    cases hlookup : view.epochs.lookup epoch with
    | none => exact .inl (by simp)
    | some accum =>
      by_cases hany : accum.validReveals.any (·.1 = bond) = true
      · exact .inl (by simp [PalwBeaconEpochAccumV1.recordValidReveal, hany])
      · refine .inr ⟨rfl, any_fst_iff.not.mp hany, ?_⟩
        simp [PalwBeaconEpochAccumV1.recordValidReveal, hany]
  · exact .inl (by simp [hepoch])

theorem mem_commits_of_commitmentOf {commitment : Hash64}
    (h : view.commitmentOf epoch bond = some commitment) :
    bond ∈ (view.rows epoch).commits.map (·.1) := by
  rw [PalwBeaconAccumViewV1.commitmentOf, Option.bind_eq_some_iff] at h
  obtain ⟨accum, haccum, hcommitment⟩ := h
  rw [rows_eq, haccum, Option.getD_some]
  exact commitmentOf_isSome.mp (by rw [hcommitment]; rfl)

theorem rowStep_applyBeaconTx {merged : MergesetBlockAcceptanceData}
    (hmerged : merged ∈ block.acceptanceData) {entry : TransactionId × ℕ}
    (hentry : entry ∈ merged.acceptedTransactions) {tx : Transaction}
    (htx : acceptedTx? B merged.blockHash entry = some tx)
    (h : applyBeaconTx P B block.bondView block.daaScore view tx = .ok view') (epoch : ℕ) :
    Relation.ReflGen (RowStep P B block epoch) (view.rows epoch) (view'.rows epoch) := by
  unfold applyBeaconTx at h
  cases hkind : tx.subnetworkId.palwTxKind with
  | none =>
    rw [hkind] at h
    cases h
    exact .refl
  | some kind =>
    rw [hkind] at h
    cases hparse : parsePalwOverlay P kind tx.payload with
    | error e => simp [hparse] at h
    | ok effect =>
      simp only [hparse, Except.ok.injEq] at h
      subst h
      cases effect with
      | beaconCommit commit =>
        simp only [applyBeaconEffect, applyBeaconCommit]
        split
        · exact .refl
        · rename_i hphase
          split
          · exact .refl
          · rename_i bond hactive
            split
            · exact .refl
            · rename_i hsigned
              simp only [Bool.not_eq_true', Bool.not_eq_false] at hphase hsigned
              rcases rows_recordCommit view commit.epoch commit.bondOutpoint commit.commitment
                bond.amount epoch with hsame | ⟨hepoch, hnew, hrows⟩
              · rw [hsame]
              · rw [hrows]
                exact .single (.commit ⟨⟨merged, hmerged, entry, hentry, tx, kind, htx, hkind,
                  hparse⟩, hphase, hactive, hsigned⟩ hepoch hnew)
      | beaconReveal reveal =>
        simp only [applyBeaconEffect, applyBeaconReveal]
        split
        · exact .refl
        · rename_i hphase
          simp only [Bool.not_eq_true', Bool.not_eq_false] at hphase
          split
          · rename_i bond commitment hactive hcommitment
            split
            · exact .refl
            · split
              · exact .refl
              · rcases rows_recordValidReveal view reveal.epoch reveal.bondOutpoint
                  (reveal.entropyDigest P) epoch with hsame | ⟨hepoch, hnew, hrows⟩
                · rw [hsame]
                · rw [hrows]
                  subst hepoch
                  exact .single (.reveal (checkedAdd_eq hphase)
                    (mem_commits_of_commitmentOf hcommitment) hnew)
          · exact .refl
      | providerBond | manifest | leafChunk | certificate | blockAuthorization => exact .refl

theorem rowSteps_applyEffects
    (h : applyPalwBeaconEffects P B block.bondView block.daaScore view block.acceptanceData =
      .ok view') (epoch : ℕ) :
    Relation.ReflTransGen (RowStep P B block epoch) (view.rows epoch) (view'.rows epoch) := by
  refine foldlM_induction (I := fun v => Relation.ReflTransGen (RowStep P B block epoch)
    (view.rows epoch) (v.rows epoch)) (fun v merged v' hmerged hv hblock => ?_) .refl h
  unfold applyBeaconBlock at hblock
  cases htxs : B.blockTransactions merged.blockHash with
  | none => simp [htxs] at hblock
  | some txs =>
    rw [htxs] at hblock
    refine foldlM_induction (I := fun v => Relation.ReflTransGen (RowStep P B block epoch)
      (view.rows epoch) (v.rows epoch)) (fun v entry v' hentry hv hstep => ?_) hv hblock
    unfold applyBeaconEntry at hstep
    cases htx : txs[entry.2]? with
    | none => simp [htx] at hstep
    | some tx =>
      rw [htx] at hstep
      have haccepted : acceptedTx? B merged.blockHash entry = some tx := by
        rw [acceptedTx?, htxs, Option.bind_some, htx]
      exact hv.trans (rowStep_applyBeaconTx hmerged hentry haccepted hstep epoch).to_reflTransGen

theorem rows_retainFutureOf (view : PalwBeaconAccumViewV1) (current epoch : ℕ) :
    (view.retainFutureOf current).rows epoch =
      if current < epoch then view.rows epoch else .empty := by
  simp only [PalwBeaconAccumViewV1.rows, PalwBeaconAccumViewV1.epochInputs,
    PalwBeaconAccumViewV1.retainFutureOf, lookup_filterKeys]
  split <;> rfl

theorem rows_commit {chain : BeaconChain}
    (h : commitPalwBeaconState P B params parent block = .ok chain) (epoch : ℕ) :
    Relation.ReflTransGen (RowStep P B block epoch)
      (if palwEpochOf B block.daaScore < epoch then parent.view.rows epoch else .empty)
      (chain.view.rows epoch) := by
  obtain ⟨-, -, -, heffects⟩ := commit_eq_ok h
  rw [← rows_retainFutureOf]
  exact rowSteps_applyEffects heffects epoch

theorem RowStep.lt {rows : EpochRows} (h : RowStep P B block epoch rows rows') :
    palwEpochOf B block.daaScore < epoch := by
  cases h with
  | commit haccepted hepoch _ =>
    have hphase := checkedAdd_eq haccepted.inPhase
    rw [PALW_BEACON_COMMIT_LEAD_EPOCHS] at hphase
    omega
  | reveal hphase _ _ =>
    rw [PALW_BEACON_REVEAL_LEAD_EPOCHS] at hphase
    omega

/-! ## What holds of the rows in every run -/

/-- Rows of a target epoch: one commit and one reveal a bond, a frozen stake for every commit, and
reveals of committed bonds only. -/
structure EpochRows.Valid (rows : EpochRows) : Prop where
  commits : (rows.commits.map (·.1)).Nodup
  reveals : (rows.reveals.map (·.1)).Nodup
  committed : ∀ r ∈ rows.reveals, r.1 ∈ rows.commits.map (·.1)
  stakes : rows.stakes.map (·.1) = rows.commits.map (·.1)

theorem EpochRows.valid_empty : EpochRows.empty.Valid :=
  ⟨nodup_nil, nodup_nil, nofun, rfl⟩

theorem nodup_map_concat {β : Type} {rows : List (TransactionOutpoint × β)} {b : β}
    (h : (rows.map (·.1)).Nodup) (hnew : bond ∉ rows.map (·.1)) :
    ((rows ++ [(bond, b)]).map (·.1)).Nodup := by
  rw [map_append, map_singleton, ← concat_eq_append]
  exact h.concat hnew

theorem EpochRows.Valid.step {rows : EpochRows} (h : rows.Valid)
    (hstep : RowStep P B block epoch rows rows') : rows'.Valid := by
  cases hstep with
  | commit haccepted hepoch hnew =>
    refine ⟨nodup_map_concat h.commits hnew, h.reveals, fun r hr => ?_, ?_⟩
    · rw [map_append]
      exact mem_append_left _ (h.committed r hr)
    · simp only [map_append, map_cons, map_nil, h.stakes]
  | reveal hphase hcommitted hnew =>
    exact ⟨h.commits, nodup_map_concat h.reveals hnew,
      forall_mem_append.mpr ⟨h.committed, forall_mem_singleton.mpr hcommitted⟩, h.stakes⟩

/-- Every stake row is the amount of the active bond at the block that accepted its commit. -/
def EpochRows.FrozenBy (rows : EpochRows) (P : PalwPrimitives) (B : BeaconProcessor) (epoch : ℕ)
    (blocks : List BeaconBlock) : Prop :=
  ∀ row ∈ rows.stakes, ∃ block ∈ blocks, ∃ commit bond, AcceptedCommit P B block commit bond ∧
    commit.epoch = epoch ∧ commit.bondOutpoint = row.1 ∧ bond.amount = row.2 ∧
    (commit.bondOutpoint, commit.commitment) ∈ rows.commits

theorem EpochRows.FrozenBy.step {rows : EpochRows} (hblock : block ∈ blocks)
    (h : rows.FrozenBy P B epoch blocks) (hstep : RowStep P B block epoch rows rows') :
    rows'.FrozenBy P B epoch blocks := by
  cases hstep with
  | commit haccepted hepoch hnew =>
    intro row hrow
    rcases mem_append.mp hrow with hrow | hrow
    · obtain ⟨b, hb, commit, bond, hcommit, he, hbond, hamount, hmem⟩ := h row hrow
      exact ⟨b, hb, commit, bond, hcommit, he, hbond, hamount, mem_append_left _ hmem⟩
    · obtain rfl := mem_singleton.mp hrow
      exact ⟨block, hblock, _, _, haccepted, hepoch, rfl, rfl,
        mem_append_right _ mem_cons_self⟩
  | reveal _ _ _ => exact h

def EpochRows.Within (rows rows' : EpochRows) : Prop :=
  rows.commits <+: rows'.commits ∧ rows.reveals <+: rows'.reveals ∧ rows.stakes <+: rows'.stakes

theorem EpochRows.within_steps {rows : EpochRows}
    (hsteps : Relation.ReflTransGen (RowStep P B block epoch) rows rows') : rows.Within rows' := by
  induction hsteps with
  | refl => exact ⟨prefix_rfl, prefix_rfl, prefix_rfl⟩
  | tail _ hstep ih =>
    obtain ⟨hcommits, hreveals, hstakes⟩ := ih
    cases hstep with
    | commit _ _ _ =>
      exact ⟨hcommits.trans (prefix_append _ _), hreveals,
        hstakes.trans (prefix_append _ _)⟩
    | reveal _ _ _ => exact ⟨hcommits, hreveals.trans (prefix_append _ _), hstakes⟩

theorem rows_eq_of_not_lt {rows : EpochRows} (hepoch : ¬palwEpochOf B block.daaScore < epoch)
    (hsteps : Relation.ReflTransGen (RowStep P B block epoch) rows rows') : rows' = rows := by
  induction hsteps with
  | refl => rfl
  | tail _ hstep _ => exact absurd hstep.lt hepoch

structure BeaconInv (P : PalwPrimitives) (B : BeaconProcessor) (blocks : List BeaconBlock)
    (chain : BeaconChain) : Prop where
  valid : ∀ epoch, (chain.view.rows epoch).Valid
  frozen : ∀ epoch, (chain.view.rows epoch).FrozenBy P B epoch blocks

theorem beaconInv_new : BeaconInv P B [] .new :=
  ⟨fun _ => EpochRows.valid_empty, nofun⟩

theorem EpochRows.FrozenBy.mono {rows : EpochRows} {blocks' : List BeaconBlock}
    (h : rows.FrozenBy P B epoch blocks) (hsub : blocks ⊆ blocks') :
    rows.FrozenBy P B epoch blocks' := by
  intro row hrow
  obtain ⟨b, hb, rest⟩ := h row hrow
  exact ⟨b, hsub hb, rest⟩

theorem BeaconInv.commit {chain : BeaconChain} (hinv : BeaconInv P B blocks parent)
    (h : commitPalwBeaconState P B params parent block = .ok chain) :
    BeaconInv P B (blocks ++ [block]) chain := by
  have hmem : block ∈ blocks ++ [block] := mem_append_right _ mem_cons_self
  constructor
  · intro epoch
    refine (rows_commit h epoch).rec (motive := fun rows _ => rows.Valid) ?_
      fun _ hstep ih => ih.step hstep
    split
    · exact hinv.valid epoch
    · exact EpochRows.valid_empty
  · intro epoch
    refine (rows_commit h epoch).rec
      (motive := fun rows _ => rows.FrozenBy P B epoch (blocks ++ [block])) ?_
      fun _ hstep ih => ih.step hmem hstep
    split
    · exact (hinv.frozen epoch).mono (subset_append_left _ _)
    · exact nofun

theorem beaconInv_run {chain : BeaconChain} (h : beaconRun P B params blocks = .ok chain) :
    BeaconInv P B blocks chain := by
  induction blocks using List.reverseRecOn generalizing chain with
  | nil =>
    cases h
    exact beaconInv_new
  | append_singleton blocks block ih =>
    obtain ⟨parent, hparent, hblock⟩ := foldlM_append_eq_ok.mp h
    obtain ⟨chain', hcommit, hnil⟩ := foldlM_cons_eq_ok.mp hblock
    cases hnil
    exact (ih hparent).commit hcommit

def RowsKept (rows : EpochRows) (epoch : ℕ) (chain : BeaconChain) : Prop :=
  (chain.view.rows epoch = .empty ∧ ∃ s, chain.state = some s ∧ epoch ≤ s.epoch) ∨
    rows.Within (chain.view.rows epoch)

theorem RowsKept.commit {rows : EpochRows} {chain : BeaconChain}
    (hkept : RowsKept rows epoch parent)
    (h : commitPalwBeaconState P B params parent block = .ok chain) :
    RowsKept rows epoch chain := by
  obtain ⟨s, hs, hstate, -⟩ := commit_eq_ok h
  have hepoch := derive_epoch hs
  have hsteps := rows_commit h epoch
  by_cases hlt : palwEpochOf B block.daaScore < epoch
  · rw [if_pos hlt] at hsteps
    rcases hkept with ⟨-, prev, hprev, hle⟩ | hwithin
    · -- the epoch was derived already, and the block's epoch is not before it
      unfold derivePalwBeaconStateCore at hs
      rw [hprev] at hs
      simp only at hs
      rw [if_pos (by omega)] at hs
      cases hs
    · obtain ⟨hc, hr, hst⟩ := hwithin
      obtain ⟨hc', hr', hst'⟩ := EpochRows.within_steps hsteps
      exact .inr ⟨hc.trans hc', hr.trans hr', hst.trans hst'⟩
  · have hrows := rows_eq_of_not_lt hlt hsteps
    rw [if_neg hlt] at hrows
    exact .inl ⟨hrows, s, hstate, by omega⟩

theorem rowsKept_run {chain : BeaconChain}
    (h : blocks.foldlM (commitPalwBeaconState P B params) chain = .ok chain') (epoch : ℕ) :
    RowsKept (chain.view.rows epoch) epoch chain' :=
  foldlM_induction (I := RowsKept (chain.view.rows epoch) epoch)
    (fun _ _ _ _ hkept hstep => hkept.commit hstep)
    (.inr ⟨prefix_rfl, prefix_rfl, prefix_rfl⟩) h

/-! ## Stakes -/

theorem stakeOf_eq (view : PalwBeaconAccumViewV1) (epoch : ℕ) (bond : TransactionOutpoint) :
    view.stakeOf epoch bond =
      (((view.rows epoch).stakes.find? (·.1 = bond)).map (·.2)).getD 0 := rfl

theorem commitmentOf_eq (view : PalwBeaconAccumViewV1) (epoch : ℕ) (bond : TransactionOutpoint) :
    view.commitmentOf epoch bond =
      ((view.rows epoch).commits.find? (·.1 = bond)).map (·.2) := by
  rw [PalwBeaconAccumViewV1.commitmentOf, PalwBeaconAccumViewV1.rows,
    PalwBeaconAccumViewV1.epochInputs]
  cases view.epochs.lookup epoch <;> rfl

theorem exists_find?_eq_some {β : Type} {rows : List (TransactionOutpoint × β)}
    (hmem : bond ∈ rows.map (·.1)) : ∃ row, rows.find? (·.1 = bond) = some row ∧ row.1 = bond := by
  obtain ⟨row, hrow, hfst⟩ := mem_map.mp hmem
  have hsome : (rows.find? (·.1 = bond)).isSome = true :=
    List.find?_isSome.mpr ⟨row, hrow, decide_eq_true hfst⟩
  obtain ⟨found, hfound⟩ := Option.isSome_iff_exists.mp hsome
  exact ⟨found, hfound, by simpa using List.find?_some hfound⟩

theorem find?_eq_some_of_nodup {β : Type} {rows : List (TransactionOutpoint × β)}
    {row : TransactionOutpoint × β} (h : (rows.map (·.1)).Nodup) (hrow : row ∈ rows)
    (hbond : row.1 = bond) : rows.find? (·.1 = bond) = some row := by
  obtain ⟨found, hfound, hfst⟩ := exists_find?_eq_some (mem_map.mpr ⟨row, hrow, hbond⟩)
  rw [hfound, inj_on_of_nodup_map h (mem_of_find?_eq_some hfound) hrow
    (hfst.trans hbond.symm)]

theorem find?_of_prefix {β : Type} {rows rows' : List (TransactionOutpoint × β)}
    (h : rows <+: rows') (hmem : bond ∈ rows.map (·.1)) :
    rows'.find? (·.1 = bond) = rows.find? (·.1 = bond) := by
  obtain ⟨added, rfl⟩ := h
  obtain ⟨found, hfound, -⟩ := exists_find?_eq_some hmem
  rw [List.find?_append, hfound, Option.some_or]

theorem sum_revealed_le {rows : EpochRows} (h : rows.Valid) (stakeOf : TransactionOutpoint → ℕ) :
    ((rows.reveals.map (·.1)).map stakeOf).sum ≤ ((rows.commits.map (·.1)).map stakeOf).sum := by
  obtain ⟨l, hperm, hsublist⟩ := subperm_of_subset h.reveals
    fun _ => forall_mem_map.mpr h.committed _
  rw [← (hperm.map stakeOf).sum_eq]
  exact (hsublist.map stakeOf).sum_le_sum fun _ _ => Nat.zero_le _

theorem stakeOf_frozen {chain : BeaconChain} (hinv : BeaconInv P B blocks chain)
    (hmem : bond ∈ (chain.view.rows epoch).commits.map (·.1)) :
    ∃ block ∈ blocks, ∃ commit record, AcceptedCommit P B block commit record ∧
      commit.epoch = epoch ∧ commit.bondOutpoint = bond ∧
      chain.view.commitmentOf epoch bond = some commit.commitment ∧
      chain.view.stakeOf epoch bond = record.amount := by
  have hvalid := hinv.valid epoch
  rw [← hvalid.stakes] at hmem
  obtain ⟨row, hrow, rfl⟩ := mem_map.mp hmem
  obtain ⟨block, hblock, commit, record, haccepted, hepoch, hbond, hamount, hcommit⟩ :=
    hinv.frozen epoch row hrow
  refine ⟨block, hblock, commit, record, haccepted, hepoch, hbond, ?_, ?_⟩
  · rw [commitmentOf_eq, find?_eq_some_of_nodup hvalid.commits hcommit hbond]
    rfl
  · have hnodup : ((chain.view.rows epoch).stakes.map (·.1)).Nodup := by
      rw [hvalid.stakes]
      exact hvalid.commits
    rw [stakeOf_eq, find?_eq_some_of_nodup hnodup hrow rfl, Option.map_some, Option.getD_some,
      hamount]

end Rows

/-- Two chains whose accumulators and beacon states agree before the first block of an epoch, with
the same confirmation at its selected parent, have the same beacon state at every block of the
epoch, whatever they accept from there on. In every run the rows of a target epoch are of different
bonds, each reveal is of a committed bond, and the stake of a bond is its active amount at its
commit. -/
theorem beacon_seed_fixed_before_epoch (P : PalwPrimitives) (B : BeaconProcessor)
    (params : BeaconParams) :
    (∀ (past past' later later' : List BeaconBlock) (block block' : BeaconBlock)
      (chain chain' fin fin' : BeaconChain) (epoch : ℕ),
      beaconRun P B params past = .ok chain → beaconRun P B params past' = .ok chain' →
      chain.view = chain'.view → chain.state = chain'.state →
      block.dnsConfirmation = block'.dnsConfirmation →
      (∀ b ∈ block :: later, palwEpochOf B b.daaScore = epoch) →
      (∀ b ∈ block' :: later', palwEpochOf B b.daaScore = epoch) →
      beaconRun P B params (past ++ block :: later) = .ok fin →
      beaconRun P B params (past' ++ block' :: later') = .ok fin' →
      ∃ s, fin.state = some s ∧ fin'.state = some s ∧ s.epoch = epoch) ∧
    ∀ (blocks : List BeaconBlock) (chain : BeaconChain), beaconRun P B params blocks = .ok chain →
      ∀ epoch, let inputs := chain.view.epochInputs epoch
        (inputs.commits.map (·.1)).Nodup ∧ (inputs.validReveals.map (·.1)).Nodup ∧
        (∀ r ∈ inputs.validReveals, r.1 ∈ inputs.commits.map (·.1)) ∧
        ((inputs.validReveals.map (·.1)).map (chain.view.stakeOf epoch)).sum ≤
          ((inputs.commits.map (·.1)).map (chain.view.stakeOf epoch)).sum ∧
        (∀ bond ∈ inputs.commits.map (·.1), ∃ block ∈ blocks, ∃ commit record,
          AcceptedCommit P B block commit record ∧ commit.epoch = epoch ∧
          commit.bondOutpoint = bond ∧
          chain.view.commitmentOf epoch bond = some commit.commitment ∧
          chain.view.stakeOf epoch bond = record.amount) ∧
        ∀ (more : List BeaconBlock) (chain' : BeaconChain),
          beaconRun P B params (blocks ++ more) = .ok chain' →
          ∀ bond ∈ inputs.commits.map (·.1),
            bond ∈ (chain'.view.epochInputs epoch).commits.map (·.1) →
            chain'.view.commitmentOf epoch bond = chain.view.commitmentOf epoch bond ∧
              chain'.view.stakeOf epoch bond = chain.view.stakeOf epoch bond := by
  constructor
  · intro past past' later later' block block' chain chain' fin fin' epoch hpast hpast' hview hstate
      hdns hepoch hepoch' hfin hfin'
    obtain ⟨c, hc, hblock⟩ := foldlM_append_eq_ok.mp hfin
    obtain ⟨c', hc', hblock'⟩ := foldlM_append_eq_ok.mp hfin'
    obtain rfl : chain = c := Except.ok.inj (hpast.symm.trans hc)
    obtain rfl : chain' = c' := Except.ok.inj (hpast'.symm.trans hc')
    obtain ⟨first, hfirst, hlater⟩ := foldlM_cons_eq_ok.mp hblock
    obtain ⟨first', hfirst', hlater'⟩ := foldlM_cons_eq_ok.mp hblock'
    obtain ⟨s, hs, hstate₁, -⟩ := commit_eq_ok hfirst
    obtain ⟨s', hs', hstate₁', -⟩ := commit_eq_ok hfirst'
    have hhead := hepoch block mem_cons_self
    have hhead' := hepoch' block' mem_cons_self
    -- both first blocks derive from the same inputs
    have hsame : s = s' := by
      rw [derive_congr (hhead.trans hhead'.symm) hview hstate hdns, hs'] at hs
      exact (Except.ok.inj hs).symm
    subst hsame
    have hs_epoch : s.epoch = epoch := (derive_epoch hs).trans hhead
    refine ⟨s, ?_, ?_, hs_epoch⟩
    · exact state_of_same_epoch hstate₁
        (fun b hb => (hepoch b (mem_cons_of_mem _ hb)).trans hs_epoch.symm) hlater
    · exact state_of_same_epoch hstate₁'
        (fun b hb => (hepoch' b (mem_cons_of_mem _ hb)).trans hs_epoch.symm) hlater'
  · intro blocks chain hrun epoch
    have hinv := beaconInv_run hrun
    have hvalid := hinv.valid epoch
    refine ⟨hvalid.commits, hvalid.reveals, hvalid.committed,
      sum_revealed_le hvalid (chain.view.stakeOf epoch),
      fun bond hbond => stakeOf_frozen hinv hbond,
      fun more chain' hmore bond hbond hbond' => ?_⟩
    obtain ⟨c, hc, hrest⟩ := foldlM_append_eq_ok.mp hmore
    obtain rfl : chain = c := Except.ok.inj (hrun.symm.trans hc)
    rcases rowsKept_run hrest epoch with ⟨hempty, -⟩ | ⟨hcommits, -, hstakes⟩
    · have hnone : (chain'.view.epochInputs epoch).commits = [] := congrArg EpochRows.commits hempty
      rw [hnone] at hbond'
      exact absurd hbond' (by simp)
    · rw [commitmentOf_eq, commitmentOf_eq, stakeOf_eq, stakeOf_eq,
        find?_of_prefix hcommits hbond, find?_of_prefix hstakes (hvalid.stakes ▸ hbond)]
      exact ⟨rfl, rfl⟩

def beaconPrimitives : PalwPrimitives :=
  { samplePalwPrimitives with
    decodeBeaconCommit := fun
      | [epoch, bond, hi, lo, signer] => some ⟨1, epoch.toNat, ⟨bond.toNat, 0⟩, sampleWord hi lo,
        List.replicate STAKE_ATTESTATION_SIG_LEN signer⟩
      | _ => none
    decodeBeaconReveal := fun
      | [epoch, bond, secret, signer] => some ⟨1, epoch.toNat, ⟨bond.toNat, 0⟩,
        List.replicate 64 secret, List.replicate STAKE_ATTESTATION_SIG_LEN signer⟩
      | _ => none }

def sampleCommitment : Hash64 :=
  beaconPrimitives.blake2b512Keyed PALW_BEACON_COMMIT_DOMAIN
    (PalwBeaconRevealV1.opening ⟨1, 2, ⟨1, 0⟩, List.replicate 64 9, []⟩)

def beaconCommitTx : Transaction :=
  sampleOverlayTx 1 (.fromByte 0x35) ([2, 1] ++ sampleWordBytes sampleCommitment ++ [7])

def beaconRevealTx : Transaction := sampleOverlayTx 2 (.fromByte 0x36) [2, 1, 9, 7]
def laterCommitTx : Transaction := sampleOverlayTx 3 (.fromByte 0x35) [4, 1, 0, 5, 7]

def beaconBodies : BeaconProcessor where
  blockTransactions := fun block =>
    if block = 1 then some [beaconCommitTx] else if block = 2 then some [beaconRevealTx]
    else if block = 3 then some [laterCommitTx] else none
  palwEpochLengthDaa := 100
  palwNetworkId := 1

def beaconBondView : ActiveBondView where
  bonds := (∅ : Table _ _).insert ⟨1, 0⟩
    { (default : StakeBondRecord) with
      bondOutpoint := ⟨1, 0⟩
      validatorPubkeyHash := 7
      validatorPubkey := List.replicate STAKE_VALIDATOR_PUBKEY_LEN 7
      amount := 100 }

def beaconBlock (daaScore : ℕ) (bodies : List BlockHash) : BeaconBlock where
  daaScore := daaScore
  bondView := beaconBondView
  acceptanceData := bodies.map fun body => ⟨body, [(body, 0)]⟩
  dnsConfirmation := (some ⟨5, 1, 1, 1⟩, true)

/-- A commit in epoch 0, its reveal in epoch 1, then an epoch 2 whose first block accepts nothing on
one chain and another commit on the other. -/
theorem beacon_seed_fixed_before_epoch_opened :
    ∃ chain fin fin' s,
      beaconRun beaconPrimitives beaconBodies ⟨1, 2, 3⟩ [beaconBlock 50 [1], beaconBlock 150 [2]] =
        .ok chain ∧
      (chain.view.epochInputs 2).validReveals.length = 1 ∧
      (((chain.view.epochInputs 2).validReveals.map (·.1)).map (chain.view.stakeOf 2)).sum ≤ 100 ∧
      beaconRun beaconPrimitives beaconBodies ⟨1, 2, 3⟩
        ([beaconBlock 50 [1], beaconBlock 150 [2]] ++ beaconBlock 250 [] :: []) = .ok fin ∧
      beaconRun beaconPrimitives beaconBodies ⟨1, 2, 3⟩
        ([beaconBlock 50 [1], beaconBlock 150 [2]] ++ beaconBlock 260 [3] :: [beaconBlock 270 []]) =
          .ok fin' ∧
      fin.state = some s ∧ fin'.state = some s ∧ s.mode = 0 := by
  obtain ⟨chain, hchain, hreveals, hstakes⟩ : ∃ chain, beaconRun beaconPrimitives beaconBodies
      ⟨1, 2, 3⟩ [beaconBlock 50 [1], beaconBlock 150 [2]] = .ok chain ∧
      (chain.view.epochInputs 2).validReveals.length = 1 ∧
      ((chain.view.epochInputs 2).commits.map (·.1)).map (chain.view.stakeOf 2) = [100] := by
    decide +kernel
  obtain ⟨fin, hfin, hmode⟩ : ∃ fin, beaconRun beaconPrimitives beaconBodies ⟨1, 2, 3⟩
      ([beaconBlock 50 [1], beaconBlock 150 [2]] ++ beaconBlock 250 [] :: []) = .ok fin ∧
      fin.state.map (·.mode) = some 0 := by
    decide +kernel
  obtain ⟨fin', hfin'⟩ : ∃ fin', beaconRun beaconPrimitives beaconBodies ⟨1, 2, 3⟩
      ([beaconBlock 50 [1], beaconBlock 150 [2]] ++ beaconBlock 260 [3] :: [beaconBlock 270 []]) =
        .ok fin' := by
    decide +kernel
  obtain ⟨hseed, hrows⟩ := beacon_seed_fixed_before_epoch beaconPrimitives beaconBodies ⟨1, 2, 3⟩
  obtain ⟨s, hs, hs', -⟩ := hseed _ _ [] [beaconBlock 270 []] (beaconBlock 250 [])
    (beaconBlock 260 [3]) chain chain fin fin' 2 hchain hchain rfl rfl rfl (by decide) (by decide)
    hfin hfin'
  obtain ⟨-, -, -, hle, -⟩ := hrows _ chain hchain 2
  rw [hstakes] at hle
  refine ⟨chain, fin, fin', s, hchain, hreveals, hle, hfin, hfin', hs, hs', ?_⟩
  rw [hs] at hmode
  exact Option.some.inj hmode

end Misaka.Palw
