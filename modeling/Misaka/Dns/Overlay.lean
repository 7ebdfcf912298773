import Misaka.Core.SortBy
import Misaka.Dns.BondView
import Misaka.Dns.Mutations

/-!
# The overlay snapshot and its commitment

`OverlaySnapshot` gathers the bond rows, the reserve balance and the window of per-block reward
contributions as of one block. Its commitment is a keyed hash of the borsh encoding of the snapshot
sorted into a canonical order, so neither the order of a hash map nor a cached status shows in it.
-/

namespace Misaka.Dns

open Misaka.Core List Table

structure BlockOverlayContribution where
  blockHash : BlockHash
  blockDaaScore : ℕ
  rewardedKeys : List (TransactionOutpoint × ℕ)
  qualitySubpool : ℕ
  deriving DecidableEq, Repr, Inhabited

structure OverlaySnapshot where
  bonds : List StakeBondRecord
  reserveBalance : ℕ
  window : List BlockOverlayContribution
  deriving DecidableEq, Repr, Inhabited

def outpointKey (o : TransactionOutpoint) : ℕ ×ₗ ℕ := toLex (o.transactionId, o.index)

theorem outpointKey_injective : Function.Injective outpointKey := by
  rintro ⟨t, i⟩ ⟨t', i'⟩ h
  obtain ⟨rfl, rfl⟩ := Prod.mk.inj (toLex.injective h)
  rfl

def OverlaySnapshot.canonicalize (s : OverlaySnapshot) : OverlaySnapshot where
  bonds := sortBy (fun b => outpointKey b.bondOutpoint) s.bonds
  reserveBalance := s.reserveBalance
  window := sortBy (·.blockHash) (s.window.map fun c =>
    { c with
      rewardedKeys := sortBy (fun k => toLex (outpointKey k.1, k.2)) c.rewardedKeys })

def borshBytes (b : Bytes) : Bytes := leBytes 4 b.length ++ b

def borshOption (f : ℕ → Bytes) : Option ℕ → Bytes
  | none => [0]
  | some n => 1 :: f n

def borshVec {α : Type} (f : α → Bytes) (l : List α) : Bytes := leBytes 4 l.length ++ l.flatMap f

def borshOutpoint (o : TransactionOutpoint) : Bytes :=
  hash64Bytes o.transactionId ++ leBytes 4 o.index

def borshBondStatus : BondStatus → Bytes
  | .pending => [0]
  | .active => [1]
  | .unbonding => [2]
  | .slashed => [3]
  | .dormant => [4]

def borshStakeBondRecord (r : StakeBondRecord) : Bytes :=
  leBytes 2 r.version ++ borshOutpoint r.bondOutpoint ++ hash64Bytes r.ownerPubkeyHash ++
    hash64Bytes r.validatorPubkeyHash ++ borshBytes r.validatorPubkey ++ leBytes 8 r.amount ++
    leBytes 8 r.activationDaaScore ++ leBytes 8 r.createdDaaScore ++
    leBytes 8 r.unbondingPeriodBlocks ++ hash64Bytes r.ownerRewardSpkPayload ++
    borshOption (leBytes 8) r.unbondRequestDaaScore ++
    borshOption (leBytes 8) r.slashedAtDaaScore ++ borshBondStatus r.status ++
    borshOption (leBytes 8) r.lastAttestedEpoch ++ borshOption (leBytes 8) r.dormantAtDaaScore ++
    borshOption (leBytes 8) r.dormantAtEpoch

def borshContribution (c : BlockOverlayContribution) : Bytes :=
  hash64Bytes c.blockHash ++ leBytes 8 c.blockDaaScore ++
    borshVec (fun k => borshOutpoint k.1 ++ leBytes 8 k.2) c.rewardedKeys ++
    leBytes 8 c.qualitySubpool

def OverlaySnapshot.commitmentPreimage (s : OverlaySnapshot) : Bytes :=
  let canonical := s.canonicalize
  borshVec borshStakeBondRecord canonical.bonds ++ leBytes 8 canonical.reserveBalance ++
    borshVec borshContribution canonical.window

def MISAKA_OVERLAY_COMMITMENT_CONTEXT : Bytes := domain "OverlayCommit64"

variable (P : Primitives)

def OverlaySnapshot.commitmentRoot (s : OverlaySnapshot) : Hash64 :=
  P.blake2b512Keyed MISAKA_OVERLAY_COMMITMENT_CONTEXT s.commitmentPreimage

/-- The snapshot `compute_overlay_snapshot` builds from a listing of the bonds: every status is
the effective one at the anchor. -/
def overlaySnapshotOf (records : List StakeBondRecord) (anchorDaa reserveBalance : ℕ)
    (window : List BlockOverlayContribution) : OverlaySnapshot where
  bonds := records.map (·.withStatusAt anchorDaa)
  reserveBalance := reserveBalance
  window := window

def BondRegistry.WellKeyed (r : BondRegistry) : Prop :=
  ∀ o rec, r.lookup o = some rec → rec.bondOutpoint = o

variable {r r' : BondRegistry}

theorem BondRegistry.WellKeyed.eq_of_bondOutpoint_eq (hr : r.WellKeyed) {a b : StakeBondRecord}
    (ha : a ∈ Table.values r) (hb : b ∈ Table.values r) (h : a.bondOutpoint = b.bondOutpoint) :
    a = b := by
  obtain ⟨⟨o, a'⟩, ha', rfl⟩ := Multiset.mem_map.mp ha
  obtain ⟨⟨o', b'⟩, hb', rfl⟩ := Multiset.mem_map.mp hb
  have hla := Finmap.lookup_eq_some_iff.mpr ha'
  have hlb := Finmap.lookup_eq_some_iff.mpr hb'
  obtain rfl : o = o' := (hr o a' hla).symm.trans (h.trans (hr o' b' hlb))
  exact Option.some.inj (hla.symm.trans hlb)

theorem canonicalize_bonds_eq {l l' : List StakeBondRecord} {anchorDaa : ℕ} (hkeyed : r.WellKeyed)
    (hrows : canonicalRows r anchorDaa =
      canonicalRows r' anchorDaa) (hl : (⟨r⟩ : ActiveBondView).Lists l)
    (hl' : (⟨r'⟩ : ActiveBondView).Lists l') :
    sortBy (fun b => outpointKey b.bondOutpoint) (l.map (·.withStatusAt anchorDaa)) =
      sortBy (fun b => outpointKey b.bondOutpoint) (l'.map (·.withStatusAt anchorDaa)) := by
  have hmap {q : BondRegistry} {k : List StakeBondRecord} (hk : (⟨q⟩ : ActiveBondView).Lists k) :
      ((k.map (·.withStatusAt anchorDaa) : List _) : Multiset StakeBondRecord) =
        (canonicalRows q anchorDaa).values := by
    rw [canonicalRows, values_mapVal, ← Multiset.map_coe, hk]
  apply sortBy_eq_of_perm
  · rw [← Multiset.coe_eq_coe, hmap hl, hmap hl', hrows]
  · intro a ha b hb hab
    obtain ⟨a', ha', rfl⟩ := mem_map.mp ha
    obtain ⟨b', hb', rfl⟩ := mem_map.mp hb
    have hmem {c : StakeBondRecord} (hc : c ∈ l) : c ∈ Table.values r := by
      rwa [← hl]
    rw [hkeyed.eq_of_bondOutpoint_eq (hmem ha') (hmem hb') (outpointKey_injective hab)]

inductive WalkStep where
  | attach (b : AcceptedBlock)
  | detach (b : AcceptedBlock)
  | refresh (sinkDaaScore : ℕ)

variable (minBond unbondingFloor : ℕ)

def registryStep (r : BondRegistry) : WalkStep → Except RegistryError BondRegistry
  | .attach b => (reconcileDnsBondRegistry r [] [b.mutations P minBond unbondingFloor]).map Prod.fst
  | .detach b => (reconcileDnsBondRegistry r [b.mutations P minBond unbondingFloor] []).map Prod.fst
  | .refresh d => .ok (canonicalizeDnsBondStatuses r d).1

def viewStep (view : ActiveBondView) : WalkStep → ActiveBondView
  | .attach b => view.apply (b.mutations P minBond unbondingFloor).2
  | .detach b => view.revert (b.mutations P minBond unbondingFloor).2
  | .refresh _ => view

variable {P minBond unbondingFloor}

variable {b : MutationBlock} {m : BondMutation}

theorem reconcile_attach_eq_ok :
    (reconcileDnsBondRegistry r [] [b]).map Prod.fst = .ok r' ↔ attachBlock r b = .ok r' := by
  unfold reconcileDnsBondRegistry
  cases h : attachBlock r b <;>
    simp [foldlM_cons, h, bind, Except.bind, pure, Except.pure, Except.map]

theorem reconcile_detach_eq_ok :
    (reconcileDnsBondRegistry r [b] []).map Prod.fst = .ok r' ↔ detachBlock r b = .ok r' := by
  unfold reconcileDnsBondRegistry
  cases h : detachBlock r b <;>
    simp [foldlM_cons, h, bind, Except.bind, pure, Except.pure, Except.map]

theorem stamps_viewStep {view : ActiveBondView} {step : WalkStep}
    (hstamps : r.stamps = view.bonds.stamps)
    (h : registryStep P minBond unbondingFloor r step = .ok r') :
    r'.stamps = (viewStep P minBond unbondingFloor view step).bonds.stamps := by
  cases step with
  | attach b => exact apply_of_attachBlock hstamps (reconcile_attach_eq_ok.mp h)
  | detach b => exact revert_of_detachBlock hstamps (reconcile_detach_eq_ok.mp h)
  | refresh d =>
    cases h
    exact (stamps_canonicalRows r d).trans hstamps

theorem wellKeyed_of_stamps_eq (h : r.stamps = r'.stamps) (hr : r.WellKeyed) : r'.WellKeyed := by
  intro o rec ho
  obtain ⟨rec', hrec', hstamps⟩ := lookup_some_of_stamps_eq h.symm ho
  have hkey : rec'.stamps.bondOutpoint = rec.stamps.bondOutpoint := by rw [hstamps]
  exact hkey.symm.trans (hr o rec' hrec')

theorem wellKeyed_adjust (hr : r.WellKeyed) (o : TransactionOutpoint) (kind : StampKind)
    (v : Option ℕ) (d : ℕ) : BondRegistry.WellKeyed (r.adjust o (·.setStamp kind v d)) := by
  intro o' rec ho'
  rw [lookup_adjust_eq] at ho'
  split at ho'
  · next heq =>
    obtain ⟨rec', hrec', rfl⟩ := Option.map_eq_some_iff.mp ho'
    rw [bondOutpoint_setStamp, heq]
    exact hr o rec' hrec'
  · exact hr o' rec ho'

theorem wellKeyed_applyOne (hm : m.WellKeyed) (hr : r.WellKeyed) :
    BondRegistry.WellKeyed (ActiveBondView.applyOne r m) := by
  cases m with
  | insert o rec =>
    intro o' rec' ho'
    rw [ActiveBondView.applyOne, lookup_insert_eq] at ho'
    split at ho'
    · next heq =>
      cases ho'
      exact hm.trans heq.symm
    · exact hr o' rec' ho'
  | slash o d | unbond o d => exact wellKeyed_adjust hr o _ (some d) d

theorem wellKeyed_revertOne (hr : r.WellKeyed) :
    BondRegistry.WellKeyed (ActiveBondView.revertOne r m) := by
  cases m with
  | insert o rec =>
    intro o' rec' ho'
    rw [ActiveBondView.revertOne, lookup_erase_eq] at ho'
    split at ho'
    · cases ho'
    · exact hr o' rec' ho'
  | slash o d | unbond o d => exact wellKeyed_adjust hr o _ none d

theorem wellKeyed_registryStep {step : WalkStep} (hr : r.WellKeyed)
    (h : registryStep P minBond unbondingFloor r step = .ok r') : r'.WellKeyed := by
  cases step with
  | attach b =>
    refine foldlM_induction (I := BondRegistry.WellKeyed) ?_ hr (reconcile_attach_eq_ok.mp h)
    intro q m q' hm hq hq'
    exact eq_applyOne_of_applyMutation hq' ▸ wellKeyed_applyOne (wellKeyed_bondMutations P hm) hq
  | detach b =>
    refine foldlM_induction (I := BondRegistry.WellKeyed) ?_ hr (reconcile_detach_eq_ok.mp h)
    intro q m q' _ hq hq'
    exact eq_revertOne_of_revertMutation hq' ▸ wellKeyed_revertOne hq
  | refresh d =>
    cases h
    exact wellKeyed_of_stamps_eq (stamps_canonicalRows r d).symm hr

/-- The in-memory view refines the persisted registry: after any moves the registry goes through,
the two hold the same outpoints and, at every anchor, the same normalized rows, and snapshots built
from any listing of either have one commitment root. -/
theorem view_refines_registry {base registry : BondRegistry} {steps : List WalkStep}
    (hbase : base.WellKeyed)
    (hrun : steps.foldlM (registryStep P minBond unbondingFloor) base = .ok registry)
    (anchorDaa reserveBalance : ℕ) (window : List BlockOverlayContribution) :
    (steps.foldl (viewStep P minBond unbondingFloor) ⟨base⟩).bonds.keys = registry.keys ∧
    canonicalRows (steps.foldl (viewStep P minBond unbondingFloor) ⟨base⟩).bonds anchorDaa =
      canonicalRows registry anchorDaa ∧
    ∀ l l', (steps.foldl (viewStep P minBond unbondingFloor) ⟨base⟩).Lists l →
      (⟨registry⟩ : ActiveBondView).Lists l' →
      (overlaySnapshotOf l anchorDaa reserveBalance window).commitmentRoot P =
        (overlaySnapshotOf l' anchorDaa reserveBalance window).commitmentRoot P := by
  generalize hview : steps.foldl (viewStep P minBond unbondingFloor) ⟨base⟩ = view
  have hstamps : registry.stamps = view.bonds.stamps := by
    rw [← hview]
    refine foldlM_sim_foldl (R := fun r (v : ActiveBondView) => r.stamps = v.bonds.stamps)
      ?_ rfl hrun
    intro s t step s' hst hs
    exact stamps_viewStep hst hs
  have hkeyed : registry.WellKeyed := by
    refine foldlM_induction (I := BondRegistry.WellKeyed) ?_ hbase hrun
    intro q step q' _ hq hq'
    exact wellKeyed_registryStep hq hq'
  have hrows := canonicalRows_eq_of_stamps_eq hstamps anchorDaa
  refine ⟨?_, hrows.symm, ?_⟩
  · have hkeys := congrArg Finmap.keys hrows
    rw [canonicalRows, canonicalRows, keys_mapVal, keys_mapVal] at hkeys
    exact hkeys.symm
  · intro l l' hl hl'
    have hsort := canonicalize_bonds_eq hkeyed hrows hl' hl
    unfold OverlaySnapshot.commitmentRoot OverlaySnapshot.commitmentPreimage
      OverlaySnapshot.canonicalize overlaySnapshotOf
    rw [hsort]

theorem wellKeyed_empty : BondRegistry.WellKeyed ∅ := by
  intro o rec h
  rw [Finmap.lookup_empty] at h
  cases h

def sampleBondBlock : AcceptedBlock :=
  ⟨1, 5, [sampleOverlayTx 1 SUBNETWORK_ID_STAKE_BOND [7, 100]]⟩

def sampleSlashBlock : AcceptedBlock :=
  ⟨2, 6, [sampleOverlayTx 2 SUBNETWORK_ID_SLASHING_EVIDENCE [7, 7, 1, 5]]⟩

/-- A bond is created, slashed, and the slash is detached again after a refresh. -/
theorem view_refines_registry_detached_slash :
    ∃ registry,
      [.attach sampleBondBlock, .attach sampleSlashBlock, .refresh 9,
        .detach sampleSlashBlock].foldlM (registryStep samplePrimitives 0 0) ∅ = .ok registry ∧
      canonicalRows ([.attach sampleBondBlock, .attach sampleSlashBlock, .refresh 9,
        .detach sampleSlashBlock].foldl (viewStep samplePrimitives 0 0) ⟨∅⟩).bonds 20 =
        canonicalRows registry 20 :=
  ⟨_, rfl, (view_refines_registry wellKeyed_empty rfl 20 0 []).2.1⟩

end Misaka.Dns
