import Mathlib.Algebra.Order.BigOperators.Group.List
import Misaka.Core.SortBy
import Misaka.Palw.HashTree

/-!
# Bond-weighted assignment

The snapshot builder and the dispatch evidence of `consensus/core/src/palw.rs`. The providers are
sorted by id and their bonds laid end to end; a draw falls into one of the intervals. The entries
and the intervals are the leaves of two trees, and evidence opens one leaf of each.
-/

namespace Misaka.Palw

open Misaka.Core Dns List

def PALW_PCPB_DOMAIN : Bytes := domain "misaka-palw-pcpb-v1"
def PALW_SNAPSHOT_LEAF_DOMAIN : Bytes := domain "misaka-palw-pcpb-snapshot-leaf-v1"
def PALW_SNAPSHOT_NODE_DOMAIN : Bytes := domain "misaka-palw-pcpb-snapshot-node-v1"
def PALW_ASSIGNMENT_LEAF_DOMAIN : Bytes := domain "misaka-palw-pcpb-assign-leaf-v1"
def PALW_ASSIGNMENT_NODE_DOMAIN : Bytes := domain "misaka-palw-pcpb-assign-node-v1"
def PALW_ASSIGNMENT_DRAW_DOMAIN : Bytes := domain "misaka-palw-pcpb-assign-draw-v1"
def PALW_PROVIDER_PK_HASH_DOMAIN : Bytes := domain "misaka-palw-pcpb-provider-pk-v1"
def PALW_PCPB_RECEIPT_MLDSA87_CONTEXT : Bytes := domain "PALWPcpbReceiptV1"
def PALW_PCPB_RECEIPT_TAG : Bytes := domain "misaka-palw-pcpb-receipt-binds-a-commit-v1"

/-! ## Evidence -/

structure PalwMerkleMembership where
  index : ℕ
  leaf : Hash64
  siblings : List Hash64
  deriving DecidableEq

structure PalwProviderSnapshotEntry where
  providerId : Hash64
  mlDsaPkHash : Hash64
  bondSompi : ℕ
  rewardScriptCommitment : Hash64
  deriving DecidableEq

structure PalwAssignmentInterval where
  providerId : Hash64
  bondSompi : ℕ
  cumulativeLo : ℕ
  deriving DecidableEq

structure SlotAssignmentWitness where
  entry : PalwProviderSnapshotEntry
  snapshotMembership : PalwMerkleMembership
  interval : PalwAssignmentInterval
  assignmentMembership : PalwMerkleMembership
  deriving DecidableEq

/-- `slot` holds the four fields of the drawn partner. -/
structure SelfSerialProof where
  aCommit : Hash64
  slot : SlotAssignmentWitness
  bMlDsaPk : Bytes
  bReceiptPreimage : Bytes
  bSignature : Bytes

inductive PalwDispatchEvidence where
  | beaconAssigned (slotA slotB : SlotAssignmentWitness)
  | selfSerial (proof : SelfSerialProof)

variable (P : PalwPrimitives) {leaf : Hash64}

def PalwMerkleMembership.verifies (m : PalwMerkleMembership) (root expectedLeaf : Hash64)
    (nodeDomain : Bytes) : Bool :=
  m.leaf == expectedLeaf && ascend (pairNode P nodeDomain) m.siblings m.index m.leaf == root

def entryMessage (e : PalwProviderSnapshotEntry) : Bytes × Bytes :=
  (PALW_SNAPSHOT_LEAF_DOMAIN, hash64Bytes e.providerId ++ (hash64Bytes e.mlDsaPkHash ++
    (leBytes 8 e.bondSompi ++ hash64Bytes e.rewardScriptCommitment)))

def palwSnapshotEntryHash (e : PalwProviderSnapshotEntry) : Hash64 := P.digest (entryMessage e)

def intervalMessage (iv : PalwAssignmentInterval) : Bytes × Bytes :=
  (PALW_ASSIGNMENT_LEAF_DOMAIN,
    hash64Bytes iv.providerId ++ (leBytes 8 iv.bondSompi ++ leBytes 16 iv.cumulativeLo))

def palwAssignmentIntervalHash (iv : PalwAssignmentInterval) : Hash64 :=
  P.digest (intervalMessage iv)

def palwProviderPkHash (mlDsaPk : Bytes) : Hash64 :=
  P.digest (PALW_PROVIDER_PK_HASH_DOMAIN, mlDsaPk)

def palwReceiptEmbedsACommit (preimage : Bytes) (aCommit : Hash64) : Bool :=
  let tag := PALW_PCPB_RECEIPT_TAG
  let need := tag.length + 64
  need ≤ preimage.length && preimage.take tag.length == tag &&
    (preimage.take need).drop tag.length == hash64Bytes aCommit

def reduceHashToBond (h : Hash64) (totalBond : ℕ) : ℕ :=
  leNat ((hash64Bytes h).take 16) % max totalBond 1

def palwAssignmentDrawSeed (beacon : Hash64) (slotIndex : ℕ) : Hash64 :=
  P.digest (PALW_ASSIGNMENT_DRAW_DOMAIN, hash64Bytes beacon ++ leBytes 1 slotIndex)

def palwPcpbDeriveB (postCommitBeacon aCommit : Hash64) : Hash64 :=
  P.digest (PALW_PCPB_DOMAIN, hash64Bytes postCommitBeacon ++ hash64Bytes aCommit)

/-- Half open, with a saturated end. -/
def intervalContains (iv : PalwAssignmentInterval) (ticket : ℕ) : Bool :=
  iv.cumulativeLo ≤ ticket && ticket < min (iv.cumulativeLo + iv.bondSompi) U128_MAX

/-- The drawn interval and its entry are in the trees. -/
def slotWitnessValid (w : SlotAssignmentWitness) (snapshotRoot assignmentRoot : Hash64)
    (totalBond : ℕ) (drawSeed : Hash64) : Bool :=
  let ticket := reduceHashToBond drawSeed totalBond
  w.entry.providerId == w.interval.providerId && w.entry.bondSompi == w.interval.bondSompi &&
    w.snapshotMembership.verifies P snapshotRoot (palwSnapshotEntryHash P w.entry)
      PALW_SNAPSHOT_NODE_DOMAIN &&
    w.assignmentMembership.verifies P assignmentRoot (palwAssignmentIntervalHash P w.interval)
      PALW_ASSIGNMENT_NODE_DOMAIN &&
    intervalContains w.interval ticket

def palwDispatchEvidenceValid (ev : PalwDispatchEvidence)
    (resolvedSnapshotRoot resolvedAssignmentRoot : Hash64) (resolvedTotalBond : ℕ)
    (postCommitBeacon leafSnapshotRoot leafAssignmentRoot leafACommit : Hash64)
    (verify : Bytes → Bytes → Bytes → Bytes → Bool) : Bool :=
  if leafSnapshotRoot ≠ resolvedSnapshotRoot ∨ leafAssignmentRoot ≠ resolvedAssignmentRoot then
    false
  else if resolvedTotalBond = 0 then false
  else
    match ev with
    | .beaconAssigned slotA slotB =>
      slotWitnessValid P slotA resolvedSnapshotRoot resolvedAssignmentRoot resolvedTotalBond
          (palwAssignmentDrawSeed P postCommitBeacon 0) &&
        slotWitnessValid P slotB resolvedSnapshotRoot resolvedAssignmentRoot resolvedTotalBond
          (palwAssignmentDrawSeed P postCommitBeacon 1) &&
        slotA.entry.providerId != slotB.entry.providerId
    | .selfSerial proof =>
      if proof.aCommit ≠ leafACommit then false
      else
        slotWitnessValid P proof.slot resolvedSnapshotRoot resolvedAssignmentRoot resolvedTotalBond
            (palwPcpbDeriveB P postCommitBeacon proof.aCommit) &&
          palwProviderPkHash P proof.bMlDsaPk == proof.slot.entry.mlDsaPkHash &&
          palwReceiptEmbedsACommit proof.bReceiptPreimage proof.aCommit &&
          verify proof.bMlDsaPk proof.bReceiptPreimage PALW_PCPB_RECEIPT_MLDSA87_CONTEXT
            proof.bSignature

/-! ## The builder -/

structure PalwSnapshotCommitment where
  snapshotRoot : Hash64
  assignmentRoot : Hash64
  totalBond : ℕ
  providerCount : ℕ
  deriving DecidableEq

structure PalwSnapshotWitnessSet where
  commitment : PalwSnapshotCommitment
  slots : List SlotAssignmentWitness
  deriving DecidableEq

def PalwSnapshotWitnessSet.select (set : PalwSnapshotWitnessSet) (seed : Hash64) : Option ℕ :=
  if set.commitment.totalBond = 0 then none
  else set.slots.findIdx? fun s =>
    intervalContains s.interval (reduceHashToBond seed set.commitment.totalBond)

def palwPcpbMerkleLevels (leaves : List Hash64) (nodeDomain : Bytes) : List (List Hash64) :=
  paddedLevels (pairNode P nodeDomain) leaves.length leaves

def palwPcpbMerkleMembership (levels : List (List Hash64)) (index : ℕ) : PalwMerkleMembership :=
  ⟨index % 2 ^ 32, (levels.headD []).getD index default, paddedSiblings levels index⟩

def keptEntries (entries : List PalwProviderSnapshotEntry) : List PalwProviderSnapshotEntry :=
  sortBy (·.providerId) (entries.filter (0 < ·.bondSompi))

def intervalsFrom : ℕ → List PalwProviderSnapshotEntry → List PalwAssignmentInterval
  | _, [] => []
  | cum, e :: rest => ⟨e.providerId, e.bondSompi, cum⟩ :: intervalsFrom (cum + e.bondSompi) rest

/-- The bonds of entries together; a sum of `u64` values in `u128`. -/
def totalBondOf (entries : List PalwProviderSnapshotEntry) : ℕ := (entries.map (·.bondSompi)).sum

def snapshotLevels (kept : List PalwProviderSnapshotEntry) : List (List Hash64) :=
  palwPcpbMerkleLevels P (kept.map (palwSnapshotEntryHash P)) PALW_SNAPSHOT_NODE_DOMAIN

def assignmentLevels (kept : List PalwProviderSnapshotEntry) : List (List Hash64) :=
  palwPcpbMerkleLevels P ((intervalsFrom 0 kept).map (palwAssignmentIntervalHash P))
    PALW_ASSIGNMENT_NODE_DOMAIN

/-- The trees over the kept entries, with a path for each. -/
def palwBuildSnapshotWitnesses (entries : List PalwProviderSnapshotEntry) :
    PalwSnapshotWitnessSet :=
  let kept := keptEntries entries
  if kept = [] then ⟨⟨0, 0, 0, 0⟩, []⟩
  else
    { commitment :=
        { snapshotRoot := topOf (snapshotLevels P kept)
          assignmentRoot := topOf (assignmentLevels P kept)
          totalBond := totalBondOf kept
          providerCount := kept.length % 2 ^ 32 }
      slots := (kept.zip (intervalsFrom 0 kept)).zipIdx.map fun slot =>
        { entry := slot.1.1
          snapshotMembership := palwPcpbMerkleMembership (snapshotLevels P kept) slot.2
          interval := slot.1.2
          assignmentMembership := palwPcpbMerkleMembership (assignmentLevels P kept) slot.2 } }

/-! ## Intervals -/

variable {iv iv' : PalwAssignmentInterval} {e : PalwProviderSnapshotEntry} {dom : Bytes}
  {leaves : List Hash64}

section Intervals

variable {kept : List PalwProviderSnapshotEntry} {cum ticket i : ℕ}

@[simp] theorem length_intervalsFrom : (intervalsFrom cum kept).length = kept.length := by
  induction kept generalizing cum with
  | nil => rfl
  | cons e rest ih => rw [intervalsFrom, length_cons, ih, length_cons]

theorem totalBondOf_cons (e : PalwProviderSnapshotEntry) (rest : List PalwProviderSnapshotEntry) :
    totalBondOf (e :: rest) = e.bondSompi + totalBondOf rest := by
  rw [totalBondOf, map_cons, sum_cons, totalBondOf]

theorem getElem?_intervalsFrom {iv : PalwAssignmentInterval}
    (hiv : (intervalsFrom cum kept)[i]? = some iv) :
    ∃ e, kept[i]? = some e ∧ iv.providerId = e.providerId ∧ iv.bondSompi = e.bondSompi ∧
      cum ≤ iv.cumulativeLo ∧ iv.cumulativeLo + iv.bondSompi ≤ cum + totalBondOf kept := by
  induction kept generalizing cum i with
  | nil => cases hiv
  | cons e rest ih =>
    rw [intervalsFrom] at hiv
    rw [totalBondOf_cons]
    match i, hiv with
    | 0, hiv =>
      cases hiv
      exact ⟨e, rfl, rfl, rfl, Nat.le_refl _, by dsimp only; omega⟩
    | i + 1, hiv =>
      obtain ⟨e', he', hid, hbond, hlo, hhi⟩ := ih hiv
      exact ⟨e', he', hid, hbond, by omega, by omega⟩

theorem exists_unique_interval (hlo : cum ≤ ticket) (hhi : ticket < cum + totalBondOf kept) :
    ∃ i iv, (intervalsFrom cum kept)[i]? = some iv ∧
      (iv.cumulativeLo ≤ ticket ∧ ticket < iv.cumulativeLo + iv.bondSompi) ∧
      ∀ (j : ℕ) (iv' : PalwAssignmentInterval), (intervalsFrom cum kept)[j]? = some iv' →
        iv'.cumulativeLo ≤ ticket ∧ ticket < iv'.cumulativeLo + iv'.bondSompi → j = i := by
  induction kept generalizing cum with
  | nil =>
    rw [totalBondOf, map_nil, sum_nil] at hhi
    omega
  | cons e rest ih =>
    rw [totalBondOf_cons] at hhi
    by_cases hfirst : ticket < cum + e.bondSompi
    · refine ⟨0, ⟨e.providerId, e.bondSompi, cum⟩, rfl, ⟨hlo, hfirst⟩, fun j iv' hj hin => ?_⟩
      match j, hj with
      | 0, _ => rfl
      | j + 1, hj =>
        -- a later interval begins at the end of the first or above
        obtain ⟨-, -, -, -, hlater, -⟩ := @getElem?_intervalsFrom rest _ j iv' hj
        omega
    · obtain ⟨i, iv, hi, hin, hunique⟩ := ih (by omega : cum + e.bondSompi ≤ ticket) (by omega)
      refine ⟨i + 1, iv, hi, hin, fun j iv' hj hin' => ?_⟩
      match j, hj with
      | 0, hj =>
        cases hj
        exact absurd hin'.2 hfirst
      | j + 1, hj => rw [hunique j iv' hj hin']

theorem interval_unique {j : ℕ} (hi : (intervalsFrom cum kept)[i]? = some iv)
    (hin : iv.cumulativeLo ≤ ticket ∧ ticket < iv.cumulativeLo + iv.bondSompi)
    (hj : (intervalsFrom cum kept)[j]? = some iv')
    (hin' : iv'.cumulativeLo ≤ ticket ∧ ticket < iv'.cumulativeLo + iv'.bondSompi) : j = i := by
  obtain ⟨-, -, -, -, hlo, hhi⟩ := getElem?_intervalsFrom hi
  obtain ⟨k, -, -, -, hunique⟩ := exists_unique_interval (hlo.trans hin.1) (hin.2.trans_le hhi)
  rw [hunique i iv hi hin, hunique j iv' hj hin']

end Intervals

/-! ## What is accepted -/

structure PalwProviderSnapshotEntry.Sized (e : PalwProviderSnapshotEntry) : Prop where
  hashes : e.providerId < 256 ^ 64 ∧ e.mlDsaPkHash < 256 ^ 64 ∧ e.rewardScriptCommitment < 256 ^ 64
  bond : e.bondSompi < 256 ^ 8

structure PalwAssignmentInterval.Sized (iv : PalwAssignmentInterval) : Prop where
  providerId : iv.providerId < 256 ^ 64
  bond : iv.bondSompi < 256 ^ 8
  lo : iv.cumulativeLo < 256 ^ 16

structure SlotAssignmentWitness.Sized (w : SlotAssignmentWitness) : Prop where
  entry : w.entry.Sized
  interval : w.interval.Sized
  snapshot : ∀ s ∈ w.snapshotMembership.siblings, s < 256 ^ 64
  assignment : ∀ s ∈ w.assignmentMembership.siblings, s < 256 ^ 64

def PalwSnapshotWitnessSet.entryOpening (set : PalwSnapshotWitnessSet) (w : SlotAssignmentWitness) :
    List (Bytes × Bytes) :=
  openingMessages P PALW_SNAPSHOT_NODE_DOMAIN ((set.slots.map (·.entry)).map entryMessage)
    (entryMessage w.entry) w.snapshotMembership.siblings w.snapshotMembership.index

def PalwSnapshotWitnessSet.intervalOpening (set : PalwSnapshotWitnessSet)
    (w : SlotAssignmentWitness) : List (Bytes × Bytes) :=
  openingMessages P PALW_ASSIGNMENT_NODE_DOMAIN ((set.slots.map (·.interval)).map intervalMessage)
    (intervalMessage w.interval) w.assignmentMembership.siblings w.assignmentMembership.index

theorem entryMessage_inj {e' : PalwProviderSnapshotEntry} (he : e.Sized) (he' : e'.Sized)
    (h : entryMessage e = entryMessage e') : e = e' := by
  obtain ⟨hid, h⟩ := selfDelimiting_hash64Bytes he.hashes.1 he'.hashes.1 (Prod.mk.inj h).2
  obtain ⟨hpk, h⟩ := selfDelimiting_hash64Bytes he.hashes.2.1 he'.hashes.2.1 h
  obtain ⟨hbond, h⟩ := selfDelimiting_leBytes 8 he.bond he'.bond h
  have hreward := hash64Bytes_inj he.hashes.2.2 he'.hashes.2.2 h
  cases e
  cases e'
  simp_all

theorem entryMessage_domain (e : PalwProviderSnapshotEntry) :
    (entryMessage e).1 ≠ PALW_SNAPSHOT_NODE_DOMAIN :=
  (by decide : PALW_SNAPSHOT_LEAF_DOMAIN ≠ PALW_SNAPSHOT_NODE_DOMAIN)

theorem intervalMessage_domain (iv : PalwAssignmentInterval) :
    (intervalMessage iv).1 ≠ PALW_ASSIGNMENT_NODE_DOMAIN :=
  (by decide : PALW_ASSIGNMENT_LEAF_DOMAIN ≠ PALW_ASSIGNMENT_NODE_DOMAIN)

theorem intervalMessage_inj (h : iv.Sized) (h' : iv'.Sized)
    (hmessage : intervalMessage iv = intervalMessage iv') : iv = iv' := by
  obtain ⟨hid, hrest⟩ :=
    selfDelimiting_hash64Bytes h.providerId h'.providerId (Prod.mk.inj hmessage).2
  obtain ⟨hbond, hrest⟩ := selfDelimiting_leBytes 8 h.bond h'.bond hrest
  have hlo := leBytes_inj h.lo h'.lo hrest
  cases iv
  cases iv'
  simp_all

def PalwSnapshotWitnessSet.ticket (set : PalwSnapshotWitnessSet) (seed : Hash64) : ℕ :=
  reduceHashToBond seed set.commitment.totalBond

/-- `slot_witness_valid` against the commitment of a set. -/
def PalwSnapshotWitnessSet.accepts (set : PalwSnapshotWitnessSet) (w : SlotAssignmentWitness)
    (seed : Hash64) : Bool :=
  slotWitnessValid P w set.commitment.snapshotRoot set.commitment.assignmentRoot
    set.commitment.totalBond seed

def PalwSnapshotWitnessSet.Partitions (set : PalwSnapshotWitnessSet) : Prop :=
  (∀ s ∈ set.slots,
    s.interval.cumulativeLo + s.interval.bondSompi ≤ set.commitment.totalBond) ∧
  ∀ ticket < set.commitment.totalBond, ∃! i : ℕ, ∃ s, set.slots[i]? = some s ∧
    s.interval.cumulativeLo ≤ ticket ∧ ticket < s.interval.cumulativeLo + s.interval.bondSompi

def PalwSnapshotWitnessSet.Complete (set : PalwSnapshotWitnessSet) : Prop :=
  ∀ seed, set.commitment.totalBond ≠ 0 →
    ∃ i s, set.select seed = some i ∧ set.slots[i]? = some s ∧ set.accepts P s seed = true

/-- A valid witness, of the set or not, carries the selected interval and an entry of its
provider. -/
def PalwSnapshotWitnessSet.Sound (set : PalwSnapshotWitnessSet) : Prop :=
  ∀ seed (w : SlotAssignmentWitness), set.commitment.totalBond ≠ 0 → w.Sized →
    NoCollision P (set.entryOpening P w) → NoCollision P (set.intervalOpening P w) →
    set.accepts P w seed = true →
    ∃ i s, set.select seed = some i ∧ set.slots[i]? = some s ∧ w.interval = s.interval ∧
      w.entry.providerId = s.entry.providerId ∧ w.entry ∈ set.slots.map (·.entry)

structure PalwSnapshotWitnessSet.Covers (set : PalwSnapshotWitnessSet)
    (kept : List PalwProviderSnapshotEntry) : Prop where
  entries : set.slots.map (·.entry) = kept
  intervals : set.slots.map (·.interval) = intervalsFrom 0 kept
  memberships : ∀ (i : ℕ) s, set.slots[i]? = some s →
    s.snapshotMembership = palwPcpbMerkleMembership (snapshotLevels P kept) i ∧
      s.assignmentMembership = palwPcpbMerkleMembership (assignmentLevels P kept) i
  roots : kept ≠ [] → set.commitment.snapshotRoot = topOf (snapshotLevels P kept) ∧
    set.commitment.assignmentRoot = topOf (assignmentLevels P kept)
  totalBond : set.commitment.totalBond = totalBondOf kept

variable {P} {set : PalwSnapshotWitnessSet} {kept : List PalwProviderSnapshotEntry} {i : ℕ}
  {s w : SlotAssignmentWitness} {seed : Hash64}

theorem verifies_iff {m : PalwMerkleMembership} {root : Hash64} :
    m.verifies P root leaf dom = true ↔
      m.leaf = leaf ∧ ascend (pairNode P dom) m.siblings m.index m.leaf = root := by
  rw [PalwMerkleMembership.verifies, Bool.and_eq_true, beq_iff_eq, beq_iff_eq]

theorem accepts_iff : set.accepts P w seed = true ↔
    (w.entry.providerId = w.interval.providerId ∧ w.entry.bondSompi = w.interval.bondSompi) ∧
    w.snapshotMembership.verifies P set.commitment.snapshotRoot (palwSnapshotEntryHash P w.entry)
      PALW_SNAPSHOT_NODE_DOMAIN = true ∧
    w.assignmentMembership.verifies P set.commitment.assignmentRoot
      (palwAssignmentIntervalHash P w.interval) PALW_ASSIGNMENT_NODE_DOMAIN = true ∧
    intervalContains w.interval (set.ticket seed) = true := by
  simp only [PalwSnapshotWitnessSet.accepts, PalwSnapshotWitnessSet.ticket, slotWitnessValid,
    Bool.and_eq_true, beq_iff_eq, and_assoc]

theorem leaf_membership (hleaf : leaves[i]? = some leaf) :
    (palwPcpbMerkleMembership (palwPcpbMerkleLevels P leaves dom) i).leaf = leaf := by
  obtain ⟨rest, hlevels⟩ := paddedLevels_eq_cons (pairNode P dom) leaves.length leaves
  rw [palwPcpbMerkleMembership, palwPcpbMerkleLevels, hlevels, headD_cons,
    getD_eq_getElem?_getD, hleaf, Option.getD_some]

theorem verifies_membership (hleaf : leaves[i]? = some leaf) (hi : i < 2 ^ 32) :
    (palwPcpbMerkleMembership (palwPcpbMerkleLevels P leaves dom) i).verifies P
      (topOf (palwPcpbMerkleLevels P leaves dom)) leaf dom = true := by
  refine verifies_iff.mpr ⟨leaf_membership hleaf, ?_⟩
  rw [leaf_membership hleaf, palwPcpbMerkleMembership]
  dsimp only
  rw [Nat.mod_eq_of_lt hi]
  exact ascend_paddedSiblings (Nat.le_refl _) hleaf

namespace PalwSnapshotWitnessSet.Covers

variable (h : set.Covers P kept)
include h

theorem of_slot (hslot : set.slots[i]? = some s) :
    kept[i]? = some s.entry ∧ (intervalsFrom 0 kept)[i]? = some s.interval := by
  rw [← h.intervals, ← h.entries, List.getElem?_map, List.getElem?_map, hslot]
  exact ⟨rfl, rfl⟩

theorem exists_slot (hiv : (intervalsFrom 0 kept)[i]? = some iv) :
    ∃ s, set.slots[i]? = some s ∧ s.interval = iv := by
  rw [← h.intervals, List.getElem?_map] at hiv
  exact Option.map_eq_some_iff.mp hiv

theorem same_provider (hslot : set.slots[i]? = some s) :
    s.entry.providerId = s.interval.providerId ∧ s.entry.bondSompi = s.interval.bondSompi := by
  obtain ⟨he, hiv⟩ := h.of_slot hslot
  obtain ⟨e, he', hid, hbond, -⟩ := getElem?_intervalsFrom hiv
  obtain rfl := Option.some.inj (he.symm.trans he')
  exact ⟨hid.symm, hbond.symm⟩

theorem ne_nil (htotal : set.commitment.totalBond ≠ 0) : kept ≠ [] := by
  rintro rfl
  exact htotal h.totalBond

theorem ticket_lt (htotal : set.commitment.totalBond ≠ 0) :
    set.ticket seed < 0 + totalBondOf kept := by
  have hpos := pos_of_ne_zero htotal
  rw [ticket, reduceHashToBond, max_eq_left hpos, Nat.zero_add, ← h.totalBond]
  exact Nat.mod_lt _ hpos

theorem partitions : set.Partitions := by
  rw [Partitions, h.totalBond]
  constructor
  · intro s hs
    obtain ⟨i, hi⟩ := mem_iff_getElem?.mp hs
    obtain ⟨-, -, -, -, -, hhi⟩ := getElem?_intervalsFrom (h.of_slot hi).2
    rwa [Nat.zero_add] at hhi
  · intro ticket hticket
    obtain ⟨i, iv, hiv, hin, -⟩ :=
      exists_unique_interval (Nat.zero_le ticket) (hticket.trans_eq (Nat.zero_add _).symm)
    obtain ⟨s, hslot, rfl⟩ := h.exists_slot hiv
    refine ⟨i, ⟨s, hslot, hin⟩, ?_⟩
    rintro j ⟨s', hslot', hin'⟩
    exact interval_unique hiv hin (h.of_slot hslot').2 hin'

theorem accepts_slot (hslot : set.slots[i]? = some s) (hi : i < 2 ^ 32)
    (hin : intervalContains s.interval (set.ticket seed) = true) : set.accepts P s seed = true := by
  obtain ⟨he, hiv⟩ := h.of_slot hslot
  obtain ⟨hsnapshot, hassignment⟩ := h.memberships i s hslot
  obtain ⟨hroot, hroot'⟩ := h.roots (ne_nil_of_mem (mem_of_getElem? he))
  refine accepts_iff.mpr ⟨h.same_provider hslot, ?_, ?_, hin⟩
  · rw [hsnapshot, hroot]
    exact verifies_membership (by rw [List.getElem?_map, he]; rfl) hi
  · rw [hassignment, hroot']
    exact verifies_membership (by rw [List.getElem?_map, hiv]; rfl) hi

section Sized

variable (hsized : ∀ e ∈ kept, e.Sized) (hmax : totalBondOf kept ≤ U128_MAX)
include hsized hmax

omit h in
theorem interval_sized (hiv : (intervalsFrom 0 kept)[i]? = some iv) : iv.Sized ∧
      ∀ ticket, intervalContains iv ticket = true ↔
        iv.cumulativeLo ≤ ticket ∧ ticket < iv.cumulativeLo + iv.bondSompi := by
  obtain ⟨e, he, hid, hbond, -, hhi⟩ := getElem?_intervalsFrom hiv
  have hesized := hsized e (mem_of_getElem? he)
  have hwidth : U128_MAX < 256 ^ 16 := by decide
  refine ⟨⟨hid ▸ hesized.hashes.1, hbond ▸ hesized.bond, by omega⟩, fun ticket => ?_⟩
  rw [intervalContains, min_eq_left (by omega), Bool.and_eq_true, decide_eq_true_eq,
    decide_eq_true_eq]

theorem select_eq_some (hslot : set.slots[i]? = some s) (htotal : set.commitment.totalBond ≠ 0)
    (hin : intervalContains s.interval (set.ticket seed) = true) : set.select seed = some i := by
  have hiv := (h.of_slot hslot).2
  have hticket := ((interval_sized hsized hmax hiv).2 _).mp hin
  rw [select, if_neg htotal, List.findIdx?_eq_some_iff_getElem]
  obtain ⟨hlt, hget⟩ := List.getElem?_eq_some_iff.mp hslot
  refine ⟨hlt, by rw [hget]; exact hin, fun k hk hin' => ?_⟩
  have hiv' := (h.of_slot (List.getElem?_eq_getElem (hk.trans hlt))).2
  have hsame := interval_unique hiv hticket hiv' (((interval_sized hsized hmax hiv').2 _).mp hin')
  omega

theorem exists_select (htotal : set.commitment.totalBond ≠ 0) :
    ∃ i s, set.select seed = some i ∧ set.slots[i]? = some s ∧
      intervalContains s.interval (set.ticket seed) = true := by
  obtain ⟨i, iv, hiv, hin, -⟩ :=
    exists_unique_interval (Nat.zero_le _) (@ticket_lt _ _ _ seed h htotal)
  obtain ⟨s, hslot, rfl⟩ := h.exists_slot hiv
  have hcontains := ((interval_sized hsized hmax hiv).2 _).mpr hin
  exact ⟨i, s, h.select_eq_some hsized hmax hslot htotal hcontains, hslot, hcontains⟩

theorem sound : set.Sound P := by
  intro seed w htotal hw hentry hinterval hvalid
  have hne := h.ne_nil htotal
  obtain ⟨hroot, hroot'⟩ := h.roots hne
  obtain ⟨⟨hid, -⟩, hsnapshot, hassignment, hin⟩ := accepts_iff.mp hvalid
  obtain ⟨hleaf, htop⟩ := verifies_iff.mp hsnapshot
  obtain ⟨hleaf', htop'⟩ := verifies_iff.mp hassignment
  rw [hleaf, hroot] at htop
  rw [hleaf', hroot'] at htop'
  rw [entryOpening, h.entries] at hentry
  rw [intervalOpening, h.intervals] at hinterval
  rw [h.entries]
  -- both openings end at leaves of the trees
  have hleafEntry : entryMessage w.entry ∈ kept.map entryMessage := by
    refine hentry.mem_of_ascend_eq_topOf (fun m hm => ?_) (entryMessage_domain _) hw.snapshot
      (by simpa using hne) (by rw [map_map]; exact htop)
    obtain ⟨e, -, rfl⟩ := mem_map.mp hm
    exact entryMessage_domain e
  have hleafInterval : intervalMessage w.interval ∈ (intervalsFrom 0 kept).map intervalMessage := by
    refine hinterval.mem_of_ascend_eq_topOf (fun m hm => ?_) (intervalMessage_domain _)
      hw.assignment ?_ (by rw [map_map]; exact htop')
    · obtain ⟨iv, -, rfl⟩ := mem_map.mp hm
      exact intervalMessage_domain iv
    · rw [← length_pos_iff, length_map, length_intervalsFrom]
      exact length_pos_of_ne_nil hne
  obtain ⟨e, he, heq⟩ := mem_map.mp hleafEntry
  obtain rfl := entryMessage_inj (hsized e he) hw.entry heq
  obtain ⟨iv, hiv, hiveq⟩ := mem_map.mp hleafInterval
  obtain ⟨i, hi⟩ := mem_iff_getElem?.mp hiv
  obtain rfl := intervalMessage_inj (interval_sized hsized hmax hi).1 hw.interval hiveq
  obtain ⟨s, hslot, hsame⟩ := h.exists_slot hi
  rw [← hsame] at hid hin ⊢
  exact ⟨i, s, h.select_eq_some hsized hmax hslot htotal hin, hslot, rfl,
    hid.trans (h.same_provider hslot).1.symm, he⟩

theorem not_accepts_truncated {k : ℕ} (hk : 2 ^ k % 2 ^ 32 = 0)
    (hslot : set.slots[2 ^ k]? = some s) (hbond : 0 < s.interval.bondSompi)
    (hinterval : NoCollision P (set.intervalOpening P s)) : ¬ set.accepts P s seed = true := by
  intro hvalid
  obtain ⟨he, hiv⟩ := h.of_slot hslot
  have hassignment := (h.memberships _ s hslot).2
  obtain ⟨-, -, hverifies, -⟩ := accepts_iff.mp hvalid
  obtain ⟨hleaf, htop⟩ := verifies_iff.mp hverifies
  rw [hleaf, (h.roots (ne_nil_of_mem (mem_of_getElem? he))).2] at htop
  rw [intervalOpening, h.intervals] at hinterval
  have hindex : s.assignmentMembership.index = 0 := by rw [hassignment]; exact hk
  have hsibs : s.assignmentMembership.siblings =
      paddedSiblings (assignmentLevels P kept) (2 ^ k) := by rw [hassignment]; rfl
  rw [hindex] at hinterval htop
  -- the first interval would be this one
  have hfirst := NoCollision.getElem?_zero_of_ascend_zero (k := k)
    (by rw [List.getElem?_map, hiv]; rfl)
    (by rw [map_map]; exact hsibs) hinterval (by rw [map_map]; exact htop)
  rw [List.getElem?_map] at hfirst
  obtain ⟨iv, hiv0, hmessage⟩ := Option.map_eq_some_iff.mp hfirst
  obtain rfl := intervalMessage_inj (interval_sized hsized hmax hiv0).1
    (interval_sized hsized hmax hiv).1 hmessage
  have hin : s.interval.cumulativeLo ≤ s.interval.cumulativeLo ∧
      s.interval.cumulativeLo < s.interval.cumulativeLo + s.interval.bondSompi :=
    ⟨Nat.le_refl _, by omega⟩
  exact (Nat.two_pow_pos k).ne' (interval_unique hiv0 hin hiv hin)

end Sized

end PalwSnapshotWitnessSet.Covers

/-! ## The order of the listing -/

section Built

variable {entries : List PalwProviderSnapshotEntry}

theorem mem_keptEntries : e ∈ keptEntries entries ↔ e ∈ entries ∧ 0 < e.bondSompi := by
  rw [keptEntries, (sortBy_perm _ _).mem_iff, mem_filter, decide_eq_true_eq]

theorem keptEntries_of_sorted (h : entries.Pairwise fun e e' => e.providerId ≤ e'.providerId) :
    keptEntries entries = entries.filter (0 < ·.bondSompi) :=
  sortBy_of_pairwise (h.filter _)

theorem totalBondOf_keptEntries_le (hsized : ∀ e ∈ entries, e.Sized)
    (hlength : entries.length < 2 ^ 64) : totalBondOf (keptEntries entries) ≤ U128_MAX := by
  have hcount : (keptEntries entries).length ≤ 2 ^ 64 := by
    rw [keptEntries, (sortBy_perm _ _).length_eq]
    exact (length_filter_le _ _).trans hlength.le
  have hsum := sum_le_card_nsmul ((keptEntries entries).map (·.bondSompi)) (2 ^ 64 - 1)
    fun b hb => by
      obtain ⟨e, he, rfl⟩ := mem_map.mp hb
      exact Nat.le_sub_one_of_lt (hsized e (mem_keptEntries.mp he).1).bond
  rw [length_map, Nat.nsmul_eq_mul] at hsum
  calc totalBondOf (keptEntries entries)
      ≤ (keptEntries entries).length * (2 ^ 64 - 1) := hsum
    _ ≤ 2 ^ 64 * (2 ^ 64 - 1) := Nat.mul_le_mul_right _ hcount
    _ ≤ U128_MAX := by decide

theorem map_slots {β : Type*} {g : SlotAssignmentWitness → β}
    (f : PalwProviderSnapshotEntry × PalwAssignmentInterval → β)
    (hg : ∀ s, g s = f (s.entry, s.interval)) :
    (palwBuildSnapshotWitnesses P entries).slots.map g =
      ((keptEntries entries).zip (intervalsFrom 0 (keptEntries entries))).map f := by
  unfold palwBuildSnapshotWitnesses
  dsimp only
  split
  · next hnil => rw [hnil, zip_nil_left, map_nil, map_nil]
  · rw [map_map]
    calc _ = (((keptEntries entries).zip (intervalsFrom 0 (keptEntries entries))).zipIdx).map
          (f ∘ Prod.fst) := map_congr_left fun slot _ => hg _
      _ = _ := by rw [← map_map, zipIdx_map_fst]

theorem covers_build : (palwBuildSnapshotWitnesses P entries).Covers P (keptEntries entries) where
  entries := by rw [map_slots Prod.fst fun _ => rfl, map_fst_zip (by simp)]
  intervals := by rw [map_slots Prod.snd fun _ => rfl, map_snd_zip (by simp)]
  memberships := by
    intro i s hslot
    unfold palwBuildSnapshotWitnesses at hslot
    dsimp only at hslot
    split at hslot
    · cases hslot
    · rw [List.getElem?_map, List.getElem?_zipIdx, Option.map_map] at hslot
      obtain ⟨slot, -, rfl⟩ := Option.map_eq_some_iff.mp hslot
      simp
  roots := by
    intro hne
    simp only [palwBuildSnapshotWitnesses, if_neg hne, and_self]
  totalBond := by
    unfold palwBuildSnapshotWitnesses
    dsimp only
    split
    · next hnil => rw [hnil, totalBondOf, map_nil, sum_nil]
    · rfl

theorem build_perm_iff : (∀ entries', entries'.Perm entries →
      palwBuildSnapshotWitnesses P entries' = palwBuildSnapshotWitnesses P entries) ↔
    ∀ e ∈ keptEntries entries, ∀ e' ∈ keptEntries entries,
      e.providerId = e'.providerId → e = e' := by
  constructor
  · intro hperm e he e' he' hid
    by_contra hne
    obtain ⟨he, hpos⟩ := mem_keptEntries.mp he
    obtain ⟨he', hpos'⟩ := mem_keptEntries.mp he'
    -- list the two first, in either order
    obtain ⟨rest, hrest⟩ : ∃ rest, (e :: e' :: rest).Perm entries :=
      ⟨_, (((perm_cons_erase
        ((mem_erase_of_ne (Ne.symm hne)).mpr he')).cons e).symm.trans
          (perm_cons_erase he).symm)⟩
    have hsame : palwBuildSnapshotWitnesses P (e :: e' :: rest) =
        palwBuildSnapshotWitnesses P (e' :: e :: rest) :=
      (hperm _ hrest).trans (hperm _ ((List.Perm.swap e e' rest).trans hrest)).symm
    have hkept := congrArg (fun set => set.slots.map (·.entry)) hsame
    simp only [covers_build.entries] at hkept
    have hfilter := congrArg (List.filter (·.providerId = e.providerId)) hkept
    simp only [keptEntries, filter_sortBy, hpos, hpos', decide_true, filter_cons_of_pos, hid]
      at hfilter
    exact hne (List.cons.inj hfilter).1
  · intro hinj entries' hperm
    have hkept : keptEntries entries' = keptEntries entries := by
      refine sortBy_eq_of_perm (hperm.filter _) fun e he e' he' hid => ?_
      have hmem : ∀ {a}, a ∈ entries'.filter (0 < ·.bondSompi) → a ∈ keptEntries entries :=
        fun ha => (sortBy_perm _ _).mem_iff.mpr ((hperm.filter _).mem_iff.mp ha)
      exact hinj e (hmem he) e' (hmem he') hid
    unfold palwBuildSnapshotWitnesses
    rw [hkept]

/-! ## Sound and complete -/

theorem exists_reduceHashToBond {ticket total : ℕ} (hticket : ticket < total)
    (htotal : total ≤ U128_MAX) : ∃ seed, reduceHashToBond seed total = ticket := by
  have hwidth : ticket < 256 ^ 16 := (hticket.trans_le htotal).trans (by decide)
  have hlength : (leBytes 16 ticket ++ List.replicate 48 0).reverse.length = 64 := by simp
  refine ⟨leNat (leBytes 16 ticket ++ List.replicate 48 0).reverse, ?_⟩
  rw [reduceHashToBond, hash64Bytes_eq_reverse, ← hlength, leBytes_leNat, reverse_reverse,
    take_left' (length_leBytes 16 ticket), leNat_leBytes hwidth, max_eq_left (by omega),
    Nat.mod_eq_of_lt hticket]

def PalwDispatchEvidence.draws (P : PalwPrimitives) (postCommitBeacon : Hash64) :
    PalwDispatchEvidence → List (SlotAssignmentWitness × Hash64)
  | .beaconAssigned slotA slotB => [(slotA, palwAssignmentDrawSeed P postCommitBeacon 0),
      (slotB, palwAssignmentDrawSeed P postCommitBeacon 1)]
  | .selfSerial proof => [(proof.slot, palwPcpbDeriveB P postCommitBeacon proof.aCommit)]

def PalwDispatchEvidence.Bound (P : PalwPrimitives) (leafACommit : Hash64)
    (verify : Bytes → Bytes → Bytes → Bytes → Bool) : PalwDispatchEvidence → Prop
  | .beaconAssigned slotA slotB => slotA.entry.providerId ≠ slotB.entry.providerId
  | .selfSerial proof => proof.aCommit = leafACommit ∧
      palwProviderPkHash P proof.bMlDsaPk = proof.slot.entry.mlDsaPkHash ∧
      palwReceiptEmbedsACommit proof.bReceiptPreimage proof.aCommit = true ∧
      verify proof.bMlDsaPk proof.bReceiptPreimage PALW_PCPB_RECEIPT_MLDSA87_CONTEXT
        proof.bSignature = true

/-- Evidence against a set's commitment is accepted exactly if its draws are and it is bound. -/
def PalwSnapshotWitnessSet.ReadsDraws (P : PalwPrimitives) (set : PalwSnapshotWitnessSet) : Prop :=
  ∀ ev postCommitBeacon leafACommit verify,
    palwDispatchEvidenceValid P ev set.commitment.snapshotRoot set.commitment.assignmentRoot
        set.commitment.totalBond postCommitBeacon set.commitment.snapshotRoot
        set.commitment.assignmentRoot leafACommit verify = true ↔
      set.commitment.totalBond ≠ 0 ∧
      (∀ draw ∈ ev.draws P postCommitBeacon, set.accepts P draw.1 draw.2 = true) ∧
      ev.Bound P leafACommit verify

/-- The witnesses of a set divide the draws among the providers, and each draw accepts the provider
it selects and no other. -/
structure PalwSnapshotWitnessSet.Exact (P : PalwPrimitives) (set : PalwSnapshotWitnessSet) :
    Prop where
  partition : set.Partitions
  evidence : set.ReadsDraws P
  complete : set.Complete P
  sound : set.Sound P

theorem readsDraws (set : PalwSnapshotWitnessSet) : set.ReadsDraws P := by
  intro ev postCommitBeacon leafACommit verify
  by_cases htotal : set.commitment.totalBond = 0
  · simp [palwDispatchEvidenceValid, htotal]
  cases ev with
  | beaconAssigned slotA slotB =>
    simp [palwDispatchEvidenceValid, htotal, PalwDispatchEvidence.draws,
      PalwDispatchEvidence.Bound, PalwSnapshotWitnessSet.accepts, and_assoc]
  | selfSerial proof =>
    by_cases hcommit : proof.aCommit = leafACommit
    · simp [palwDispatchEvidenceValid, htotal, PalwDispatchEvidence.draws,
        PalwDispatchEvidence.Bound, PalwSnapshotWitnessSet.accepts, hcommit, and_assoc]
    · simp [palwDispatchEvidenceValid, htotal, PalwDispatchEvidence.Bound, hcommit]

theorem length_le_of_complete (h : set.Covers P kept) (hsized : ∀ e ∈ kept, e.Sized)
    (hmax : totalBondOf kept ≤ U128_MAX) (hpos : ∀ e ∈ kept, 0 < e.bondSompi)
    (hnone : ∀ s ∈ set.slots, NoCollision P (set.intervalOpening P s))
    (hcomplete : set.Complete P) : kept.length ≤ 2 ^ 32 := by
  by_contra hmany
  obtain ⟨iv, hiv⟩ : ∃ iv, (intervalsFrom 0 kept)[2 ^ 32]? = some iv :=
    ⟨_, List.getElem?_eq_getElem (by rw [length_intervalsFrom]; omega)⟩
  obtain ⟨e, he, -, hbond, -, hhi⟩ := getElem?_intervalsFrom hiv
  have hbondPos := hpos e (mem_of_getElem? he)
  have htotal := h.totalBond
  -- the seed that draws the first ticket of the interval
  obtain ⟨seed, hseed⟩ := @exists_reduceHashToBond iv.cumulativeLo set.commitment.totalBond
    (by omega) (htotal ▸ hmax)
  obtain ⟨i, s, -, hslot, hvalid⟩ := hcomplete seed (by omega)
  obtain ⟨-, -, -, hin⟩ := accepts_iff.mp hvalid
  have hiv' := (h.of_slot hslot).2
  rw [PalwSnapshotWitnessSet.ticket, hseed,
    (PalwSnapshotWitnessSet.Covers.interval_sized hsized hmax hiv').2] at hin
  obtain rfl := interval_unique hiv ⟨Nat.le_refl _, by omega⟩ hiv' hin
  exact h.not_accepts_truncated hsized hmax (Nat.mod_self _) hslot (by omega)
    (hnone s (mem_of_getElem? hslot)) hvalid

/-- Assignment is sound and complete and independent of the listing exactly if the entries with a
bond differ in their ids and their positions fit the index of a membership. -/
theorem palwBuildSnapshotWitnesses_exact_iff (hsized : ∀ e ∈ entries, e.Sized)
    (hlength : entries.length < 2 ^ 64)
    (hnone : ∀ s ∈ (palwBuildSnapshotWitnesses P entries).slots,
      NoCollision P ((palwBuildSnapshotWitnesses P entries).intervalOpening P s)) :
    ((palwBuildSnapshotWitnesses P entries).Exact P ∧
      ∀ entries', entries'.Perm entries →
        palwBuildSnapshotWitnesses P entries' = palwBuildSnapshotWitnesses P entries) ↔
    (∀ e ∈ keptEntries entries, ∀ e' ∈ keptEntries entries,
      e.providerId = e'.providerId → e = e') ∧ (keptEntries entries).length ≤ 2 ^ 32 := by
  have h := @covers_build P entries
  have hkept : ∀ e ∈ keptEntries entries, e.Sized := fun e he => hsized e (mem_keptEntries.mp he).1
  have hmax := totalBondOf_keptEntries_le hsized hlength
  rw [build_perm_iff]
  constructor
  · rintro ⟨hexact, hids⟩
    exact ⟨hids, length_le_of_complete h hkept hmax (fun e he => (mem_keptEntries.mp he).2) hnone
      hexact.complete⟩
  · rintro ⟨hids, hfits⟩
    refine ⟨⟨h.partitions, readsDraws _, fun seed htotal => ?_,
      h.sound hkept hmax⟩, hids⟩
    obtain ⟨i, s, hselect, hslot, hin⟩ :=
      @PalwSnapshotWitnessSet.Covers.exists_select _ _ _ seed h hkept hmax htotal
    have hi := (List.getElem?_eq_some_iff.mp (h.of_slot hslot).1).1
    exact ⟨i, s, hselect, hslot, h.accepts_slot hslot (by omega) hin⟩

end Built

def sampleSnapshotEntry (providerId : Hash64) (bond : ℕ) : PalwProviderSnapshotEntry :=
  ⟨providerId, 5, bond, 9⟩

theorem sampleSnapshotEntry_sized {providerId : Hash64} {bond : ℕ} (hid : providerId < 256 ^ 64)
    (hbond : bond < 256 ^ 8) : (sampleSnapshotEntry providerId bond).Sized :=
  ⟨⟨hid, (by decide : 5 < 256 ^ 64), (by decide : 9 < 256 ^ 64)⟩, hbond⟩

/-- Two providers with a bond and one without. -/
theorem palwBuildSnapshotWitnesses_exact_three :
    (palwBuildSnapshotWitnesses samplePalwPrimitives
      [sampleSnapshotEntry 1 0, sampleSnapshotEntry 1 6, sampleSnapshotEntry 3 4]).Exact
        samplePalwPrimitives := by
  have hkept : keptEntries [sampleSnapshotEntry 1 0, sampleSnapshotEntry 1 6,
      sampleSnapshotEntry 3 4] = [sampleSnapshotEntry 1 6, sampleSnapshotEntry 3 4] :=
    keptEntries_of_sorted (by decide)
  refine ((palwBuildSnapshotWitnesses_exact_iff ?_ (by decide) fun s hs =>
    ⟨samplePalwPrimitives_sized, ?_⟩).mpr ?_).1
  · simp only [forall_mem_cons, not_mem_nil, false_imp_iff, implies_true, and_true]
    exact ⟨sampleSnapshotEntry_sized (by decide) (by decide),
      sampleSnapshotEntry_sized (by decide) (by decide),
      sampleSnapshotEntry_sized (by decide) (by decide)⟩
  · revert s
    simp only [palwBuildSnapshotWitnesses, hkept]
    decide +kernel
  · rw [hkept]
    decide

/-- One provider with two bonds: the listing decides which bond the first tickets draw, and the
roots with it. -/
theorem palwBuildSnapshotWitnesses_follows_listing :
    let listed := [sampleSnapshotEntry 1 4, sampleSnapshotEntry 1 6]
    let turned := [sampleSnapshotEntry 1 6, sampleSnapshotEntry 1 4]
    let set := palwBuildSnapshotWitnesses samplePalwPrimitives listed
    let set' := palwBuildSnapshotWitnesses samplePalwPrimitives turned
    turned.Perm listed ∧ set.commitment.snapshotRoot ≠ set'.commitment.snapshotRoot ∧
      set.commitment.assignmentRoot ≠ set'.commitment.assignmentRoot ∧ set.slots ≠ set'.slots ∧
      set.select (5 * 256 ^ 63) = some 1 ∧ set'.select (5 * 256 ^ 63) = some 0 := by
  have hlisted : keptEntries [sampleSnapshotEntry 1 4, sampleSnapshotEntry 1 6] =
      [sampleSnapshotEntry 1 4, sampleSnapshotEntry 1 6] := keptEntries_of_sorted (by decide)
  have hturned : keptEntries [sampleSnapshotEntry 1 6, sampleSnapshotEntry 1 4] =
      [sampleSnapshotEntry 1 6, sampleSnapshotEntry 1 4] := keptEntries_of_sorted (by decide)
  refine ⟨List.Perm.swap _ _ _, ?_⟩
  simp only [palwBuildSnapshotWitnesses, hlisted, hturned]
  decide +kernel

end Misaka.Palw
