import Misaka.Palw.BeaconFold

/-!
# The beacon state of an epoch

`derive_beacon_epoch_state` of `consensus/core/src/palw.rs` and the hash chain of seeds that a
pruning proof carries. A Healthy epoch advances the seed over the anchor and the two roots of its
commits and reveals; any other epoch carries the seed.
-/

namespace Misaka.Palw

open Misaka.Core Dns List

def PALW_BEACON_DOMAIN : Bytes := domain "misaka-palw-beacon-v1"
def PALW_BEACON_REVEALS_ROOT_DOMAIN : Bytes := domain "misaka-palw-beacon-reveals-root-v1"
def PALW_BEACON_MISSING_ROOT_DOMAIN : Bytes := domain "misaka-palw-beacon-missing-root-v1"
def PALW_EPOCH_PROOF_BUNDLE_VERSION_V2 : ℕ := 2

inductive PalwBeaconMode where
  | healthy
  | degradedGrace
  | halted
  deriving DecidableEq, Repr

def PalwBeaconMode.toU8 : PalwBeaconMode → ℕ
  | .healthy => 0
  | .degradedGrace => 1
  | .halted => 2

def beaconMode (dnsHealthy quorumReached : Bool) (degradedEpochs graceEpochs : ℕ) :
    PalwBeaconMode :=
  if dnsHealthy && quorumReached then .healthy
  else if degradedEpochs ≤ graceEpochs then .degradedGrace
  else .halted

/-- `num / den` of the committed stake revealed. -/
def beaconQuorumReached (committed revealed : List TransactionOutpoint) (num den : ℕ)
    (stakeOf : TransactionOutpoint → ℕ) : Bool :=
  if den = 0 ∨ num = 0 then false
  else
    let committedStake := (committed.map stakeOf).sum
    if committedStake = 0 then false
    else
      let revealedStake := (revealed.map stakeOf).sum
      min (committedStake * num) U128_MAX ≤ min (revealedStake * den) U128_MAX

structure BeaconDnsAnchor where
  hash : Hash64
  blueScore : ℕ
  daaScore : ℕ
  overlayRoot : Hash64
  deriving DecidableEq, Repr

def BeaconDnsAnchor.UNCONFIRMED : BeaconDnsAnchor := ⟨0, 0, 0, 0⟩

def BeaconDnsAnchor.isConfirmed (anchor : BeaconDnsAnchor) : Bool := anchor.hash != 0

structure PalwBeaconStateV1 where
  version : ℕ
  epoch : ℕ
  seed : Hash64
  dnsAnchor : Hash64
  anchorBlueScore : ℕ
  anchorDaaScore : ℕ
  anchorOverlayRoot : Hash64
  validRevealsRoot : Hash64
  missingCommitmentsRoot : Hash64
  mode : ℕ
  degradedEpochs : ℕ
  validRevealCount : ℕ
  missingCommitCount : ℕ
  deriving DecidableEq, Repr

def PalwBeaconStateV1.anchor (s : PalwBeaconStateV1) : BeaconDnsAnchor :=
  ⟨s.dnsAnchor, s.anchorBlueScore, s.anchorDaaScore, s.anchorOverlayRoot⟩

structure BeaconEpochInputs where
  commits : List (TransactionOutpoint × Hash64) := []
  validReveals : List (TransactionOutpoint × Hash64) := []
  deriving DecidableEq, Repr

def BeaconEpochInputs.missingCommitments (inputs : BeaconEpochInputs) :
    List (TransactionOutpoint × Hash64) :=
  inputs.commits.filter fun c => !(inputs.validReveals.map (·.1)).contains c.1

variable (P : PalwPrimitives) {epochs : List BeaconEpoch} {after : List PalwBeaconStateV1}
  {cp : PalwBeaconCheckpointV1} {chain chain' : List PalwBeaconCheckpointV1}

def beaconBondDigestSetRoot (domain : Bytes) (entries : List (TransactionOutpoint × Hash64)) :
    Hash64 :=
  let sorted := entries.insertionSort fun a b => outpointKey a.1 ≤ outpointKey b.1
  P.blake2b512Keyed domain (leBytes 8 sorted.length ++
    sorted.flatMap fun e => hash64Bytes e.1.transactionId ++ leBytes 4 e.1.index ++
      hash64Bytes e.2)

def beaconValidRevealsRoot (entries : List (TransactionOutpoint × Hash64)) : Hash64 :=
  beaconBondDigestSetRoot P PALW_BEACON_REVEALS_ROOT_DOMAIN entries

def beaconMissingCommitmentsRoot (entries : List (TransactionOutpoint × Hash64)) : Hash64 :=
  beaconBondDigestSetRoot P PALW_BEACON_MISSING_ROOT_DOMAIN entries

def beaconSeedPreimage
    (prevSeed dnsFinalizedAnchor validRevealsRoot missingCommitmentsRoot : Hash64)
    (epoch : ℕ) : Bytes :=
  hash64Bytes prevSeed ++ (hash64Bytes dnsFinalizedAnchor ++ (hash64Bytes validRevealsRoot ++
    (hash64Bytes missingCommitmentsRoot ++ leBytes 8 epoch)))

def beaconSeed (prevSeed dnsFinalizedAnchor validRevealsRoot missingCommitmentsRoot : Hash64)
    (epoch : ℕ) : Hash64 :=
  P.blake2b512Keyed PALW_BEACON_DOMAIN
    (beaconSeedPreimage prevSeed dnsFinalizedAnchor validRevealsRoot missingCommitmentsRoot epoch)

structure BeaconParams where
  graceEpochs : ℕ
  quorumNum : ℕ
  quorumDen : ℕ
  deriving DecidableEq, Repr

/-- A healthy epoch mixes the seed; others carry it on. -/
def deriveBeaconEpochState (params : BeaconParams) (epoch : ℕ) (prevSeed : Hash64)
    (anchor : BeaconDnsAnchor) (inputs : BeaconEpochInputs) (dnsHealthy : Bool)
    (prevDegradedEpochs : ℕ) (stakeOf : TransactionOutpoint → ℕ) : PalwBeaconStateV1 :=
  let validRevealsRoot := beaconValidRevealsRoot P inputs.validReveals
  let missing := inputs.missingCommitments
  let missingCommitmentsRoot := beaconMissingCommitmentsRoot P missing
  let quorum := beaconQuorumReached (inputs.commits.map (·.1)) (inputs.validReveals.map (·.1))
    params.quorumNum params.quorumDen stakeOf
  let degradedEpochs := if dnsHealthy && quorum then 0 else saturatingAdd prevDegradedEpochs 1
  let mode := beaconMode dnsHealthy quorum degradedEpochs params.graceEpochs
  let seed := match mode with
    | .healthy => beaconSeed P prevSeed anchor.hash validRevealsRoot missingCommitmentsRoot epoch
    | .degradedGrace | .halted => prevSeed
  { version := 1
    epoch
    seed
    dnsAnchor := anchor.hash
    anchorBlueScore := anchor.blueScore
    anchorDaaScore := anchor.daaScore
    anchorOverlayRoot := anchor.overlayRoot
    validRevealsRoot
    missingCommitmentsRoot
    mode := mode.toU8
    degradedEpochs
    validRevealCount := inputs.validReveals.length % 2 ^ 32
    missingCommitCount := missing.length % 2 ^ 32 }

structure BeaconEpoch where
  anchor : BeaconDnsAnchor
  inputs : BeaconEpochInputs
  dnsHealthy : Bool
  stakeOf : TransactionOutpoint → ℕ

def deriveHistory (params : BeaconParams) : ℕ → Hash64 → ℕ → List BeaconEpoch →
    List PalwBeaconStateV1
  | _, _, _, [] => []
  | epoch, prevSeed, prevDegradedEpochs, e :: rest =>
    let state := deriveBeaconEpochState P params epoch prevSeed e.anchor e.inputs e.dnsHealthy
      prevDegradedEpochs e.stakeOf
    state :: deriveHistory params (epoch + 1) state.seed state.degradedEpochs rest

structure PalwBeaconCheckpointV1 where
  epoch : ℕ
  seed : Hash64
  dnsAnchor : Hash64
  anchorBlueScore : ℕ
  anchorDaaScore : ℕ
  anchorOverlayRoot : Hash64
  validRevealsRoot : Hash64
  missingCommitmentsRoot : Hash64
  mode : ℕ
  degradedEpochs : ℕ
  deriving DecidableEq, Repr

namespace PalwBeaconCheckpointV1

def fromState (s : PalwBeaconStateV1) : PalwBeaconCheckpointV1 where
  epoch := s.epoch
  seed := s.seed
  dnsAnchor := s.dnsAnchor
  anchorBlueScore := s.anchorBlueScore
  anchorDaaScore := s.anchorDaaScore
  anchorOverlayRoot := s.anchorOverlayRoot
  validRevealsRoot := s.validRevealsRoot
  missingCommitmentsRoot := s.missingCommitmentsRoot
  mode := s.mode
  degradedEpochs := s.degradedEpochs

def preimage (cp : PalwBeaconCheckpointV1) (prevSeed : Hash64) : Bytes :=
  beaconSeedPreimage prevSeed cp.dnsAnchor cp.validRevealsRoot cp.missingCommitmentsRoot cp.epoch

def seedFollows (cp : PalwBeaconCheckpointV1) (prevSeed : Hash64) : Bool :=
  cp.seed == beaconSeed P prevSeed cp.dnsAnchor cp.validRevealsRoot cp.missingCommitmentsRoot
    cp.epoch

def seedFacts (cp : PalwBeaconCheckpointV1) : ℕ × Hash64 × Hash64 × Hash64 :=
  (cp.epoch, cp.dnsAnchor, cp.validRevealsRoot, cp.missingCommitmentsRoot)

/-- The ranges of the field types: 64-byte hashes and a `u64` epoch. -/
structure WellTyped (cp : PalwBeaconCheckpointV1) : Prop where
  epoch : cp.epoch < 256 ^ 8
  seed : cp.seed < 256 ^ 64
  dnsAnchor : cp.dnsAnchor < 256 ^ 64
  validRevealsRoot : cp.validRevealsRoot < 256 ^ 64
  missingCommitmentsRoot : cp.missingCommitmentsRoot < 256 ^ 64

end PalwBeaconCheckpointV1

/-- `PalwEpochProofBundleV2`, with what the linkage reads. -/
structure PalwEpochProofBundleV2 where
  version : ℕ
  fromEpoch : ℕ
  toEpoch : ℕ
  beaconChain : List PalwBeaconCheckpointV1
  deriving DecidableEq, Repr

/-- The loop of `beacon_chain_links` at the epoch that comes next. -/
def linksFrom : ℕ → Hash64 → List PalwBeaconCheckpointV1 → Bool
  | _, _, [] => true
  | epoch, prev, cp :: rest =>
    if cp.epoch ≠ epoch ∨ !cp.seedFollows P prev then false
    else linksFrom (epoch + 1) cp.seed rest

def PalwEpochProofBundleV2.beaconChainLinks (bundle : PalwEpochProofBundleV2)
    (boundaryPrevSeed : Hash64) : Bool :=
  if bundle.version ≠ PALW_EPOCH_PROOF_BUNDLE_VERSION_V2 then false
  else if bundle.toEpoch < bundle.fromEpoch then false
  else if bundle.beaconChain.length ≠ bundle.toEpoch - bundle.fromEpoch + 1 then false
  else linksFrom P bundle.fromEpoch boundaryPrevSeed bundle.beaconChain

def bundleOf (fromEpoch : ℕ) (states : List PalwBeaconStateV1) : PalwEpochProofBundleV2 where
  version := PALW_EPOCH_PROOF_BUNDLE_VERSION_V2
  fromEpoch := fromEpoch
  toEpoch := fromEpoch + states.length - 1
  beaconChain := states.map .fromState

def seedAfter (startSeed : Hash64) (states : List PalwBeaconStateV1) : Hash64 :=
  (states.getLast?.map (·.seed)).getD startSeed

variable {P} {params : BeaconParams}

theorem toU8_eq_zero {mode : PalwBeaconMode} : mode.toU8 = 0 ↔ mode = .healthy := by
  cases mode <;> simp [PalwBeaconMode.toU8]

variable {epoch : ℕ} {seed prev : Hash64}

theorem seedFollows_of_healthy {prevSeed : Hash64} {anchor : BeaconDnsAnchor}
    {inputs : BeaconEpochInputs} {dnsHealthy : Bool} {prevDegraded : ℕ}
    {stakeOf : TransactionOutpoint → ℕ}
    (h : (deriveBeaconEpochState P params epoch prevSeed anchor inputs dnsHealthy prevDegraded
      stakeOf).mode = 0) :
    (PalwBeaconCheckpointV1.fromState (deriveBeaconEpochState P params epoch prevSeed anchor inputs
      dnsHealthy prevDegraded stakeOf)).seedFollows P prevSeed = true := by
  have hmode := toU8_eq_zero.mp h
  simp only [deriveBeaconEpochState, PalwBeaconCheckpointV1.fromState,
    PalwBeaconCheckpointV1.seedFollows, hmode, beq_self_eq_true]

theorem exists_deriveHistory_suffix {degraded : ℕ} {before : List PalwBeaconStateV1}
    (h : deriveHistory P params epoch seed degraded epochs = before ++ after) :
    ∃ degraded' rest, after = deriveHistory P params (epoch + before.length)
      (seedAfter seed before) degraded' rest := by
  induction before generalizing epoch seed degraded epochs with
  | nil => exact ⟨degraded, epochs, h.symm⟩
  | cons s before ih =>
    cases epochs with
    | nil => cases h
    | cons e rest =>
      rw [deriveHistory, cons_append, List.cons.injEq] at h
      obtain ⟨hs, hrest⟩ := h
      obtain ⟨degraded', rest', hafter⟩ := ih hrest
      refine ⟨degraded', rest', hafter.trans ?_⟩
      have hseed : seedAfter s.seed before = seedAfter seed (s :: before) := by
        cases before with
        | nil => rfl
        | cons b before => rw [seedAfter, seedAfter, List.getLast?_cons_cons,
            List.getLast?_eq_getLast_of_ne_nil (cons_ne_nil _ _), Option.map_some,
            Option.getD_some, Option.getD_some]
      rw [hs, hseed, length_cons, add_assoc, add_comm 1]

theorem linksFrom_deriveHistory {degraded : ℕ} {range : List PalwBeaconStateV1}
    (h : deriveHistory P params epoch seed degraded epochs = range ++ after)
    (hhealthy : ∀ s ∈ range, s.mode = 0) :
    linksFrom P epoch seed (range.map .fromState) = true := by
  induction range generalizing epoch seed degraded epochs with
  | nil => rfl
  | cons s range ih =>
    cases epochs with
    | nil => cases h
    | cons e rest =>
      rw [deriveHistory, cons_append, List.cons.injEq] at h
      obtain ⟨hs, hrest⟩ := h
      subst hs
      have hfollows := seedFollows_of_healthy (hhealthy _ mem_cons_self)
      rw [map_cons, linksFrom, if_neg]
      · exact ih hrest (forall_mem_cons.mp hhealthy).2
      · rw [hfollows]
        simp [PalwBeaconCheckpointV1.fromState, deriveBeaconEpochState]

theorem beaconChainLinks_eq_true {bundle : PalwEpochProofBundleV2}
    (h : bundle.beaconChainLinks P seed = true) :
    bundle.beaconChain.length = bundle.toEpoch - bundle.fromEpoch + 1 ∧
      linksFrom P bundle.fromEpoch seed bundle.beaconChain = true := by
  unfold PalwEpochProofBundleV2.beaconChainLinks at h
  split_ifs at h with _ _ hlength
  exact ⟨not_not.mp hlength, h⟩

theorem beaconChainLinks_bundleOf {fromEpoch : ℕ} {states : List PalwBeaconStateV1}
    (hne : states ≠ []) (h : linksFrom P fromEpoch seed (states.map .fromState) = true) :
    (bundleOf fromEpoch states).beaconChainLinks P seed = true := by
  have hpos := length_pos_of_ne_nil hne
  rw [PalwEpochProofBundleV2.beaconChainLinks, if_neg (by simp [bundleOf]), if_neg, if_neg]
  · exact h
  · simp only [bundleOf, length_map, not_not]
    omega
  · simp only [bundleOf]
    omega

theorem linksFrom_cons {rest : List PalwBeaconCheckpointV1} :
    linksFrom P epoch prev (cp :: rest) = true ↔
      cp.epoch = epoch ∧ cp.seedFollows P prev = true ∧
        linksFrom P (epoch + 1) cp.seed rest = true := by
  rw [linksFrom]
  by_cases hepoch : cp.epoch = epoch
  · cases hfollows : cp.seedFollows P prev <;> simp [hepoch]
  · simp [hepoch]

theorem map_seed_eq_of_linksFrom (h : linksFrom P epoch prev chain = true)
    (h' : linksFrom P epoch prev chain' = true)
    (hfacts : chain.map (·.seedFacts) = chain'.map (·.seedFacts)) :
    chain.map (·.seed) = chain'.map (·.seed) := by
  induction chain generalizing epoch prev chain' with
  | nil =>
    rw [map_eq_nil_iff.mp hfacts.symm]
  | cons cp rest ih =>
    cases chain' with
    | nil => cases hfacts
    | cons cp' rest' =>
      obtain ⟨-, hfollows, hrest⟩ := linksFrom_cons.mp h
      obtain ⟨-, hfollows', hrest'⟩ := linksFrom_cons.mp h'
      rw [map_cons, map_cons, List.cons.injEq] at hfacts
      obtain ⟨hhead, htail⟩ := hfacts
      simp only [PalwBeaconCheckpointV1.seedFacts, Prod.mk.injEq] at hhead
      have hseed : cp.seed = cp'.seed := by
        rw [eq_of_beq hfollows, eq_of_beq hfollows', hhead.1, hhead.2.1, hhead.2.2.1, hhead.2.2.2]
      rw [map_cons, map_cons, hseed, ih (hseed ▸ hrest) hrest' htail]

def preimagesFrom : Hash64 → List PalwBeaconCheckpointV1 → List Bytes
  | _, [] => []
  | prev, cp :: rest => cp.preimage prev :: preimagesFrom cp.seed rest

def CollisionFree (P : PalwPrimitives) (messages messages' : List Bytes) : Prop :=
  ∀ m ∈ messages, ∀ m' ∈ messages',
    P.blake2b512Keyed PALW_BEACON_DOMAIN m = P.blake2b512Keyed PALW_BEACON_DOMAIN m' → m = m'

theorem CollisionFree.tail {m m' : Bytes} {messages messages' : List Bytes}
    (h : CollisionFree P (m :: messages) (m' :: messages')) : CollisionFree P messages messages' :=
  fun a ha b hb => h a (mem_cons_of_mem _ ha) b (mem_cons_of_mem _ hb)

theorem preimage_inj {cp' : PalwBeaconCheckpointV1} {prev' : Hash64} (ht : cp.WellTyped)
    (ht' : cp'.WellTyped) (hprev : prev < 256 ^ 64) (hprev' : prev' < 256 ^ 64)
    (h : cp.preimage prev = cp'.preimage prev') : prev = prev' ∧ cp.seedFacts = cp'.seedFacts := by
  have hlen (a b : Hash64) : (hash64Bytes a).length = (hash64Bytes b).length := by simp
  obtain ⟨h₁, h⟩ := append_inj h (hlen _ _)
  obtain ⟨h₂, h⟩ := append_inj h (hlen _ _)
  obtain ⟨h₃, h⟩ := append_inj h (hlen _ _)
  obtain ⟨h₄, h₅⟩ := append_inj h (hlen _ _)
  refine ⟨hash64Bytes_inj hprev hprev' h₁, ?_⟩
  rw [PalwBeaconCheckpointV1.seedFacts, PalwBeaconCheckpointV1.seedFacts,
    leBytes_inj ht.epoch ht'.epoch h₅, hash64Bytes_inj ht.dnsAnchor ht'.dnsAnchor h₂,
    hash64Bytes_inj ht.validRevealsRoot ht'.validRevealsRoot h₃,
    hash64Bytes_inj ht.missingCommitmentsRoot ht'.missingCommitmentsRoot h₄]

theorem chain_eq_of_last_seed {prev' : Hash64} (h : linksFrom P epoch prev chain = true)
    (h' : linksFrom P epoch prev' chain' = true) (hlength : chain.length = chain'.length)
    (hne : chain ≠ []) (ht : ∀ cp ∈ chain, cp.WellTyped) (ht' : ∀ cp ∈ chain', cp.WellTyped)
    (hprev : prev < 256 ^ 64) (hprev' : prev' < 256 ^ 64)
    (hfree : CollisionFree P (preimagesFrom prev chain) (preimagesFrom prev' chain'))
    (hlast : chain.getLast?.map (·.seed) = chain'.getLast?.map (·.seed)) :
    prev = prev' ∧ chain.map (·.seed) = chain'.map (·.seed) ∧
      chain.map (·.seedFacts) = chain'.map (·.seedFacts) := by
  induction chain generalizing epoch prev prev' chain' with
  | nil => exact absurd rfl hne
  | cons cp rest ih =>
    cases chain' with
    | nil => cases hlength
    | cons cp' rest' =>
      obtain ⟨-, hfollows, hrest⟩ := linksFrom_cons.mp h
      obtain ⟨-, hfollows', hrest'⟩ := linksFrom_cons.mp h'
      have htcp := ht cp mem_cons_self
      have htcp' := ht' cp' mem_cons_self
      rw [length_cons, length_cons, add_right_cancel_iff] at hlength
      -- the seeds of the two heads agree: they are the last ones, or the rest leads back to them
      have hrests : cp.seed = cp'.seed ∧ rest.map (·.seed) = rest'.map (·.seed) ∧
          rest.map (·.seedFacts) = rest'.map (·.seedFacts) := by
        cases rest with
        | nil =>
          obtain rfl := length_eq_zero_iff.mp hlength.symm
          exact ⟨Option.some.inj hlast, rfl, rfl⟩
        | cons r rest =>
          cases rest' with
          | nil => cases hlength
          | cons r' rest' =>
            rw [List.getLast?_cons_cons, List.getLast?_cons_cons] at hlast
            exact ih hrest hrest' hlength (cons_ne_nil _ _) (forall_mem_cons.mp ht).2
              (forall_mem_cons.mp ht').2 htcp.seed htcp'.seed hfree.tail hlast
      obtain ⟨hseed, hseeds, hfacts⟩ := hrests
      have hmessage : cp.preimage prev = cp'.preimage prev' := by
        refine hfree _ mem_cons_self _ mem_cons_self ?_
        exact (eq_of_beq hfollows).symm.trans (hseed.trans (eq_of_beq hfollows'))
      obtain ⟨hprevs, hhead⟩ := preimage_inj htcp htcp' hprev hprev' hmessage
      exact ⟨hprevs, by rw [map_cons, map_cons, hseed, hseeds],
        by rw [map_cons, map_cons, hhead, hfacts]⟩

/-- The states of a run of consecutive Healthy epochs link from the seed before them. A chain that
links from that seed over the same anchors and roots has the same seeds; and without collisions a
chain that ends in the run's last seed is the run and starts from its boundary seed. -/
theorem beacon_healthy_range_links (P : PalwPrimitives) (params : BeaconParams) (startEpoch : ℕ)
    (startSeed : Hash64) (startDegraded : ℕ) (epochs : List BeaconEpoch)
    (before range after : List PalwBeaconStateV1)
    (hsplit : deriveHistory P params startEpoch startSeed startDegraded epochs =
      before ++ (range ++ after))
    (hne : range ≠ []) (hhealthy : ∀ s ∈ range, s.mode = PalwBeaconMode.healthy.toU8) :
    let fromEpoch := startEpoch + before.length
    let boundary := seedAfter startSeed before
    let chain := (bundleOf fromEpoch range).beaconChain
    (bundleOf fromEpoch range).beaconChainLinks P boundary = true ∧
      (∀ bundle : PalwEpochProofBundleV2, bundle.fromEpoch = fromEpoch →
        bundle.beaconChainLinks P boundary = true →
        bundle.beaconChain.map (·.seedFacts) = chain.map (·.seedFacts) →
        bundle.beaconChain.map (·.seed) = range.map (·.seed)) ∧
      ∀ (bundle : PalwEpochProofBundleV2) (boundary' : Hash64), bundle.fromEpoch = fromEpoch →
        bundle.toEpoch = (bundleOf fromEpoch range).toEpoch →
        bundle.beaconChainLinks P boundary' = true →
        (∀ cp ∈ bundle.beaconChain ++ chain, cp.WellTyped) → boundary < 256 ^ 64 →
        boundary' < 256 ^ 64 →
        CollisionFree P (preimagesFrom boundary' bundle.beaconChain)
          (preimagesFrom boundary chain) →
        bundle.beaconChain.getLast?.map (·.seed) = chain.getLast?.map (·.seed) →
        boundary' = boundary ∧ bundle.beaconChain.map (·.seed) = range.map (·.seed) ∧
          bundle.beaconChain.map (·.seedFacts) = chain.map (·.seedFacts) := by
  intro fromEpoch boundary chain
  obtain ⟨degraded, rest, hrest⟩ := exists_deriveHistory_suffix hsplit
  have hlinks : linksFrom P fromEpoch boundary chain = true :=
    linksFrom_deriveHistory hrest.symm hhealthy
  have hseeds : chain.map (·.seed) = range.map (·.seed) := by
    change (range.map PalwBeaconCheckpointV1.fromState).map (·.seed) = _
    rw [map_map]
    rfl
  have hlength : chain.length = range.length := length_map _
  have hpos := length_pos_of_ne_nil hne
  refine ⟨beaconChainLinks_bundleOf hne hlinks, fun bundle hfrom hbundle hfacts => ?_,
    fun bundle boundary' hfrom hto hbundle htyped hb hb' hfree hlast => ?_⟩
  · obtain ⟨-, hchain⟩ := beaconChainLinks_eq_true hbundle
    rw [← hseeds]
    exact map_seed_eq_of_linksFrom (hfrom ▸ hchain) hlinks hfacts
  · obtain ⟨hcount, hchain⟩ := beaconChainLinks_eq_true hbundle
    have hto' : bundle.toEpoch = fromEpoch + range.length - 1 := hto
    have hbundleLength : bundle.beaconChain.length = chain.length := by omega
    have hbundleNe : bundle.beaconChain ≠ [] := ne_nil_of_length_pos (by omega)
    rw [forall_mem_append] at htyped
    rw [← hseeds]
    exact chain_eq_of_last_seed (hfrom ▸ hchain) hlinks hbundleLength hbundleNe htyped.1 htyped.2
      hb' hb hfree hlast

def idleEpoch : BeaconEpoch := ⟨⟨7, 1, 1, 1⟩, {}, true, fun _ => 1⟩
def openedEpoch : BeaconEpoch :=
  ⟨⟨7, 1, 1, 1⟩, ⟨[(⟨1, 0⟩, 3)], [(⟨1, 0⟩, 4)]⟩, true, fun _ => 1⟩

def sampleHistory : List PalwBeaconStateV1 :=
  deriveHistory samplePalwPrimitives ⟨1, 2, 3⟩ 5 9 0
    [idleEpoch, openedEpoch, openedEpoch, idleEpoch]

def forgedBundle : PalwEpochProofBundleV2 :=
  let honest := bundleOf 6 ((sampleHistory.drop 1).take 2)
  { honest with
    beaconChain := honest.beaconChain.zipIdx.map fun (cp, i) =>
      if i = 0 then cp
      else { cp with
        dnsAnchor := 8
        seed := beaconSeed samplePalwPrimitives ((honest.beaconChain.map (·.seed)).headD 0) 8
          cp.validRevealsRoot cp.missingCommitmentsRoot cp.epoch } }

/-- The bundle of an honest degraded epoch does not link; one that replaces an anchor after the
first state does. -/
theorem degraded_refused_forged_accepted :
    (bundleOf 5 (sampleHistory.take 1)).beaconChainLinks samplePalwPrimitives 9 = false ∧
      forgedBundle.beaconChainLinks samplePalwPrimitives 9 = true ∧
      forgedBundle.beaconChain.head? = (sampleHistory[1]?).map .fromState ∧
      forgedBundle.beaconChain.map (·.seed) ≠ ((sampleHistory.drop 1).take 2).map (·.seed) := by
  decide +kernel

theorem beacon_healthy_range_links_opened :
    (bundleOf 6 ((sampleHistory.drop 1).take 2)).beaconChainLinks samplePalwPrimitives 9 =
      true := by
  have hseed : seedAfter 9 (sampleHistory.take 1) = 9 := by decide +kernel
  have hlinks := (beacon_healthy_range_links samplePalwPrimitives ⟨1, 2, 3⟩ 5 9 0
    [idleEpoch, openedEpoch, openedEpoch, idleEpoch] (sampleHistory.take 1)
    ((sampleHistory.drop 1).take 2) (sampleHistory.drop 3) (by decide +kernel) (by decide +kernel)
    (by decide +kernel)).1
  rwa [hseed] at hlinks

end Misaka.Palw
