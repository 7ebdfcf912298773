import Mathlib.Data.List.AList
import Mathlib.Data.List.Sort
import Mathlib.Data.Prod.Lex
import Misaka.Chain.BlueWork
import Misaka.Chain.Transaction
import Misaka.Core.Fallible

/-!
# The GHOSTDAG protocol

Coloring of a new block from its parents (`consensus/src/processes/ghostdag/`) over the stores as
`commit_header` leaves them. A failed `unwrap`, `assert!` or `panic!` is a fault. The manager is the
level-0 one, whose `level_work` is zero and whose nullifier store is attached.
-/

namespace Misaka.Ghostdag

open Misaka.Core

/-- `blockhash::ORIGIN`, every byte `0xfe`. -/
def ORIGIN : BlockHash := 0xfe * ((256 ^ 64 - 1) / 255)

structure BlockHeader where
  bits : ℕ
  daaScore : ℕ
  powAlgoId : UInt8
  palwTicketNullifier : Hash64
  deriving DecidableEq, Repr

def BlockHeader.palwTicket (h : BlockHeader) : Option (Hash64 × ℕ) :=
  if h.powAlgoId = POW_ALGO_ID_PALW_REPLICA then some (h.palwTicketNullifier, h.daaScore) else none

/-- `HashKTypeMap`. -/
abbrev AnticoneSizes := AList fun _ : BlockHash => ℕ

structure PalwActiveNullifierSet where
  seen : AList fun _ : Hash64 => ℕ

namespace PalwActiveNullifierSet

def new : PalwActiveNullifierSet := ⟨∅⟩

def contains (s : PalwActiveNullifierSet) (nullifier : Hash64) : Bool :=
  (s.seen.lookup nullifier).isSome

def insert (s : PalwActiveNullifierSet) (nullifier : Hash64) (firstSeenDaa : ℕ) :
    PalwActiveNullifierSet × Bool :=
  if s.contains nullifier then (s, false) else (⟨s.seen.insert nullifier firstSeenDaa⟩, true)

/-- `insert` of the ticket of a replica-lane block. -/
def insertTicket (s : PalwActiveNullifierSet) (header : BlockHeader) : PalwActiveNullifierSet :=
  match header.palwTicket with
  | some (nullifier, daa) => (s.insert nullifier daa).1
  | none => s

def mergeFrom (s other : PalwActiveNullifierSet) : PalwActiveNullifierSet :=
  other.seen.entries.foldl (fun s entry => (s.insert entry.1 entry.2).1) s

def pruneBelow (s : PalwActiveNullifierSet) (retentionFloorDaa : ℕ) : PalwActiveNullifierSet :=
  ⟨⟨s.seen.entries.filter fun entry => retentionFloorDaa ≤ entry.2,
    s.seen.nodupKeys.sublist List.filter_sublist⟩⟩

end PalwActiveNullifierSet

structure GhostdagData where
  blueScore : ℕ
  blueWork : ℕ
  blueHashWork : ℕ
  blueComputeWork : ℕ
  selectedParent : BlockHash
  mergesetBlues : List BlockHash
  mergesetReds : List BlockHash
  bluesAnticoneSizes : AnticoneSizes

namespace GhostdagData

def newWithSelectedParent (selectedParent : BlockHash) : GhostdagData where
  blueScore := 0
  blueWork := 0
  blueHashWork := 0
  blueComputeWork := 0
  selectedParent := selectedParent
  mergesetBlues := [selectedParent]
  mergesetReds := []
  bluesAnticoneSizes := AList.singleton selectedParent 0

def genesis : GhostdagData where
  blueScore := 0
  blueWork := 0
  blueHashWork := 0
  blueComputeWork := 0
  selectedParent := ORIGIN
  mergesetBlues := []
  mergesetReds := []
  bluesAnticoneSizes := ∅

/-- A new blue grows the anticones of the blues around it. -/
def addBlue (d : GhostdagData) (block : BlockHash) (blueAnticoneSize : ℕ)
    (blockBluesAnticoneSizes : AnticoneSizes) : GhostdagData :=
  { d with
    mergesetBlues := d.mergesetBlues ++ [block]
    bluesAnticoneSizes := blockBluesAnticoneSizes.entries.foldl
      (fun sizes entry => sizes.insert entry.1 (entry.2 + 1))
      (d.bluesAnticoneSizes.insert block blueAnticoneSize) }

def addRed (d : GhostdagData) (block : BlockHash) : GhostdagData :=
  { d with mergesetReds := d.mergesetReds ++ [block] }

def finalizeScoreAndComponentWork (d : GhostdagData)
    (blueScore blueHashWork blueComputeWorkRaw cap : ℕ) : GhostdagData :=
  { d with
    blueScore := blueScore
    blueHashWork := blueHashWork
    blueComputeWork := cappedComputeWork blueComputeWorkRaw blueHashWork cap
    blueWork := effectiveBlueWork blueHashWork blueComputeWorkRaw cap }

def mergesetSize (d : GhostdagData) : ℕ := d.mergesetBlues.length + d.mergesetReds.length

end GhostdagData

structure BlockEntry where
  hash : BlockHash
  parents : List BlockHash
  header : BlockHeader
  data : GhostdagData
  activeNullifiers : Option PalwActiveNullifierSet

abbrev Dag := List BlockEntry

inductive GhostdagFault where
  /-- A store `unwrap` on an absent key. -/
  | keyNotFound (block : BlockHash)
  | noParents
  | missingNullifierWindow (block : BlockHash)
  | notInBlueSet (block : BlockHash)
  | anticoneLargerThanK (block : BlockHash)
  | blueScoreOverflow
  /-- Out of steps; `exists_mergesetLoop_eq_ok` excludes it. -/
  | outOfFuel
  deriving DecidableEq, Repr

namespace Dag

def find? (dag : Dag) (block : BlockHash) : Option BlockEntry := List.find? (·.hash = block) dag

/-- A store read followed by `unwrap`. -/
def get (dag : Dag) (block : BlockHash) : Except GhostdagFault BlockEntry :=
  match dag.find? block with
  | some e => .ok e
  | none => .error (.keyNotFound block)

/-- Reachability by parents. The source unwraps a missing key, so both blocks are stored ones. -/
def isDagAncestorOf : Dag → BlockHash → BlockHash → Bool
  | [], _, _ => false
  | e :: older, this, queried =>
    if e.hash = queried then this = queried || e.parents.any (isDagAncestorOf older this)
    else isDagAncestorOf older this queried

end Dag

/-- `SortableBlock`: blocks compare by blue work, ties by hash. -/
def sortableBlock (dag : Dag) (block : BlockHash) : Except GhostdagFault (ℕ ×ₗ BlockHash) := do
  let e ← dag.get block
  return toLex (e.data.blueWork, block)

/-- By blue work, then by hash. -/
def sortBlocks (dag : Dag) (blocks : List BlockHash) : Except GhostdagFault (List BlockHash) := do
  let keyed ← blocks.mapM (sortableBlock dag)
  return (keyed.insertionSort (· ≤ ·)).map fun s => (ofLex s).2

/-- The parent of most blue work. -/
def findSelectedParent (dag : Dag) (parents : List BlockHash) :
    Except GhostdagFault BlockHash := do
  match ← parents.mapM (sortableBlock dag) with
  | [] => throw .noParents
  | s :: rest => return (ofLex (rest.foldl max s)).2

structure MergesetSearch where
  queue : List BlockHash
  mergeset : List BlockHash
  past : List BlockHash

def MergesetSearch.visit (dag : Dag) (selectedParent : BlockHash) (s : MergesetSearch)
    (parent : BlockHash) : MergesetSearch :=
  if parent ∈ s.mergeset ∨ parent ∈ s.past then s
  else if dag.isDagAncestorOf parent selectedParent then { s with past := parent :: s.past }
  else { s with queue := s.queue ++ [parent], mergeset := s.mergeset ++ [parent] }

/-- The breadth-first loop of `unordered_mergeset_without_selected_parent`. -/
def mergesetLoop (dag : Dag) (selectedParent : BlockHash) :
    ℕ → MergesetSearch → Except GhostdagFault (List BlockHash)
  | 0, s => if s.queue = [] then .ok s.mergeset else .error .outOfFuel
  | fuel + 1, s =>
    match s.queue with
    | [] => .ok s.mergeset
    | current :: queue => do
      let e ← dag.get current
      mergesetLoop dag selectedParent fuel
        (e.parents.foldl (MergesetSearch.visit dag selectedParent) { s with queue := queue })

/-- A search over parents, stopped at the past of the selected parent. -/
def unorderedMergesetWithoutSelectedParent (dag : Dag) (selectedParent : BlockHash)
    (parents : List BlockHash) : Except GhostdagFault (List BlockHash) :=
  let queue := parents.filter (· ≠ selectedParent)
  mergesetLoop dag selectedParent (dag.length + parents.length)
    { queue := queue, mergeset := queue.dedup, past := [] }

def orderedMergesetWithoutSelectedParent (dag : Dag) (selectedParent : BlockHash)
    (parents : List BlockHash) : Except GhostdagFault (List BlockHash) := do
  sortBlocks dag (← unorderedMergesetWithoutSelectedParent dag selectedParent parents)

structure GhostdagManager where
  genesisHash : BlockHash
  k : ℕ
  palwActivationDaaScore : ℕ
  palwComputeWorkScale : ℕ
  scale_lt : palwComputeWorkScale < 2 ^ 64

inductive ColoringState where
  | blue
  | red
  | pending
  deriving DecidableEq, Repr

inductive ColoringOutput where
  | blue (blueAnticoneSize : ℕ) (bluesAnticoneSizes : AnticoneSizes)
  | red

structure CandidateAnticone where
  bluesAnticoneSizes : AnticoneSizes
  size : ℕ

namespace GhostdagManager

variable (m : GhostdagManager)

/-- The nearest chain block that records the size of `block`. -/
def blueAnticoneSize (block : BlockHash) :
    Dag → AnticoneSizes → BlockHash → Except GhostdagFault ℕ
  | dag, sizes, selectedParent =>
    match sizes.lookup block with
    | some size => .ok size
    | none =>
      if selectedParent = m.genesisHash ∨ selectedParent = ORIGIN then .error (.notInBlueSet block)
      else
        match dag with
        | [] => .error (.keyNotFound selectedParent)
        | e :: older =>
          if e.hash = selectedParent then
            blueAnticoneSize block older e.data.bluesAnticoneSizes e.data.selectedParent
          else blueAnticoneSize block older sizes selectedParent

def checkPeers (dag : Dag) (newBlockData : GhostdagData) (blueCandidate : BlockHash) :
    List BlockHash → CandidateAnticone →
      Except GhostdagFault (ColoringState × CandidateAnticone)
  | [], c => .ok (.pending, c)
  | peer :: peers, c =>
    if dag.isDagAncestorOf peer blueCandidate then
      checkPeers dag newBlockData blueCandidate peers c
    else do
      let size ← m.blueAnticoneSize peer dag newBlockData.bluesAnticoneSizes
        newBlockData.selectedParent
      let c := ⟨c.bluesAnticoneSizes.insert peer size, c.size + 1⟩
      if m.k < c.size then return (.red, c)
      else if size = m.k then return (.red, c)
      else if m.k < size then throw (.anticoneLargerThanK peer)
      else checkPeers dag newBlockData blueCandidate peers c

def checkBlueCandidateWithChainBlock (dag : Dag) (newBlockData : GhostdagData)
    (chainHash : Option BlockHash) (chainData : GhostdagData) (blueCandidate : BlockHash)
    (c : CandidateAnticone) : Except GhostdagFault (ColoringState × CandidateAnticone) :=
  if chainHash.any (dag.isDagAncestorOf · blueCandidate) then .ok (.blue, c)
  else m.checkPeers dag newBlockData blueCandidate chainData.mergesetBlues c

/-- The chain-block loop of `check_blue_candidate` below the new block: the stored blocks are
walked down to each next selected parent. -/
def checkBlueCandidateBelow (dag : Dag) (newBlockData : GhostdagData) (blueCandidate : BlockHash) :
    Dag → BlockHash → CandidateAnticone → Except GhostdagFault ColoringOutput
  | [], selectedParent, _ => .error (.keyNotFound selectedParent)
  | e :: older, selectedParent, c =>
    if e.hash = selectedParent then do
      match ← m.checkBlueCandidateWithChainBlock dag newBlockData (some e.hash) e.data
        blueCandidate c with
      | (.blue, c) => return .blue c.size c.bluesAnticoneSizes
      | (.red, _) => return .red
      | (.pending, c) =>
        checkBlueCandidateBelow dag newBlockData blueCandidate older e.data.selectedParent c
    else checkBlueCandidateBelow dag newBlockData blueCandidate older selectedParent c

/-- Red if an anticone would grow over `k`. -/
def checkBlueCandidate (dag : Dag) (newBlockData : GhostdagData) (blueCandidate : BlockHash) :
    Except GhostdagFault ColoringOutput :=
  if newBlockData.mergesetBlues.length = m.k + 1 then .ok .red
  else do
    match ← m.checkBlueCandidateWithChainBlock dag newBlockData none newBlockData blueCandidate
      ⟨∅, 0⟩ with
    | (.blue, c) => return .blue c.size c.bluesAnticoneSizes
    | (.red, _) => return .red
    | (.pending, c) =>
      m.checkBlueCandidateBelow dag newBlockData blueCandidate dag newBlockData.selectedParent c

def colorCandidate (dag : Dag) (palwActive : Bool)
    (s : GhostdagData × PalwActiveNullifierSet) (blueCandidate : BlockHash) :
    Except GhostdagFault (GhostdagData × PalwActiveNullifierSet) := do
  match ← m.checkBlueCandidate dag s.1 blueCandidate with
  | .red => return (s.1.addRed blueCandidate, s.2)
  | .blue size sizes =>
    let e ← dag.get blueCandidate
    match e.header.palwTicket, palwActive with
    | some (nullifier, daa), true =>
      if (s.2.insert nullifier daa).2 then
        return (s.1.addBlue blueCandidate size sizes, (s.2.insert nullifier daa).1)
      else return (s.1.addRed blueCandidate, s.2)
    | _, _ => return (s.1.addBlue blueCandidate size sizes, s.2)

def selectedParentWindow (selectedParent : BlockEntry) :
    Except GhostdagFault PalwActiveNullifierSet :=
  if selectedParent.hash ≠ m.genesisHash ∧
      m.palwActivationDaaScore ≤ selectedParent.header.daaScore then
    match selectedParent.activeNullifiers with
    | some window => .ok window
    | none => .error (.missingNullifierWindow selectedParent.hash)
  else .ok .new

/-- The nullifiers a child of `selectedParent` starts from: the selected parent's window and its
own ticket, nothing while the fence is not reached. -/
def seedNullifiers (palwActive : Bool) (selectedParent : BlockEntry) :
    Except GhostdagFault PalwActiveNullifierSet :=
  if palwActive then do
    let window ← m.selectedParentWindow selectedParent
    return (PalwActiveNullifierSet.new.mergeFrom window).insertTicket selectedParent.header
  else .ok .new

def hashWorkOf (palwActive : Bool) (header : BlockHeader) : ℕ :=
  if palwActive ∧ header.powAlgoId = POW_ALGO_ID_PALW_REPLICA then 0 else calcWork header.bits

def computeWorkOf (palwActive : Bool) (header : BlockHeader) : ℕ :=
  if palwActive ∧ header.powAlgoId = POW_ALGO_ID_PALW_REPLICA then
    normalizePalwWork header.bits m.palwComputeWorkScale
  else 0

def palwActive (dag : Dag) (parents : List BlockHash) : Bool :=
  parents.any fun p => (dag.find? p).any fun e => m.palwActivationDaaScore ≤ e.header.daaScore

/-- The coloring of the mergeset and the sums over it. -/
def ghostdag (dag : Dag) (parents : List BlockHash) : Except GhostdagFault GhostdagData := do
  let selectedParent ← findSelectedParent dag parents
  if selectedParent = ORIGIN then return .newWithSelectedParent selectedParent
  else
    let orderedMergeset ← orderedMergesetWithoutSelectedParent dag selectedParent parents
    let parent ← dag.get selectedParent
    let active := m.palwActive dag parents
    let seed ← m.seedNullifiers active parent
    let (data, _) ← orderedMergeset.foldlM (m.colorCandidate dag active)
      (GhostdagData.newWithSelectedParent selectedParent, seed)
    let blueScore := parent.data.blueScore + data.mergesetBlues.length
    -- `blue_score` is a `u64` and release builds check its overflow
    if 2 ^ 64 ≤ blueScore then throw .blueScoreOverflow
    else
      let sources ← data.mergesetBlues.mapM dag.get
      let addedHash := (sources.map fun e => hashWorkOf active e.header).foldl blueAdd 0
      let addedCompute := (sources.map fun e => m.computeWorkOf active e.header).foldl blueAdd 0
      return data.finalizeScoreAndComponentWork blueScore
        (blueAdd parent.data.blueHashWork addedHash)
        (blueAdd parent.data.blueComputeWork addedCompute) COMPUTE_TO_HASH_CAP

end GhostdagManager

end Misaka.Ghostdag
