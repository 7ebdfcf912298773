import Misaka.Core.Paging
import Misaka.Dns.Overlay

/-!
# Paged bond enumeration

`paginate_stake_bonds` answers one query for bonds: it filters, sorts by outpoint, and returns a
page after the cursor. At a fixed point-of-view score, feeding each `next_cursor` back lists every
matching bond exactly once.
-/

namespace Misaka.Dns

open Misaka.Core List

def STAKE_BONDS_DEFAULT_PAGE_LIMIT : ℕ := 256

def STAKE_BONDS_MAX_PAGE_LIMIT : ℕ := 1000

structure StakeBondQuery where
  ownerPubkeyHash : Option Hash64
  statusIn : Option (List BondStatus)
  cursor : Option TransactionOutpoint
  limit : ℕ
  deriving DecidableEq, Repr

structure StakeBondPage where
  bonds : List StakeBondRecord
  nextCursor : Option TransactionOutpoint
  povDaaScore : ℕ
  deriving DecidableEq, Repr

def StakeBondQuery.pageLimit (query : StakeBondQuery) : ℕ :=
  if query.limit = 0 then STAKE_BONDS_DEFAULT_PAGE_LIMIT
  else min query.limit STAKE_BONDS_MAX_PAGE_LIMIT

def StakeBondQuery.ownerMatches (query : StakeBondQuery) (record : StakeBondRecord) : Bool :=
  match query.ownerPubkeyHash with
  | some owner => record.ownerPubkeyHash = owner
  | none => true

def StakeBondQuery.statusMatches (query : StakeBondQuery) (povDaaScore : ℕ)
    (record : StakeBondRecord) : Bool :=
  match query.statusIn with
  | some statuses => statuses.isEmpty || statuses.contains (effectiveBondStatus record povDaaScore)
  | none => true

def StakeBondQuery.matching (query : StakeBondQuery) (records : List StakeBondRecord)
    (povDaaScore : ℕ) : List StakeBondRecord :=
  sortBy (fun r => outpointKey r.bondOutpoint)
    ((records.filter query.ownerMatches).filter (query.statusMatches povDaaScore))

/-- The matching bonds after the cursor, up to the limit. -/
def paginateStakeBonds (records : List StakeBondRecord) (query : StakeBondQuery)
    (povDaaScore : ℕ) : StakeBondPage :=
  let matching := query.matching records povDaaScore
  let start := match query.cursor with
    | some cursor =>
      partitionPoint (fun r => outpointKey r.bondOutpoint ≤ outpointKey cursor) matching
    | none => 0
  let remaining := matching.drop start
  let bonds := remaining.take query.pageLimit
  { bonds := bonds
    nextCursor :=
      if query.pageLimit < remaining.length then bonds.getLast?.map (·.bondOutpoint) else none
    povDaaScore := povDaaScore }

/-- The walk of a caller: start without a cursor and feed each `next_cursor` back. -/
def walkStakeBonds (records : List StakeBondRecord) (query : StakeBondQuery)
    (povDaaScore fuel : ℕ) : Option (List StakeBondPage) :=
  walkPages (fun cursor => paginateStakeBonds records { query with cursor := cursor } povDaaScore)
    (·.nextCursor) fuel none

def StakeBondQuery.Asks (query : StakeBondQuery) (povDaaScore : ℕ) (record : StakeBondRecord) :
    Prop :=
  (∀ owner, query.ownerPubkeyHash = some owner → record.ownerPubkeyHash = owner) ∧
    ∀ statuses, query.statusIn = some statuses → statuses ≠ [] →
      effectiveBondStatus record povDaaScore ∈ statuses

variable {records : List StakeBondRecord} {query : StakeBondQuery} {pov : ℕ}

theorem matches_iff {record : StakeBondRecord} :
    (query.statusMatches pov record && query.ownerMatches record) = true ↔
      query.Asks pov record := by
  rw [Bool.and_eq_true, and_comm, StakeBondQuery.Asks]
  refine and_congr ?_ ?_
  · unfold StakeBondQuery.ownerMatches
    cases query.ownerPubkeyHash <;> simp
  · unfold StakeBondQuery.statusMatches
    cases query.statusIn with
    | none => simp
    | some statuses => cases statuses <;> simp

theorem pageLimit_pos : 0 < query.pageLimit := by
  unfold StakeBondQuery.pageLimit
  split
  · decide
  · next h => exact lt_min (Nat.pos_of_ne_zero h) (by decide)

theorem matching_perm :
    (query.matching records pov).Perm (records.filter fun r =>
      query.statusMatches pov r && query.ownerMatches r) := by
  rw [StakeBondQuery.matching, filter_filter]
  exact sortBy_perm _ _

theorem pairwise_matching (hdistinct : (records.map (·.bondOutpoint)).Nodup) :
    (query.matching records pov).Pairwise fun a b =>
      outpointKey a.bondOutpoint < outpointKey b.bondOutpoint := by
  have hnodup : ((query.matching records pov).map (·.bondOutpoint)).Nodup :=
    ((matching_perm.map _).nodup_iff).mpr (hdistinct.sublist (filter_sublist.map _))
  have hsorted := sortBy_pairwise (fun r : StakeBondRecord => outpointKey r.bondOutpoint)
    ((records.filter query.ownerMatches).filter (query.statusMatches pov))
  refine ((pairwise_map.mp hnodup).and hsorted).imp fun h => ?_
  exact lt_of_le_of_ne h.2 (outpointKey_injective.ne h.1)

theorem bonds_paginateStakeBonds (cursor : Option TransactionOutpoint) :
    (paginateStakeBonds records { query with cursor := cursor } pov).bonds =
      (afterCursor (·.bondOutpoint) outpointKey (query.matching records pov) cursor).take
        query.pageLimit := by
  cases cursor <;> rfl

theorem nextCursor_paginateStakeBonds (cursor : Option TransactionOutpoint) :
    (paginateStakeBonds records { query with cursor := cursor } pov).nextCursor =
      if query.pageLimit < (afterCursor (·.bondOutpoint) outpointKey
          (query.matching records pov) cursor).length then
        (paginateStakeBonds records { query with cursor := cursor }
          pov).bonds.getLast?.map (·.bondOutpoint)
      else none := by
  cases cursor <;> rfl

/-- The walk ends, and its pages list every matching record exactly once, in the order of their
outpoints. -/
theorem bond_walk_complete (hdistinct : (records.map (·.bondOutpoint)).Nodup)
    (query : StakeBondQuery) (povDaaScore : ℕ) :
    ∃ pages, (∀ fuel, records.length < fuel →
        walkStakeBonds records query povDaaScore fuel = some pages) ∧
      (pages.flatMap (·.bonds)).Pairwise (fun a b =>
        outpointKey a.bondOutpoint < outpointKey b.bondOutpoint) ∧
      ∀ record, record ∈ pages.flatMap (·.bonds) ↔
        record ∈ records ∧ query.Asks povDaaScore record := by
  have hsorted : (query.matching records povDaaScore).Pairwise fun a b =>
      outpointKey a.bondOutpoint < outpointKey b.bondOutpoint := pairwise_matching hdistinct
  obtain ⟨pages, hwalk, hflat⟩ := exists_walkPages (pageLimit_pos : 0 < query.pageLimit) hsorted
    bonds_paginateStakeBonds nextCursor_paginateStakeBonds [] none rfl
  refine ⟨pages, fun fuel hfuel => hwalk fuel (lt_of_le_of_lt ?_ hfuel), ?_, fun record => ?_⟩
  · exact (matching_perm.length_eq.trans_le (length_filter_le _ _))
  · rwa [hflat]
  · rw [hflat]
    change record ∈ query.matching records povDaaScore ↔ _
    rw [matching_perm.mem_iff, mem_filter, matches_iff]

/-- Three bonds in pages of one. -/
theorem bond_walk_complete_three :
    let record (id : Hash64) : StakeBondRecord := { (default : StakeBondRecord) with
      bondOutpoint := ⟨id, 0⟩ }
    ∃ pages, walkStakeBonds [record 3, record 1, record 2] ⟨none, none, none, 1⟩ 100 4 =
      some pages ∧ record 1 ∈ pages.flatMap (·.bonds) := by
  intro record
  have hdistinct : ([record 3, record 1, record 2].map (·.bondOutpoint)).Nodup := by decide
  obtain ⟨pages, hwalk, -, hmem⟩ := bond_walk_complete hdistinct ⟨none, none, none, 1⟩ 100
  refine ⟨pages, hwalk 4 (by decide), (hmem _).mpr ⟨by simp, ?_, ?_⟩⟩
  · exact fun _ h => nomatch h
  · exact fun _ h => nomatch h

end Misaka.Dns
