import Mathlib.Data.Finset.Card
import Misaka.Core.SortBy
import Misaka.Ghostdag.Protocol

/-!
# Header DAGs

A DAG grows from genesis one header at a time: `ghostdag` colors the header's mergeset over the
stored blocks and `commit_header` stores the result. The spec of one `ghostdag` call is taken apart
once; a stored block keeps the facts of its own insertion.
-/

namespace Misaka.Ghostdag

open Misaka.Core List

namespace Dag

variable {block : BlockHash} {e : BlockEntry}

theorem get_eq_ok {dag : Dag} : dag.get block = .ok e ↔ dag.find? block = some e := by
  unfold get
  cases dag.find? block <;> simp

theorem find?_cons (e : BlockEntry) (dag : Dag) (block : BlockHash) :
    Dag.find? (e :: dag) block = if e.hash = block then some e else dag.find? block := by
  unfold find?
  by_cases h : e.hash = block <;> simp [h]

theorem find?_eq_some {dag : Dag} (h : dag.find? block = some e) : e ∈ dag ∧ e.hash = block :=
  ⟨mem_of_find?_eq_some h,
    by simpa using List.find?_some (p := fun e : BlockEntry => e.hash = block) h⟩

end Dag

theorem sortableBlock_eq_ok {dag : Dag} {s : ℕ ×ₗ BlockHash} :
    sortableBlock dag block = .ok s ↔
      ∃ e, dag.find? block = some e ∧ toLex (e.data.blueWork, block) = s := by
  simp only [sortableBlock, bind_eq_ok, Dag.get_eq_ok]
  exact exists_congr fun e => and_congr_right fun _ => ⟨Except.ok.inj, congrArg _⟩

theorem findSelectedParent_eq_ok {dag : Dag} {parents : List BlockHash} {selected : BlockHash}
    (h : findSelectedParent dag parents = .ok selected) :
    selected ∈ parents ∧ ∃ e, dag.find? selected = some e ∧ ∀ q ∈ parents, ∃ x,
      dag.find? q = some x ∧ toLex (x.data.blueWork, q) ≤ toLex (e.data.blueWork, selected) := by
  obtain ⟨keys, hkeys, h⟩ := bind_eq_ok.mp h
  cases keys with
  | nil => cases h
  | cons s rest =>
    obtain ⟨hmem, hle⟩ := foldl_max_spec s rest
    obtain ⟨q, hq, hkey⟩ := exists_source_of_mapM hkeys hmem
    obtain ⟨e, he, hs⟩ := sortableBlock_eq_ok.mp hkey
    obtain rfl : q = selected := by
      rw [← Except.ok.inj h, ← hs]
      rfl
    refine ⟨hq, e, he, fun r hr => ?_⟩
    obtain ⟨key, hmemkey, hkey⟩ := exists_result_of_mapM hkeys hr
    obtain ⟨x, hx, rfl⟩ := sortableBlock_eq_ok.mp hkey
    exact ⟨x, hx, hs ▸ hle _ hmemkey⟩

namespace GhostdagManager

variable {m : GhostdagManager} {dag : Dag}

theorem colorCandidate_eq_ok {active : Bool} {s s' : GhostdagData × PalwActiveNullifierSet}
    {candidate : BlockHash} (h : m.colorCandidate dag active s candidate = .ok s') :
    s' = (s.1.addRed candidate, s.2) ∨
      ∃ size sizes e, dag.find? candidate = some e ∧ s'.1 = s.1.addBlue candidate size sizes ∧
        ((active = false ∧ s'.2 = s.2) ∨ (active = true ∧ s'.2 = s.2.insertTicket e.header ∧
          ∀ ticket ∈ e.header.palwTicket, s.2.contains ticket.1 = false)) := by
  obtain ⟨output, -, h⟩ := bind_eq_ok.mp h
  cases output with
  | red => exact .inl (Except.ok.inj h).symm
  | blue size sizes =>
    obtain ⟨e, he, h⟩ := bind_eq_ok.mp h
    rw [Dag.get_eq_ok] at he
    cases hticket : e.header.palwTicket with
    | none =>
      rw [hticket] at h
      cases h
      refine .inr ⟨size, sizes, e, he, rfl, ?_⟩
      cases active with
      | false => exact .inl ⟨rfl, rfl⟩
      | true =>
        refine .inr ⟨rfl, ?_, fun ticket hmem => ?_⟩
        · simp [PalwActiveNullifierSet.insertTicket, hticket]
        · rw [hticket] at hmem
          cases hmem
    | some ticket =>
      rw [hticket] at h
      cases active with
      | false =>
        cases h
        exact .inr ⟨size, sizes, e, he, rfl, .inl ⟨rfl, rfl⟩⟩
      | true =>
        dsimp only at h
        split at h
        · next hinsert =>
          cases h
          refine .inr ⟨size, sizes, e, he, rfl, .inr ⟨rfl, ?_, ?_⟩⟩
          · simp [PalwActiveNullifierSet.insertTicket, hticket]
          · intro ticket hmem
            rw [hticket] at hmem
            cases hmem
            by_contra hcontains
            rw [Bool.not_eq_false] at hcontains
            simp [PalwActiveNullifierSet.insert, hcontains] at hinsert
        · exact .inl (Except.ok.inj h).symm

/-- What a successful coloring leaves: the selected parent and its row, the mergeset it colored,
the nullifiers it started from, the blue sources it credits and the sums it stores. -/
structure Colors (m : GhostdagManager) (dag : Dag) (parents : List BlockHash)
    (data : GhostdagData) (parent : BlockEntry) (mergeset : List BlockHash)
    (sources : List BlockEntry) : Prop where
  selected : findSelectedParent dag parents = .ok parent.hash
  found : dag.find? parent.hash = some parent
  mergeset_eq : orderedMergesetWithoutSelectedParent dag parent.hash parents = .ok mergeset
  colored : ∃ seed s, m.seedNullifiers (m.palwActive dag parents) parent = .ok seed ∧
    mergeset.foldlM (m.colorCandidate dag (m.palwActive dag parents))
      (.newWithSelectedParent parent.hash, seed) = .ok s ∧
    data.selectedParent = s.1.selectedParent ∧ data.mergesetBlues = s.1.mergesetBlues ∧
    data.mergesetReds = s.1.mergesetReds
  sources_eq : data.mergesetBlues.mapM dag.get = .ok sources
  blueScore_eq : data.blueScore = parent.data.blueScore + data.mergesetBlues.length
  blueScore_lt : data.blueScore < 2 ^ 64
  blueHashWork_eq : data.blueHashWork = blueAdd parent.data.blueHashWork
    ((sources.map fun e => hashWorkOf (m.palwActive dag parents) e.header).foldl blueAdd 0)
  blueComputeWork_eq : data.blueComputeWork = cappedComputeWork (blueAdd parent.data.blueComputeWork
    ((sources.map fun e => m.computeWorkOf (m.palwActive dag parents) e.header).foldl blueAdd 0))
    data.blueHashWork COMPUTE_TO_HASH_CAP
  blueWork_eq : data.blueWork = effectiveBlueWork data.blueHashWork
    (blueAdd parent.data.blueComputeWork
      ((sources.map fun e => m.computeWorkOf (m.palwActive dag parents) e.header).foldl blueAdd 0))
    COMPUTE_TO_HASH_CAP

theorem ghostdag_eq_ok {parents : List BlockHash} {data : GhostdagData}
    (horigin : ∀ e ∈ dag, e.hash ≠ ORIGIN) (h : m.ghostdag dag parents = .ok data) :
    ∃ parent mergeset sources, Colors m dag parents data parent mergeset sources := by
  obtain ⟨selected, hselected, h⟩ := bind_eq_ok.mp h
  obtain ⟨-, parent, hparent, -⟩ := findSelectedParent_eq_ok hselected
  obtain ⟨hmem, rfl⟩ := Dag.find?_eq_some hparent
  rw [if_neg (horigin parent hmem)] at h
  obtain ⟨mergeset, hmergeset, h⟩ := bind_eq_ok.mp h
  obtain ⟨e, he, h⟩ := bind_eq_ok.mp h
  rw [Dag.get_eq_ok, hparent] at he
  cases he
  obtain ⟨seed, hseed, h⟩ := bind_eq_ok.mp h
  obtain ⟨s, hs, h⟩ := bind_eq_ok.mp h
  dsimp only at h
  split at h
  · cases h
  · next hscore =>
    obtain ⟨sources, hsources, h⟩ := bind_eq_ok.mp h
    cases h
    exact ⟨parent, mergeset, sources, hselected, hparent, hmergeset,
      ⟨seed, s, hseed, hs, rfl, rfl, rfl⟩, hsources, rfl, not_le.mp hscore, rfl, rfl, rfl⟩

namespace Colors

variable {parents mergeset : List BlockHash} {data : GhostdagData} {parent : BlockEntry}
  {sources : List BlockEntry}

theorem blues_eq (h : Colors m dag parents data parent mergeset sources) :
    data.selectedParent = parent.hash ∧ ∃ blues, data.mergesetBlues = parent.hash :: blues := by
  obtain ⟨seed, s, -, hs, hparent, hblues, -⟩ := h.colored
  rw [hparent, hblues]
  -- the coloring loop appends to the blues and leaves the selected parent alone
  refine foldlM_induction (I := fun s : GhostdagData × PalwActiveNullifierSet =>
    s.1.selectedParent = parent.hash ∧ ∃ blues, s.1.mergesetBlues = parent.hash :: blues)
    (fun s c s' _ hi hstep => ?_) ⟨rfl, [], rfl⟩ hs
  obtain ⟨hselected, blues, hblues⟩ := hi
  rcases colorCandidate_eq_ok hstep with rfl | ⟨size, sizes, e, -, hdata, -⟩
  · exact ⟨hselected, blues, hblues⟩
  · rw [hdata]
    exact ⟨hselected, blues ++ [c], by simp [GhostdagData.addBlue, hblues]⟩

theorem sources_eq_cons (h : Colors m dag parents data parent mergeset sources) :
    ∃ rest, sources = parent :: rest := by
  obtain ⟨-, blues, hblues⟩ := h.blues_eq
  have hsources := h.sources_eq
  rw [hblues, mapM_eq_ok, forall₂_cons_left_iff] at hsources
  obtain ⟨e, rest, he, -, rfl⟩ := hsources
  rw [Dag.get_eq_ok, h.found] at he
  cases he
  exact ⟨rest, rfl⟩

theorem length_sources (h : Colors m dag parents data parent mergeset sources) :
    sources.length = data.mergesetBlues.length :=
  (mapM_eq_ok.mp h.sources_eq).length_eq.symm

end Colors

end GhostdagManager

/-- The network parameters of the header processor; `difficultyFullWindowSize` is the window size
times the sample rate. -/
structure HeaderProcessor extends GhostdagManager where
  palwNullifierRetentionDaa : ℕ
  difficultyFullWindowSize : ℕ

structure BlockInput where
  hash : BlockHash
  parents : List BlockHash
  header : BlockHeader

namespace HeaderProcessor

variable (p : HeaderProcessor)

/-- The window of active nullifiers that `commit_header` persists with a block. -/
def nullifierWindow (dag : Dag) (b : BlockInput) (data : GhostdagData) :
    Except GhostdagFault (Option PalwActiveNullifierSet) :=
  if p.palwActivationDaaScore ≤ b.header.daaScore ∧ b.hash ≠ p.genesisHash then do
    let selectedParent ← dag.get data.selectedParent
    let set ← p.selectedParentWindow selectedParent
    let blues ← data.mergesetBlues.mapM dag.get
    let set := blues.foldl (fun set e => set.insertTicket e.header) set
    return some (set.pruneBelow (b.header.daaScore - p.palwNullifierRetentionDaa))
  else return none

/-- Coloring of a header and the rows `commit_header` stores for it. -/
def processHeader (dag : Dag) (b : BlockInput) : Except GhostdagFault Dag := do
  let data ← p.ghostdag dag b.parents
  let activeNullifiers ← p.nullifierWindow dag b data
  return ⟨b.hash, b.parents, b.header, data, activeNullifiers⟩ :: dag

def lowestDaaBlueScore (data : GhostdagData) : ℕ :=
  max data.blueScore p.difficultyFullWindowSize - p.difficultyFullWindowSize

/-- The mergeset blocks that `block_daa_window` reports as outside the DAA window. -/
def mergesetNonDaa (dag : Dag) (data : GhostdagData) : List BlockHash :=
  if data.selectedParent = p.genesisHash then [p.genesisHash]
  else (data.mergesetBlues ++ data.mergesetReds).filter fun h =>
    (dag.find? h).any fun e => e.data.blueScore < p.lowestDaaBlueScore data

def calcDaaScore (dag : Dag) (data : GhostdagData) : ℕ :=
  ((dag.find? data.selectedParent).elim 0 fun e => e.header.daaScore) +
    (data.mergesetSize - (p.mergesetNonDaa dag data).length)

/-- `check_difficulty_and_daa_score`, the part on the DAA score. -/
def checkDaaScore (dag : Dag) (b : BlockInput) : Bool :=
  match p.ghostdag dag b.parents with
  | .ok data => p.calcDaaScore dag data = b.header.daaScore
  | .error _ => false

end HeaderProcessor

/-- What the stores hold for genesis; its virtual parent `ORIGIN` is not a stored block. -/
def genesisEntry (p : HeaderProcessor) (header : BlockHeader) : BlockEntry :=
  ⟨p.genesisHash, [], header, .genesis, none⟩

inductive Built (p : HeaderProcessor) (admitted : Dag → BlockInput → Prop) : Dag → Prop
  | genesis {header : BlockHeader} (horigin : p.genesisHash ≠ ORIGIN) :
    Built p admitted [genesisEntry p header]
  | add {dag dag' : Dag} {b : BlockInput} (hdag : Built p admitted dag) (horigin : b.hash ≠ ORIGIN)
    (hfresh : ∀ e ∈ dag, e.hash ≠ b.hash) (hadmitted : admitted dag b)
    (hprocess : p.processHeader dag b = .ok dag') : Built p admitted dag'

namespace HeaderProcessor

variable {p : HeaderProcessor} {dag dag' : Dag} {b : BlockInput}

theorem processHeader_eq_ok (h : p.processHeader dag b = .ok dag') :
    ∃ data activeNullifiers, p.ghostdag dag b.parents = .ok data ∧
      p.nullifierWindow dag b data = .ok activeNullifiers ∧
      ⟨b.hash, b.parents, b.header, data, activeNullifiers⟩ :: dag = dag' := by
  simp only [processHeader, bind_eq_ok] at h
  obtain ⟨data, hdata, window, hwindow, h⟩ := h
  exact ⟨data, window, hdata, hwindow, Except.ok.inj h⟩

def processHeaders (p : HeaderProcessor) (check : Dag → BlockInput → Bool) (dag : Dag)
    (inputs : List BlockInput) : Except GhostdagFault Dag :=
  inputs.foldlM (fun dag b =>
    if b.hash ≠ ORIGIN ∧ (∀ e ∈ dag, e.hash ≠ b.hash) ∧ check dag b then p.processHeader dag b
    else .error (.keyNotFound b.hash)) dag

end HeaderProcessor

namespace Built

variable {p : HeaderProcessor} {admitted : Dag → BlockInput → Prop} {dag dag' : Dag}

variable {check : Dag → BlockInput → Bool} {inputs : List BlockInput} {x : BlockEntry}

theorem processHeaders (hcheck : ∀ dag b, check dag b = true → admitted dag b)
    (hdag : Built p admitted dag) (h : p.processHeaders check dag inputs = .ok dag') :
    Built p admitted dag' := by
  refine foldlM_induction (fun s b s' _ hs hstep => ?_) hdag h
  split at hstep
  · next hb => exact hs.add hb.1 hb.2.1 (hcheck s b hb.2.2) hstep
  · cases hstep

theorem hash_ne_origin (h : Built p admitted dag) : ∀ e ∈ dag, e.hash ≠ ORIGIN := by
  induction h with
  | genesis horigin => exact forall_mem_singleton.mpr horigin
  | add hdag horigin _ _ hprocess ih =>
    obtain ⟨data, window, -, -, rfl⟩ := HeaderProcessor.processHeader_eq_ok hprocess
    exact forall_mem_cons.mpr ⟨horigin, ih⟩

theorem exists_genesis (h : Built p admitted dag) : ∃ e ∈ dag, e.hash = p.genesisHash := by
  induction h with
  | genesis => exact ⟨_, mem_singleton_self _, rfl⟩
  | add _ _ _ _ hprocess ih =>
    obtain ⟨data, window, -, -, rfl⟩ := HeaderProcessor.processHeader_eq_ok hprocess
    obtain ⟨e, he, heq⟩ := ih
    exact ⟨e, mem_cons_of_mem _ he, heq⟩

theorem nodup (h : Built p admitted dag) : (dag.map BlockEntry.hash).Nodup := by
  induction h with
  | genesis => simp
  | add hdag _ hfresh _ hprocess ih =>
    obtain ⟨data, window, -, -, rfl⟩ := HeaderProcessor.processHeader_eq_ok hprocess
    rw [map_cons, nodup_cons]
    refine ⟨fun hmem => ?_, ih⟩
    obtain ⟨e, he, heq⟩ := mem_map.mp hmem
    exact hfresh e he heq

theorem eq_of_hash_eq (h : Built p admitted dag) (he : e ∈ dag) (hx : x ∈ dag)
    (heq : e.hash = x.hash) : e = x :=
  inj_on_of_nodup_map h.nodup he hx heq

theorem hash_ne_of_mem (h : Built p admitted (e :: dag)) (hx : x ∈ dag) : e.hash ≠ x.hash := by
  have hnodup := h.nodup
  rw [map_cons, nodup_cons] at hnodup
  exact fun heq => hnodup.1 (mem_map.mpr ⟨x, hx, heq.symm⟩)

theorem find?_of_mem (h : Built p admitted dag) (he : e ∈ dag) : dag.find? e.hash = some e := by
  cases hfind : dag.find? e.hash with
  | none => exact absurd (List.find?_eq_none.mp hfind e he) (by simp)
  | some x =>
    obtain ⟨hx, heq⟩ := Dag.find?_eq_some hfind
    rw [h.eq_of_hash_eq hx he heq]

theorem find?_cons_of_find? (h : Built p admitted (e :: dag)) (hx : dag.find? block = some x) :
    Dag.find? (e :: dag) block = some x := by
  obtain ⟨hmem, rfl⟩ := Dag.find?_eq_some hx
  exact h.find?_of_mem (mem_cons_of_mem e hmem)

theorem colors (h : Built p admitted dag) {parents : List BlockHash} {data : GhostdagData}
    (hdata : p.ghostdag dag parents = .ok data) : ∃ parent mergeset sources,
      GhostdagManager.Colors p.toGhostdagManager dag parents data parent mergeset sources :=
  GhostdagManager.ghostdag_eq_ok h.hash_ne_origin hdata

theorem mem_of_ghostdag (h : Built p admitted dag) {parents : List BlockHash} {data : GhostdagData}
    (hdata : p.ghostdag dag parents = .ok data) {q : BlockHash} (hq : q ∈ parents) :
    q ∈ dag.map BlockEntry.hash := by
  obtain ⟨parent, mergeset, sources, hcolors⟩ := h.colors hdata
  obtain ⟨-, selected, -, hstored⟩ := findSelectedParent_eq_ok hcolors.selected
  obtain ⟨x, hx, -⟩ := hstored q hq
  obtain ⟨hmem, rfl⟩ := Dag.find?_eq_some hx
  exact mem_map_of_mem hmem

theorem parent_mem (h : Built p admitted dag) (he : e ∈ dag) {q : BlockHash} (hq : q ∈ e.parents) :
    q ∈ dag.map BlockEntry.hash := by
  induction h with
  | genesis =>
    rw [mem_singleton.mp he] at hq
    cases hq
  | add hdag _ _ _ hprocess ih =>
    obtain ⟨data, window, hdata, -, rfl⟩ := HeaderProcessor.processHeader_eq_ok hprocess
    refine mem_cons_of_mem _ ?_
    rcases mem_cons.mp he with rfl | he
    · exact hdag.mem_of_ghostdag hdata hq
    · exact ih he

/-- What passes from the parents of a stored block to the block holds of all stored blocks. -/
theorem parents_induction (h : Built p admitted dag) {Q : BlockHash → Prop}
    (hstep : ∀ e ∈ dag, (∀ q ∈ e.parents, Q q) → Q e.hash) :
    ∀ b ∈ dag.map BlockEntry.hash, Q b := by
  induction h with
  | genesis => simpa [genesisEntry] using hstep
  | add hdag _ _ _ hprocess ih =>
    obtain ⟨data, window, hdata, -, rfl⟩ := HeaderProcessor.processHeader_eq_ok hprocess
    have hold := ih fun e he => hstep e (mem_cons_of_mem _ he)
    exact forall_mem_cons.mpr
      ⟨hstep _ mem_cons_self fun q hq => hold q (hdag.mem_of_ghostdag hdata hq), hold⟩

/-- The ancestors of a stored block are the block and the ancestors of its parents. -/
theorem isDagAncestorOf_iff (h : Built p admitted dag) {this : BlockHash} (he : e ∈ dag) :
    dag.isDagAncestorOf this e.hash ↔
      this = e.hash ∨ ∃ q ∈ e.parents, dag.isDagAncestorOf this q := by
  induction h with
  | genesis =>
    obtain rfl := mem_singleton.mp he
    rw [Dag.isDagAncestorOf, if_pos rfl, Bool.or_eq_true, decide_eq_true_iff]
    simp [genesisEntry]
  | @add dag dag' b hdag _ hfresh _ hprocess ih =>
    obtain ⟨data, window, hdata, -, rfl⟩ := HeaderProcessor.processHeader_eq_ok hprocess
    have hold : ∀ q ∈ dag.map BlockEntry.hash,
        Dag.isDagAncestorOf (⟨b.hash, b.parents, b.header, data, window⟩ :: dag) this q =
          dag.isDagAncestorOf this q := fun q hq => by
      obtain ⟨x, hx, rfl⟩ := mem_map.mp hq
      rw [Dag.isDagAncestorOf, if_neg (hfresh x hx).symm]
    rcases mem_cons.mp he with rfl | he
    · rw [Dag.isDagAncestorOf, if_pos rfl, Bool.or_eq_true, decide_eq_true_iff, any_eq_true]
      exact or_congr_right (exists_congr fun q => and_congr_right fun hq => by
        rw [hold q (hdag.mem_of_ghostdag hdata hq)])
    · rw [hold _ (mem_map_of_mem he), ih he]
      exact or_congr_right (exists_congr fun q => and_congr_right fun hq => by
        rw [hold q (hdag.parent_mem he hq)])

theorem isDagAncestorOf_self (h : Built p admitted dag) {x : BlockHash}
    (hx : x ∈ dag.map BlockEntry.hash) : dag.isDagAncestorOf x x := by
  obtain ⟨e, he, rfl⟩ := mem_map.mp hx
  exact (h.isDagAncestorOf_iff he).mpr (.inl rfl)

theorem isDagAncestorOf_trans (h : Built p admitted dag) {x y z : BlockHash}
    (hxy : dag.isDagAncestorOf x y) (hz : z ∈ dag.map BlockEntry.hash)
    (hyz : dag.isDagAncestorOf y z) : dag.isDagAncestorOf x z := by
  refine h.parents_induction (Q := fun b => dag.isDagAncestorOf y b → dag.isDagAncestorOf x b)
    (fun e he ih hye => ?_) z hz hyz
  rcases (h.isDagAncestorOf_iff he).mp hye with rfl | ⟨q, hq, hyq⟩
  · exact hxy
  · exact (h.isDagAncestorOf_iff he).mpr (.inr ⟨q, hq, ih q hq hyq⟩)

end Built

section Search

variable {p : HeaderProcessor} {admitted : Dag → BlockInput → Prop} {dag : Dag}
  {selectedParent current : BlockHash} {parents given todo : List BlockHash} {s : MergesetSearch}

def MergesetSearch.remaining (dag : Dag) (s : MergesetSearch) : ℕ :=
  s.queue.length + ((dag.map BlockEntry.hash).toFinset \ s.mergeset.toFinset).card

theorem MergesetSearch.remaining_visit_le {parent : BlockHash} (s : MergesetSearch)
    (hparent : parent ∈ dag.map BlockEntry.hash) :
    (s.visit dag selectedParent parent).remaining dag ≤ s.remaining dag := by
  unfold visit
  split_ifs with hseen
  · exact le_rfl
  · exact le_rfl
  · -- the parent leaves the unvisited blocks and joins the queue
    have hmem : parent ∈ (dag.map BlockEntry.hash).toFinset \ s.mergeset.toFinset := by simp_all
    have hcard := Finset.card_erase_add_one hmem
    rw [← Finset.sdiff_insert] at hcard
    simp [remaining]
    omega

theorem MergesetSearch.remaining_foldl_visit_le (s : MergesetSearch)
    (hparents : ∀ q ∈ parents, q ∈ dag.map BlockEntry.hash) :
    (parents.foldl (visit dag selectedParent) s).remaining dag ≤ s.remaining dag :=
  foldlRecOn (motive := (remaining dag · ≤ s.remaining dag)) parents _ le_rfl fun t ht q hq =>
    (t.remaining_visit_le (hparents q hq)).trans ht

/-- What the search has before it: the blocks it found, those of them whose parents are to be
visited, and of `current`, taken from the queue, the parents `todo`. -/
structure Searches (dag : Dag) (selectedParent : BlockHash) (given : List BlockHash)
    (current : BlockHash) (todo : List BlockHash) (s : MergesetSearch) : Prop where
  stored : ∀ x ∈ s.mergeset, x ∈ dag.map BlockEntry.hash
  queued : ∀ x ∈ s.queue, x ∈ s.mergeset
  past : ∀ x ∈ s.past, dag.isDagAncestorOf x selectedParent
  starts : ∀ x ∈ given, x ∈ s.mergeset
  found : ∀ x ∈ s.mergeset, x ∈ given ∨
    (∃ q ∈ given, dag.isDagAncestorOf x q) ∧ ¬dag.isDagAncestorOf x selectedParent
  closed : ∀ e ∈ dag, e.hash ∈ s.mergeset → e.hash ∈ s.queue ∨ ∀ q ∈ e.parents,
    q ∈ s.mergeset ∨ dag.isDagAncestorOf q selectedParent ∨ e.hash = current ∧ q ∈ todo

namespace Searches

theorem start (h : ∀ q ∈ given, q ∈ dag.map BlockEntry.hash) :
    Searches dag selectedParent given current [] ⟨given, given.dedup, []⟩ where
  stored x hx := h x (mem_dedup.mp hx)
  queued _ := mem_dedup.mpr
  past := nofun
  starts _ := mem_dedup.mpr
  found _ hx := .inl (mem_dedup.mp hx)
  closed _ _ hx := .inl (mem_dedup.mp hx)

theorem visit {q : BlockHash} (h : Searches dag selectedParent given current (q :: todo) s)
    (hq : q ∈ dag.map BlockEntry.hash) (hgiven : ∃ x ∈ given, dag.isDagAncestorOf q x) :
    Searches dag selectedParent given current todo (s.visit dag selectedParent q) := by
  unfold MergesetSearch.visit
  split_ifs with hseen hpast
  · refine { h with closed := fun e he hmem => (h.closed e he hmem).imp_right fun hold x hx => ?_ }
    have hqpast := h.past q
    have hold := hold x hx
    grind
  · refine { h with
      past := forall_mem_cons.mpr ⟨hpast, h.past⟩
      closed := fun e he hmem => (h.closed e he hmem).imp_right fun hold x hx => ?_ }
    have hold := hold x hx
    grind
  · constructor
    · exact forall_mem_append.mpr ⟨h.stored, by simpa using hq⟩
    · have hqueued := h.queued
      grind
    · exact h.past
    · exact fun x hx => mem_append_left _ (h.starts x hx)
    · have hfound := h.found
      grind
    · have hclosed := h.closed
      grind

theorem foldl_visit (h : Searches dag selectedParent given current todo s)
    (htodo : ∀ q ∈ todo, q ∈ dag.map BlockEntry.hash ∧ ∃ x ∈ given, dag.isDagAncestorOf q x) :
    Searches dag selectedParent given current []
      (todo.foldl (MergesetSearch.visit dag selectedParent) s) := by
  induction todo generalizing s with
  | nil => exact h
  | cons q todo ih =>
    obtain ⟨⟨hq, hgiven⟩, htodo⟩ := forall_mem_cons.mp htodo
    exact ih (h.visit hq hgiven) htodo

/-- The next block of the queue is taken and its parents are to be visited. -/
theorem pop {queue : List BlockHash} (h : Searches dag selectedParent given current [] s)
    (hs : s.queue = e.hash :: queue) (hdag : Built p admitted dag) (he : e ∈ dag) :
    Searches dag selectedParent given e.hash e.parents { s with queue } := by
  refine { h with queued := fun x hx => h.queued x (hs ▸ mem_cons_of_mem _ hx), closed := ?_ }
  intro x hx hmem
  rcases h.closed x hx hmem with hqueue | hold
  · rw [hs] at hqueue
    rcases mem_cons.mp hqueue with heq | hqueue
    · cases hdag.eq_of_hash_eq hx he heq
      exact .inr fun q hq => .inr (.inr ⟨rfl, hq⟩)
    · exact .inl hqueue
  · exact .inr fun q hq => (hold q hq).imp_right (.imp_right fun ⟨_, htodo⟩ => nomatch htodo)

/-- When the queue is empty the search has found the mergeset. -/
theorem mem_mergeset_iff (h : Searches dag selectedParent given current [] s) (hs : s.queue = [])
    (hdag : Built p admitted dag) (hselected : selectedParent ∈ dag.map BlockEntry.hash)
    {x : BlockHash} :
    x ∈ s.mergeset ↔ x ∈ given ∨
      (∃ q ∈ given, dag.isDagAncestorOf x q) ∧ ¬dag.isDagAncestorOf x selectedParent := by
  refine ⟨h.found x, ?_⟩
  rintro (hx | ⟨⟨q, hq, hxq⟩, hout⟩)
  · exact h.starts x hx
  -- down the parents from a given block to one of its ancestors, none in the past
  · refine hdag.parents_induction
      (Q := fun b => b ∈ s.mergeset → dag.isDagAncestorOf x b → x ∈ s.mergeset)
      (fun e he ih hmem hxe => ?_) q (h.stored q (h.starts q hq)) (h.starts q hq) hxq
    rcases (hdag.isDagAncestorOf_iff he).mp hxe with rfl | ⟨z, hz, hxz⟩
    · exact hmem
    · rcases h.closed e he hmem with hqueue | hclosed
      · simp [hs] at hqueue
      · rcases hclosed z hz with hzmem | hpast | ⟨-, htodo⟩
        · exact ih z hz hzmem hxz
        · exact absurd (hdag.isDagAncestorOf_trans hxz hselected hpast) hout
        · cases htodo

end Searches

theorem exists_mergesetLoop_eq_ok (hdag : Built p admitted dag)
    (hselected : selectedParent ∈ dag.map BlockEntry.hash) {fuel : ℕ}
    (h : Searches dag selectedParent given current [] s) (hfuel : s.remaining dag ≤ fuel) :
    ∃ mergeset, mergesetLoop dag selectedParent fuel s = .ok mergeset ∧ ∀ x, x ∈ mergeset ↔
      x ∈ given ∨
        (∃ q ∈ given, dag.isDagAncestorOf x q) ∧ ¬dag.isDagAncestorOf x selectedParent := by
  induction fuel generalizing s current with
  | zero =>
    rw [MergesetSearch.remaining] at hfuel
    have hs : s.queue = [] := length_eq_zero_iff.mp (by omega)
    exact ⟨s.mergeset, if_pos hs, fun x => h.mem_mergeset_iff hs hdag hselected⟩
  | succ fuel ih =>
    rw [mergesetLoop]
    cases hs : s.queue with
    | nil => exact ⟨s.mergeset, rfl, fun x => h.mem_mergeset_iff hs hdag hselected⟩
    | cons current queue =>
      have hcurrent := h.queued current (hs ▸ mem_cons_self)
      obtain ⟨e, he, rfl⟩ := mem_map.mp (h.stored _ hcurrent)
      have hstored := fun q => hdag.parent_mem he (q := q)
      simp only [Dag.get_eq_ok.mpr (hdag.find?_of_mem he)]
      refine ih ((h.pop hs hdag he).foldl_visit fun q hq => ⟨hstored q hq, ?_⟩)
        ((MergesetSearch.remaining_foldl_visit_le _ hstored).trans ?_)
      · have hqe := (hdag.isDagAncestorOf_iff he).mpr
          (.inr ⟨q, hq, hdag.isDagAncestorOf_self (hstored q hq)⟩)
        rcases h.found _ hcurrent with hgiven | ⟨⟨x, hx, hex⟩, -⟩
        · exact ⟨e.hash, hgiven, hqe⟩
        · exact ⟨x, hx, hdag.isDagAncestorOf_trans hqe (h.stored x (h.starts x hx)) hex⟩
      · rw [MergesetSearch.remaining, hs, length_cons] at hfuel
        dsimp only [MergesetSearch.remaining]
        omega

end Search

def sampleProcessor (scale : Fin (2 ^ 64)) : HeaderProcessor where
  genesisHash := 1
  k := 3
  palwActivationDaaScore := 0
  palwComputeWorkScale := scale
  scale_lt := scale.isLt
  palwNullifierRetentionDaa := 2
  difficultyFullWindowSize := 10

def hashHeader (daaScore : ℕ) : BlockHeader := ⟨0x207fffff, daaScore, 3, 0⟩

def replicaHeader (daaScore nullifier : ℕ) : BlockHeader :=
  ⟨0x207fffff, daaScore, POW_ALGO_ID_PALW_REPLICA, nullifier⟩

def sampleDag (scale : Fin (2 ^ 64)) (check : Dag → BlockInput → Bool) (inputs : List BlockInput) :
    Except GhostdagFault Dag :=
  (sampleProcessor scale).processHeaders check
    [genesisEntry (sampleProcessor scale) (hashHeader 0)] inputs

theorem exists_built_sampleDag {scale : Fin (2 ^ 64)} {admitted : Dag → BlockInput → Prop}
    {Q : Dag → Prop} (check : Dag → BlockInput → Bool) (inputs : List BlockInput)
    (hcheck : ∀ dag b, check dag b = true → admitted dag b)
    (h : ∃ dag, sampleDag scale check inputs = .ok dag ∧ Q dag) :
    ∃ dag, Built (sampleProcessor scale) admitted dag ∧ Q dag := by
  obtain ⟨dag, hdag, hQ⟩ := h
  have horigin : (1 : BlockHash) ≠ ORIGIN := by decide +kernel
  exact ⟨dag, (Built.genesis horigin).processHeaders hcheck hdag, hQ⟩

/-- Over stored blocks the search ends and finds the mergeset: the given parents beside the selected
one and their ancestors outside its past. -/
theorem unorderedMergeset_search_exact {p : HeaderProcessor} {admitted : Dag → BlockInput → Prop}
    {dag : Dag} (hdag : Built p admitted dag) (selectedParent : BlockHash)
    (parents : List BlockHash) (hselected : selectedParent ∈ dag.map BlockEntry.hash)
    (hparents : ∀ q ∈ parents, q ∈ dag.map BlockEntry.hash) :
    ∃ mergeset, unorderedMergesetWithoutSelectedParent dag selectedParent parents = .ok mergeset ∧
      ∀ x, x ∈ mergeset ↔ x ∈ parents ∧ x ≠ selectedParent ∨
        (∃ q ∈ parents, q ≠ selectedParent ∧ dag.isDagAncestorOf x q) ∧
          ¬dag.isDagAncestorOf x selectedParent := by
  let given := parents.filter (· ≠ selectedParent)
  have hstart : Searches dag selectedParent given ORIGIN [] ⟨given, given.dedup, []⟩ :=
    .start fun q hq => hparents q (mem_of_mem_filter hq)
  have hfuel : MergesetSearch.remaining dag ⟨given, given.dedup, []⟩ ≤
      dag.length + parents.length := by
    rw [add_comm, ← length_map BlockEntry.hash]
    exact Nat.add_le_add (length_filter_le ..)
      ((Finset.card_le_card Finset.sdiff_subset).trans (toFinset_card_le _))
  obtain ⟨mergeset, hloop, hmem⟩ := exists_mergesetLoop_eq_ok hdag hselected hstart hfuel
  exact ⟨mergeset, hloop, fun x => by simpa [given, and_assoc] using hmem x⟩

/-- Blocks 5 over 9 and 8 side by side over genesis: a block over 8 and 5 merges 5 and 9. -/
theorem unorderedMergeset_search_merges : ∃ dag mergeset, dag.map BlockEntry.hash = [8, 5, 9, 1] ∧
    unorderedMergesetWithoutSelectedParent dag 8 [8, 5] = .ok mergeset ∧
    5 ∈ mergeset ∧ 9 ∈ mergeset ∧ 1 ∉ mergeset := by
  obtain ⟨dag, hdag, hhashes, h95, h98, h18⟩ : ∃ dag,
      Built (sampleProcessor 0) (fun _ _ => True) dag ∧
      dag.map BlockEntry.hash = [8, 5, 9, 1] ∧ dag.isDagAncestorOf 9 5 = true ∧
      dag.isDagAncestorOf 9 8 = false ∧ dag.isDagAncestorOf 1 8 = true :=
    exists_built_sampleDag (fun _ _ => true) [⟨9, [1], hashHeader 0⟩, ⟨5, [9], hashHeader 1⟩,
      ⟨8, [1], hashHeader 0⟩] (fun _ _ _ => trivial) (by decide +kernel)
  obtain ⟨mergeset, hsearch, hmem⟩ := unorderedMergeset_search_exact hdag 8 [8, 5]
    (by simp [hhashes]) (by simp [hhashes])
  exact ⟨dag, mergeset, hhashes, hsearch, by simp [hmem], by simp [hmem, h95, h98],
    by simp [hmem, h18]⟩

def chainFold {β : Type} (f : Dag → BlockEntry → β → β) (init : β) : Dag → BlockHash → β
  | [], _ => init
  | e :: older, block =>
    if e.hash = block then f older e (chainFold f init older e.data.selectedParent)
    else chainFold f init older block

@[simp] theorem chainFold_cons_self {β : Type} (f : Dag → BlockEntry → β → β) (init : β)
    (e : BlockEntry) (dag : Dag) :
    chainFold f init (e :: dag) e.hash = f dag e (chainFold f init dag e.data.selectedParent) := by
  rw [chainFold, if_pos rfl]

theorem chainFold_of_find?_eq_none {β : Type} (f : Dag → BlockEntry → β → β) (init : β) {dag : Dag}
    (h : dag.find? block = none) : chainFold f init dag block = init := by
  induction dag with
  | nil => rfl
  | cons e dag ih =>
    rw [Dag.find?_cons] at h
    split at h
    · cases h
    · next hne =>
      rw [chainFold, if_neg hne]
      exact ih h

theorem chainFold_cons_of_ne {β : Type} (f : Dag → BlockEntry → β → β) (init : β)
    (h : e.hash ≠ block) (dag : Dag) :
    chainFold f init (e :: dag) block = chainFold f init dag block := by
  rw [chainFold, if_neg h]

end Misaka.Ghostdag
