import Misaka.Chain.Transaction
import Misaka.Core.Fallible
import Misaka.Core.Table

/-!
# UTXO views and diffs

The UTXO algebra of `consensus/core/src/utxo`: a diff of added and removed entries over a base view,
with the two guarded edits, and the multiset whose digest headers commit to.
-/

namespace Misaka

open Misaka.Core List Finmap

structure UtxoEntry where
  amount : ℕ
  scriptPublicKey : ScriptPublicKey
  blockDaaScore : ℕ
  isCoinbase : Bool
  deriving DecidableEq, Repr, Inhabited

abbrev UtxoCollection := Table TransactionOutpoint UtxoEntry

abbrev UtxoView := TransactionOutpoint → Option UtxoEntry

structure UtxoDiff where
  add : UtxoCollection
  remove : UtxoCollection
  deriving DecidableEq

/-- `ComposedUtxoView`: added entries win, removed outpoints hide the base. -/
def compose (base : UtxoView) (diff : UtxoDiff) : UtxoView := fun o =>
  match diff.add.lookup o with
  | some entry => some entry
  | none => if (diff.remove.lookup o).isSome then none else base o

def containsWithDaaScore (c : UtxoCollection) (o : TransactionOutpoint) (daa : ℕ) : Bool :=
  (c.lookup o).any (·.blockDaaScore == daa)

inductive UtxoAlgebraError where
  | doubleRemoveCall (o : TransactionOutpoint)
  | doubleAddCall (o : TransactionOutpoint)
  deriving DecidableEq, Repr

def Transaction.createdUtxos (tx : Transaction) (txId : TransactionId) (daaScore : ℕ) :
    List (TransactionOutpoint × UtxoEntry) :=
  tx.outputs.zipIdx.map fun p =>
    (⟨txId, p.2⟩, ⟨p.1.value, p.1.scriptPublicKey, daaScore, tx.isCoinbase⟩)

namespace UtxoDiff

/-- A spend: of an entry the diff adds, or of one of the base. -/
def removeEntry (diff : UtxoDiff) (o : TransactionOutpoint) (entry : UtxoEntry) :
    Except UtxoAlgebraError UtxoDiff :=
  if containsWithDaaScore diff.add o entry.blockDaaScore then
    .ok { diff with add := diff.add.erase o }
  else if (diff.remove.lookup o).isNone then .ok { diff with remove := diff.remove.insert o entry }
  else .error (.doubleRemoveCall o)

/-- A new entry, or one the diff removes that comes back. -/
def addEntry (diff : UtxoDiff) (o : TransactionOutpoint) (entry : UtxoEntry) :
    Except UtxoAlgebraError UtxoDiff :=
  if containsWithDaaScore diff.remove o entry.blockDaaScore then
    .ok { diff with remove := diff.remove.erase o }
  else if (diff.add.lookup o).isNone then .ok { diff with add := diff.add.insert o entry }
  else .error (.doubleAddCall o)

def empty : UtxoDiff := ⟨∅, ∅⟩

/-- Spends the inputs, then creates the outputs. -/
def addTransaction (diff : UtxoDiff) (txId : TransactionId) (tx : Transaction)
    (entries : List UtxoEntry) (daaScore : ℕ) : Except UtxoAlgebraError UtxoDiff := do
  let spent ← (tx.inputs.zip entries).foldlM
    (fun d p => d.removeEntry p.1.previousOutpoint p.2) diff
  (tx.createdUtxos txId daaScore).foldlM (fun d p => d.addEntry p.1 p.2) spent

variable {base : UtxoView} {diff : UtxoDiff} {o : TransactionOutpoint} {entry : UtxoEntry}

structure EditsOnly (base : UtxoView) (diff diff' : UtxoDiff) (o : TransactionOutpoint) : Prop where
  compose_eq : ∀ o', o' ≠ o → compose base diff' o' = compose base diff o'
  add_eq : ∀ o', o' ≠ o → diff'.add.lookup o' = diff.add.lookup o'

theorem removeEntry_of_compose (h : compose base diff o = some entry) :
    ∃ diff', diff.removeEntry o entry = .ok diff' ∧ EditsOnly base diff diff' o := by
  unfold removeEntry
  unfold compose at h
  split at h
  · next e he =>
    obtain rfl : e = entry := Option.some.inj h
    rw [if_pos (by simp [containsWithDaaScore, he])]
    refine ⟨_, rfl, ⟨fun o' ho' => ?_, fun o' ho' => lookup_erase_ne ho'⟩⟩
    simp only [compose, lookup_erase_ne ho']
  · next hadd =>
    split at h
    · cases h
    · next hremove =>
      rw [if_neg (by simp [containsWithDaaScore, hadd]), if_pos (by simpa using hremove)]
      refine ⟨_, rfl, ⟨fun o' ho' => ?_, fun _ _ => rfl⟩⟩
      simp only [compose, lookup_insert_of_ne diff.remove ho']

theorem addEntry_of_free (h : diff.add.lookup o = none) :
    ∃ diff', diff.addEntry o entry = .ok diff' ∧ EditsOnly base diff diff' o := by
  unfold addEntry
  split
  · refine ⟨_, rfl, ⟨fun o' ho' => ?_, fun _ _ => rfl⟩⟩
    simp only [compose, lookup_erase_ne ho']
  · rw [if_pos (by simp [h])]
    refine ⟨_, rfl, ⟨fun o' ho' => ?_, fun o' ho' => lookup_insert_of_ne diff.add ho'⟩⟩
    simp only [compose, lookup_insert_of_ne diff.add ho']

end UtxoDiff

/-- The UTXO multiset, as the elements multiplied in and divided out; its digest is a function of
their quotient. -/
structure MuHash where
  added : Multiset (TransactionOutpoint × UtxoEntry)
  removed : Multiset (TransactionOutpoint × UtxoEntry)

namespace MuHash

def empty : MuHash := ⟨0, 0⟩

def addUtxo (m : MuHash) (o : TransactionOutpoint) (entry : UtxoEntry) : MuHash :=
  { m with added := m.added + {(o, entry)} }

def removeUtxo (m : MuHash) (o : TransactionOutpoint) (entry : UtxoEntry) : MuHash :=
  { m with removed := m.removed + {(o, entry)} }

def combine (m m' : MuHash) : MuHash := ⟨m.added + m'.added, m.removed + m'.removed⟩

def ofTransaction (txId : TransactionId) (tx : Transaction) (entries : List UtxoEntry)
    (daaScore : ℕ) : MuHash where
  added := tx.createdUtxos txId daaScore
  removed := ((tx.inputs.zip entries).map fun p => (p.1.previousOutpoint, p.2) : List _)

end MuHash

def entriesValue (es : Multiset (TransactionOutpoint × UtxoEntry)) : ℕ :=
  (es.map (·.2.amount)).sum

@[simp] theorem entriesValue_add (a b : Multiset (TransactionOutpoint × UtxoEntry)) :
    entriesValue (a + b) = entriesValue a + entriesValue b := by
  simp [entriesValue]

@[simp] theorem entriesValue_singleton (e : TransactionOutpoint × UtxoEntry) :
    entriesValue {e} = e.2.amount := by
  simp [entriesValue]

def SupplyFits (view : UtxoView) : Prop :=
  ∀ os : List TransactionOutpoint, os.Nodup →
    ((os.filterMap view).map (·.amount)).sum < U64_MAX

theorem supplyFits_of_single {view : UtxoView} {o : TransactionOutpoint} {entry : UtxoEntry}
    (ho : view o = some entry) (hne : ∀ o', o' ≠ o → view o' = none)
    (hfit : entry.amount < U64_MAX) : SupplyFits view := by
  intro os hos
  induction os with
  | nil => exact Nat.lt_of_le_of_lt (Nat.zero_le _) hfit
  | cons a as ih =>
    obtain ⟨ha, has⟩ := nodup_cons.mp hos
    by_cases heq : a = o
    · subst heq
      have hrest : as.filterMap view = [] :=
        filterMap_eq_nil_iff.mpr fun o' ho' => hne o' fun h => ha (h ▸ ho')
      rw [filterMap_cons_some ho, hrest]
      simpa using hfit
    · rw [filterMap_cons_none (hne a heq)]
      exact ih has

end Misaka
