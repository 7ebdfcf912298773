import Mathlib.Algebra.Order.BigOperators.Group.Multiset
import Mathlib.Algebra.Order.Ring.Nat
import Mathlib.Data.Finmap

/-!
# Tables edited in place

A `Table` is a finite map in the sense of Mathlib's `Finmap`, with the operations of a mutable hash
map: `adjust` edits one row if it is present, `mapVal` rewrites every value, and `values` is the bag
of stored values, which a listing enumerates in some order.
-/

namespace Misaka.Core

open List Option Finmap

abbrev Table (α : Type*) (β : Type*) := Finmap fun _ : α => β

namespace Table

variable {α β γ : Type*}

def mapVal (f : β → γ) (m : Table α β) : Table α γ where
  entries := m.entries.map fun e => ⟨e.1, f e.2⟩
  nodupKeys := by
    rw [← Multiset.nodup_keys]
    have hkeys : (m.entries.map fun e => (⟨e.1, f e.2⟩ : Σ _ : α, γ)).keys = m.entries.keys := by
      simp [Multiset.keys]
    rw [hkeys]
    exact Multiset.nodup_keys.mpr m.nodupKeys

def values (m : Table α β) : Multiset β := m.entries.map Sigma.snd

@[simp] theorem values_mapVal (f : β → γ) (m : Table α β) :
    (m.mapVal f).values = m.values.map f := by
  simp [values, mapVal]

def filterKeys (p : α → Prop) [DecidablePred p] (m : Table α β) : Table α β where
  entries := m.entries.filter fun e => p e.1
  nodupKeys := by
    rw [← Multiset.nodup_keys]
    exact Multiset.nodup_of_le (Multiset.map_le_map (Multiset.filter_le _ _))
      (Multiset.nodup_keys.mpr m.nodupKeys)

def filterRows (p : α → β → Bool) (m : Table α β) : Table α β where
  entries := m.entries.filter fun e => p e.1 e.2
  nodupKeys := by
    rw [← Multiset.nodup_keys]
    exact Multiset.nodup_of_le (Multiset.map_le_map (Multiset.filter_le _ _))
      (Multiset.nodup_keys.mpr m.nodupKeys)

def rowsAll (p : α → β → Bool) (m : Table α β) : Bool := decide (∀ e ∈ m.entries, p e.1 e.2)

def size (m : Table α β) : ℕ := m.entries.card

theorem card_keys (m : Table α β) : m.keys.card = m.size := by
  simp [Finmap.keys, size, Multiset.keys]

theorem size_filterRows_le (p : α → β → Bool) (m : Table α β) :
    (m.filterRows p).size ≤ m.size :=
  Multiset.card_le_card (Multiset.filter_le _ _)

section DecidableKeys

variable [DecidableEq α]

def adjust (k : α) (f : β → β) (m : Table α β) : Table α β :=
  match m.lookup k with
  | none => m
  | some v => m.insert k (f v)

@[simp] theorem lookup_mapVal (f : β → γ) (m : Table α β) (k : α) :
    (m.mapVal f).lookup k = (m.lookup k).map f := by
  ext c
  simp only [Finmap.lookup_eq_some_iff, map_eq_some_iff, mapVal, Multiset.mem_map]
  constructor
  · rintro ⟨⟨k', v⟩, hmem, heq⟩
    obtain ⟨rfl, rfl⟩ : k' = k ∧ f v = c := by simpa using heq
    exact ⟨v, hmem, rfl⟩
  · rintro ⟨v, hmem, rfl⟩
    exact ⟨⟨k, v⟩, hmem, rfl⟩

@[simp] theorem keys_mapVal (f : β → γ) (m : Table α β) : (m.mapVal f).keys = m.keys := by
  ext k
  rw [Finmap.mem_keys, Finmap.mem_keys, ← Finmap.lookup_isSome, ← Finmap.lookup_isSome,
    lookup_mapVal, isSome_map]

theorem lookup_insert_eq (m : Table α β) (k k' : α) (v : β) :
    (m.insert k v).lookup k' = if k' = k then some v else m.lookup k' := by
  by_cases h : k' = k
  · subst h
    simp
  · simp [h, lookup_insert_of_ne]

theorem lookup_erase_eq (m : Table α β) (k k' : α) :
    (m.erase k).lookup k' = if k' = k then none else m.lookup k' := by
  by_cases h : k' = k
  · subst h
    simp
  · simp [h, lookup_erase_ne]

theorem lookup_adjust_eq (m : Table α β) (k k' : α) (f : β → β) :
    (m.adjust k f).lookup k' = if k' = k then (m.lookup k).map f else m.lookup k' := by
  unfold adjust
  cases hk : m.lookup k with
  | none =>
    by_cases h : k' = k
    · subst h
      simpa using hk
    · simp [h]
  | some v => simp [lookup_insert_eq]

theorem lookup_adjust_of_ne (m : Table α β) {k k' : α} (f : β → β) (h : k' ≠ k) :
    (m.adjust k f).lookup k' = m.lookup k' := by
  rw [lookup_adjust_eq, if_neg h]

theorem mapVal_insert (f : β → γ) (m : Table α β) (k : α) (v : β) :
    mapVal f (m.insert k v) = (m.mapVal f).insert k (f v) := by
  apply ext_lookup
  intro k'
  rw [lookup_mapVal, lookup_insert_eq, lookup_insert_eq, lookup_mapVal]
  split <;> rfl

theorem mapVal_erase (f : β → γ) (m : Table α β) (k : α) :
    mapVal f (m.erase k) = (m.mapVal f).erase k := by
  apply ext_lookup
  intro k'
  rw [lookup_mapVal, lookup_erase_eq, lookup_erase_eq, lookup_mapVal]
  split <;> rfl

theorem mapVal_adjust {f : β → γ} {g : β → β} {g' : γ → γ} (m : Table α β) (k : α)
    (hg : ∀ v, f (g v) = g' (f v)) :
    mapVal f (m.adjust k g) = (m.mapVal f).adjust k g' := by
  apply ext_lookup
  intro k'
  rw [lookup_mapVal, lookup_adjust_eq, lookup_adjust_eq, lookup_mapVal, lookup_mapVal]
  split
  · cases m.lookup k with
    | none => rfl
    | some v => simp [hg]
  · rfl

theorem mapVal_mapVal {δ : Type*} (f : β → γ) (g : γ → δ) (m : Table α β) :
    (m.mapVal f).mapVal g = m.mapVal (g ∘ f) := by
  apply ext_lookup
  intro k
  simp

theorem lookup_filterKeys (p : α → Prop) [DecidablePred p] (m : Table α β) (k : α) :
    (m.filterKeys p).lookup k = if p k then m.lookup k else none := by
  ext v
  simp only [Finmap.lookup_eq_some_iff, filterKeys, Multiset.mem_filter]
  split
  · next hp => simp [hp, Finmap.lookup_eq_some_iff]
  · next hp => simp [hp]

theorem lookup_filterRows (p : α → β → Bool) (m : Table α β) (k : α) :
    (m.filterRows p).lookup k = (m.lookup k).filter (p k) := by
  ext v
  simp only [filter_eq_some_iff, Finmap.lookup_eq_some_iff, filterRows, Multiset.mem_filter]

theorem lookup_union (m n : Table α β) (k : α) :
    Finmap.lookup k (m ∪ n) = (m.lookup k).or (n.lookup k) := by
  cases hm : m.lookup k with
  | none => rw [lookup_union_right (lookup_eq_none.mp hm), none_or]
  | some v => rw [lookup_union_left (mem_of_lookup_eq_some hm), hm, some_or]

theorem rowsAll_iff {p : α → β → Bool} {m : Table α β} :
    m.rowsAll p = true ↔ ∀ k v, m.lookup k = some v → p k v = true := by
  simp only [rowsAll, decide_eq_true_eq, Finmap.lookup_eq_some_iff]
  exact ⟨fun h k v hmem => h ⟨k, v⟩ hmem, fun h e hmem => h e.1 e.2 hmem⟩

theorem mem_values {m : Table α β} {v : β} : v ∈ m.values ↔ ∃ k, m.lookup k = some v := by
  simp only [values, Multiset.mem_map, Finmap.lookup_eq_some_iff]
  constructor
  · rintro ⟨⟨k, _⟩, hmem, rfl⟩
    exact ⟨k, hmem⟩
  · rintro ⟨k, hmem⟩
    exact ⟨⟨k, v⟩, hmem, rfl⟩

/-- Write the rows of `source` at the given keys, deletions included; other rows stay. -/
def overwrite (m source : Table α β) (ks : Finset α) : Table α β :=
  source.filterKeys (· ∈ ks) ∪ m.filterKeys (· ∉ ks)

theorem lookup_overwrite (m source : Table α β) (ks : Finset α) (k : α) :
    (m.overwrite source ks).lookup k = if k ∈ ks then source.lookup k else m.lookup k := by
  unfold overwrite
  by_cases hk : k ∈ ks
  · by_cases hmem : k ∈ source.filterKeys (· ∈ ks)
    · rw [lookup_union_left hmem, lookup_filterKeys, if_pos hk, if_pos hk]
    · rw [lookup_union_right hmem, lookup_filterKeys]
      have hnone := lookup_eq_none.mpr hmem
      rw [lookup_filterKeys] at hnone
      simp_all
  · have hmem : k ∉ source.filterKeys (· ∈ ks) := by
      rw [← lookup_eq_none, lookup_filterKeys]
      simp [hk]
    rw [lookup_union_right hmem, lookup_filterKeys]
    simp [hk]

def insertAll (key : β → α) (rows : List β) (m : Table α β) : Table α β :=
  rows.foldl (fun m v => m.insert (key v) v) m

theorem lookup_insertAll_of_ne {key : β → α} {rows : List β} {m : Table α β} {k : α}
    (h : ∀ v ∈ rows, key v ≠ k) : (insertAll key rows m).lookup k = m.lookup k := by
  unfold insertAll
  induction rows generalizing m with
  | nil => rfl
  | cons v rows ih =>
    rw [foldl_cons, ih (forall_mem_cons.mp h).2, lookup_insert_eq,
      if_neg (h v mem_cons_self).symm]

theorem lookup_insertAll {key : β → α} {rows : List β} {m : Table α β} {k : α} {v : β}
    (h : (insertAll key rows m).lookup k = some v) :
    v ∈ rows ∧ key v = k ∨ m.lookup k = some v := by
  induction rows generalizing m with
  | nil => exact .inr h
  | cons w rows ih =>
    rcases ih h with ⟨hmem, hkey⟩ | hrow
    · exact .inl ⟨mem_cons_of_mem w hmem, hkey⟩
    · rw [lookup_insert_eq] at hrow
      split at hrow
      · next hk =>
        cases Option.some.inj hrow
        exact .inl ⟨mem_cons_self, hk.symm⟩
      · exact .inr hrow

theorem erase_insert_of_lookup_none {m : Table α β} {k : α} {v : β} (h : m.lookup k = none) :
    (m.insert k v).erase k = m := by
  apply ext_lookup
  intro k'
  rw [lookup_erase_eq, lookup_insert_eq]
  by_cases hk : k' = k
  · rw [hk, h]
    simp
  · simp [hk]

theorem adjust_adjust (m : Table α β) (k : α) (f g : β → β) :
    (m.adjust k f).adjust k g = m.adjust k (g ∘ f) := by
  apply ext_lookup
  intro k'
  simp only [lookup_adjust_eq]
  split <;> simp

theorem adjust_eq_self {m : Table α β} {k : α} {f : β → β}
    (h : ∀ v, m.lookup k = some v → f v = v) : m.adjust k f = m := by
  apply ext_lookup
  intro k'
  rw [lookup_adjust_eq]
  split
  · next hk =>
    subst hk
    cases hv : m.lookup k' with
    | none => rfl
    | some v => simp [h v hv]
  · rfl

theorem keys_insert (m : Table α β) (k : α) (v : β) : (m.insert k v).keys = insert k m.keys := by
  ext k'
  simp [Finmap.mem_keys]

theorem keys_insertAll (key : β → α) (rows : List β) (m : Table α β) :
    (insertAll key rows m).keys = m.keys ∪ (rows.map key).toFinset := by
  unfold insertAll
  induction rows generalizing m with
  | nil => simp
  | cons b rows ih =>
    rw [foldl_cons, ih, keys_insert, map_cons, toFinset_cons, Finset.insert_union,
      Finset.union_insert]

theorem mem_of_lookup_insertAll {key : β → α} {rows : List β} {k : α} {v : β}
    (h : (insertAll key rows ∅).lookup k = some v) : v ∈ rows ∧ key v = k :=
  (lookup_insertAll h).resolve_right fun hnone => nomatch hnone

theorem exists_lookup_insertAll (key : β → α) {rows : List β} {b : β} (hb : b ∈ rows) :
    ∃ c ∈ rows, key c = key b ∧ (insertAll key rows ∅).lookup (key b) = some c := by
  have hmem : key b ∈ (insertAll key rows ∅).keys := by
    rw [keys_insertAll]
    exact Finset.mem_union_right _ (mem_toFinset.mpr (mem_map_of_mem hb))
  obtain ⟨c, hc⟩ := mem_iff.mp (Finmap.mem_keys.mp hmem)
  obtain ⟨hrow, hkey⟩ := mem_of_lookup_insertAll hc
  exact ⟨c, hrow, hkey, hc⟩

theorem size_insert_of_some {m : Table α β} {k : α} {v : β} (w : β) (h : m.lookup k = some v) :
    size (m.insert k w) = m.size := by
  rw [← card_keys, keys_insert, Finset.insert_eq_of_mem, card_keys]
  rw [Finmap.mem_keys, ← Finmap.lookup_isSome, h]
  rfl

theorem size_insert_le (m : Table α β) (k : α) (v : β) : size (m.insert k v) ≤ m.size + 1 := by
  rw [← card_keys, keys_insert, ← card_keys]
  exact Finset.card_insert_le k m.keys

theorem values_insert_of_none {m : Table α β} {k : α} (v : β) (h : m.lookup k = none) :
    values (m.insert k v) = v ::ₘ m.values := by
  rw [values, entries_insert_of_notMem (lookup_eq_none.mp h)]
  simp [values]

theorem sum_values_insert (m : Table α β) (k : α) (v : β) (f : β → ℕ) :
    ((values (m.insert k v)).map f).sum + (m.lookup k).elim 0 f = (m.values.map f).sum + f v := by
  cases hk : m.lookup k with
  | none => simp [values_insert_of_none v hk, Nat.add_comm]
  | some w =>
    -- both tables are one row over the rest
    have hrest : (m.erase k).lookup k = none := lookup_erase k m
    have hself : (m.erase k).insert k w = m := by
      apply ext_lookup
      intro k'
      rw [lookup_insert_eq, lookup_erase_eq]
      split
      · next heq => rw [heq, hk]
      · rfl
    have hnew : m.insert k v = (m.erase k).insert k v := by
      conv_lhs => rw [← hself]
      exact insert_insert (m.erase k)
    rw [hnew, values_insert_of_none v hrest]
    conv_rhs => rw [← hself, values_insert_of_none w hrest]
    simp only [Multiset.map_cons, Multiset.sum_cons, elim_some]
    omega

end DecidableKeys

end Table

end Misaka.Core
