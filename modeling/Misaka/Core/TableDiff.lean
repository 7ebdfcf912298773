import Misaka.Core.Ascending

/-!
# Differences of tables

The keys of two tables in order, and edits that turn the one table into the other key by key.
-/

namespace Misaka.Core.Table

open List

variable {κ β ε : Type} [DecidableEq κ]

def put (m : Table κ β) (k : κ) : Option β → Table κ β
  | none => m.erase k
  | some v => m.insert k v

theorem lookup_put (m : Table κ β) (k j : κ) (v : Option β) :
    (m.put k v).lookup j = if j = k then v else m.lookup j := by
  cases v with
  | none => exact lookup_erase_eq m k j
  | some v => exact lookup_insert_eq m k j v

/-- Edits under distinct keys that each find the row of one table and leave that of another turn the
one into the other, if the two differ under no other key. -/
theorem foldlM_put_eq {step : Table κ β → κ → Except ε (Table κ β)} {ks : List κ}
    {m m' : Table κ β} (hnodup : ks.Nodup)
    (hstep : ∀ k ∈ ks, ∀ t, t.lookup k = m.lookup k → step t k = .ok (t.put k (m'.lookup k)))
    (hrest : ∀ k, k ∉ ks → m.lookup k = m'.lookup k) : ks.foldlM step m = .ok m' := by
  induction ks generalizing m with
  | nil => exact congrArg Except.ok (Finmap.ext_lookup fun k => hrest k not_mem_nil)
  | cons k ks ih =>
    obtain ⟨hk, hnodup⟩ := nodup_cons.mp hnodup
    refine foldlM_cons_eq_ok.mpr ⟨_, hstep k mem_cons_self m rfl, ?_⟩
    refine ih hnodup (fun j hj t ht => ?_) fun j hj => ?_
    · have hne : j ≠ k := fun heq => hk (heq ▸ hj)
      rw [lookup_put, if_neg hne] at ht
      exact hstep j (mem_cons_of_mem k hj) t ht
    · rw [lookup_put]
      split
      · next heq => rw [heq]
      · next hne => exact hrest j (not_mem_cons_of_ne_of_not_mem hne hj)

variable [LinearOrder κ]

def unionKeys (m m' : Table κ β) : List κ := sortedKeys (m ∪ m')

theorem unionKeys_comm (m m' : Table κ β) : unionKeys m m' = unionKeys m' m := by
  rw [unionKeys, unionKeys, sortedKeys, sortedKeys, Finmap.keys_union, Finmap.keys_union,
    Finset.union_comm]

theorem nodup_unionKeys (m m' : Table κ β) : (unionKeys m m').Nodup := Finset.sort_nodup _ _

theorem lookup_eq_none_of_not_mem_unionKeys {m m' : Table κ β} {k : κ} (h : k ∉ unionKeys m m') :
    m.lookup k = none ∧ m'.lookup k = none := by
  rw [unionKeys, sortedKeys, Finset.mem_sort, Finmap.mem_keys, Finmap.mem_union, not_or] at h
  exact ⟨Finmap.lookup_eq_none.mpr h.1, Finmap.lookup_eq_none.mpr h.2⟩

end Misaka.Core.Table
