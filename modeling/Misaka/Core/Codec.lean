import Mathlib.Algebra.Order.Ring.Nat
import Mathlib.Data.List.Basic

/-!
# Encodings that know where they end

Two encoded values at the start of the same text are equal and leave the same rest. Such encodings
can be written one after the other and are read back in order.
-/

namespace Misaka.Core

open List

variable {α β γ : Type*}

/-- Where the encoding of a value of the set ends, and the value, can be told from the text. -/
def SelfDelimiting (s : Set α) (enc : α → List β) : Prop :=
  ∀ ⦃a⦄, a ∈ s → ∀ ⦃b⦄, b ∈ s → ∀ ⦃t u⦄, enc a ++ t = enc b ++ u → a = b ∧ t = u

namespace SelfDelimiting

variable {s : Set α} {enc : α → List β}

theorem of_length {n : ℕ} (hlen : ∀ a ∈ s, (enc a).length = n) (hinj : Set.InjOn enc s) :
    SelfDelimiting s enc := by
  intro a ha b hb t u h
  obtain ⟨henc, htail⟩ := append_inj h ((hlen a ha).trans (hlen b hb).symm)
  exact ⟨hinj ha hb henc, htail⟩

theorem injOn (h : SelfDelimiting s enc) : Set.InjOn enc s := by
  intro a ha b hb heq
  have happ : enc a ++ [] = enc b ++ [] := congrArg (· ++ []) heq
  exact (h ha hb happ).1

theorem flatMap (h : SelfDelimiting s enc) {l l' : List α} (hl : ∀ a ∈ l, a ∈ s)
    (hl' : ∀ a ∈ l', a ∈ s) (hlen : l.length = l'.length) {t u : List β}
    (heq : l.flatMap enc ++ t = l'.flatMap enc ++ u) : l = l' ∧ t = u := by
  induction l generalizing l' with
  | nil =>
    obtain rfl := length_eq_zero_iff.mp hlen.symm
    exact ⟨rfl, heq⟩
  | cons a l ih =>
    cases l' with
    | nil => cases hlen
    | cons b l' =>
      rw [flatMap_cons, flatMap_cons, append_assoc, append_assoc] at heq
      obtain ⟨rfl, hrest⟩ := h (hl a mem_cons_self) (hl' b mem_cons_self) heq
      obtain ⟨rfl, htail⟩ := ih (forall_mem_cons.mp hl).2
        (forall_mem_cons.mp hl').2 (Nat.succ.inj hlen) hrest
      exact ⟨rfl, htail⟩

theorem counted (h : SelfDelimiting s enc) {lengths : Set ℕ} {count : ℕ → List β}
    (hcount : SelfDelimiting lengths count) :
    SelfDelimiting {l : List α | l.length ∈ lengths ∧ ∀ a ∈ l, a ∈ s}
      fun l => count l.length ++ l.flatMap enc := by
  intro l hl l' hl' t u heq
  simp only [append_assoc] at heq
  obtain ⟨hlen, hrest⟩ := hcount hl.1 hl'.1 heq
  exact h.flatMap hl.2 hl'.2 hlen hrest

theorem comp (h : SelfDelimiting s enc) {s' : Set γ} {f : γ → α} (hmaps : ∀ c ∈ s', f c ∈ s)
    (hinj : Set.InjOn f s') : SelfDelimiting s' fun c => enc (f c) := by
  intro a ha b hb t u heq
  obtain ⟨hf, htail⟩ := h (hmaps a ha) (hmaps b hb) heq
  exact ⟨hinj ha hb hf, htail⟩

end SelfDelimiting

def DelimitsPart (s : Set α) (enc : α → List β) (part : α → γ) : Prop :=
  ∀ ⦃a⦄, a ∈ s → ∀ ⦃b⦄, b ∈ s → ∀ ⦃t u⦄, enc a ++ t = enc b ++ u → part a = part b ∧ t = u

theorem SelfDelimiting.field {s : Set α} {enc : α → List β} (h : SelfDelimiting s enc) {s' : Set γ}
    {part : γ → α} (hmaps : ∀ c ∈ s', part c ∈ s) :
    DelimitsPart s' (fun c => enc (part c)) part :=
  fun a ha b hb _ _ heq => h (hmaps a ha) (hmaps b hb) heq

theorem DelimitsPart.append {δ : Type*} {s : Set α} {enc enc' : α → List β} {part : α → γ}
    {part' : α → δ} (h : DelimitsPart s enc part) (h' : DelimitsPart s enc' part') :
    DelimitsPart s (fun a => enc a ++ enc' a) fun a => (part a, part' a) := by
  intro a ha b hb t u heq
  rw [append_assoc, append_assoc] at heq
  obtain ⟨hpart, hrest⟩ := h ha hb heq
  obtain ⟨hpart', htail⟩ := h' ha hb hrest
  exact ⟨Prod.ext hpart hpart', htail⟩

theorem DelimitsPart.selfDelimiting {s : Set α} {enc : α → List β} {part : α → γ}
    (h : DelimitsPart s enc part) (hinj : Function.Injective part) : SelfDelimiting s enc := by
  intro a ha b hb t u heq
  obtain ⟨hpart, htail⟩ := h ha hb heq
  exact ⟨hinj hpart, htail⟩

end Misaka.Core
