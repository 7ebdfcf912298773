import Mathlib.Algebra.Order.Ring.Nat
import Mathlib.Data.List.Forall2

/-!
# Fallible loops

Source loops that stop at the first failure are `List.forM` and `List.foldlM` in `Except`. The
lemmas here say when such a loop succeeds and transport a relation along it.
-/

namespace Misaka.Core

open List

universe u

variable {ε α : Type*} {σ τ : Type u}

section Bind

variable {α β : Type u} {x : Except ε α} {f : α → Except ε β} {b : β}

theorem bind_eq_ok :
    (x >>= f) = .ok b ↔ ∃ a, x = .ok a ∧ f a = .ok b := by
  cases x with
  | error e => simp [bind, Except.bind]
  | ok a => simp [bind, Except.bind]

theorem bind_of_error {e : ε} (h : x = .error e) : (x >>= f) = .error e := by
  rw [h]
  rfl

theorem map_eq_ok {f : α → β} : x.map f = .ok b ↔ ∃ a, x = .ok a ∧ f a = b := by
  cases x <;> simp [Except.map]

end Bind

/-- A check of the source that returns early. -/
def failIf (condition : Bool) (e : ε) : Except ε Unit :=
  if condition then .error e else .ok ()

variable {e : ε} {x : Except ε α} {a : α}

theorem failIf_eq_ok {condition : Bool} :
    failIf condition e = .ok () ↔ condition = false := by
  cases condition <;> simp [failIf]

theorem error_ite_eq_ok {p : Prop} [Decidable p] :
    (if p then .error e else x) = .ok a ↔ ¬p ∧ x = .ok a := by
  split <;> next hp => simp [hp]

theorem check_bind_eq_ok {α : Type} {x : Except ε Unit} {y : Except ε α} {a : α} :
    (x >>= fun _ => y) = .ok a ↔ x = .ok () ∧ y = .ok a := by
  rw [bind_eq_ok]
  exact ⟨fun ⟨_, hx, hy⟩ => ⟨hx, hy⟩, fun ⟨hx, hy⟩ => ⟨(), hx, hy⟩⟩

theorem forM_eq_ok_iff {f : α → Except ε PUnit.{u + 1}} {l : List α} :
    l.forM f = .ok ⟨⟩ ↔ ∀ a ∈ l, f a = .ok ⟨⟩ := by
  induction l with
  | nil => exact ⟨nofun, fun _ => rfl⟩
  | cons a l ih =>
    change (f a >>= fun _ => l.forM f) = _ ↔ _
    rw [bind_eq_ok, forall_mem_cons, ← ih]
    exact ⟨fun ⟨_, h⟩ => h, fun h => ⟨⟨⟩, h⟩⟩

theorem forM_ite_eq_ok {p : α → Bool} {e : α → ε} {l : List α} :
    (l.forM fun a => if p a then Except.ok () else .error (e a)) = .ok () ↔ ∀ a ∈ l, p a := by
  rw [forM_eq_ok_iff]
  refine forall₂_congr fun a _ => ?_
  cases p a <;> simp

theorem mapError_eq_ok {ε' : Type*} {f : ε → ε'} : x.mapError f = .ok a ↔ x = .ok a := by
  cases x <;> simp [Except.mapError]

theorem toOption_eq_some : x.toOption = some a ↔ x = .ok a := by
  cases x <;> simp [Except.toOption]

theorem elim_eq_ok {o : Option α} : o.elim (Except.error e) .ok = .ok a ↔ o = some a := by
  cases o <;> simp

section MapM

variable {α β : Type u} {f : α → Except ε β} {l : List α} {l' : List β}

theorem mapM_eq_ok :
    l.mapM f = .ok l' ↔ List.Forall₂ (fun a b => f a = .ok b) l l' := by
  induction l generalizing l' with
  | nil =>
    rw [forall₂_nil_left_iff]
    constructor
    · intro h
      exact (Except.ok.inj h).symm
    · rintro rfl
      rfl
  | cons a l ih =>
    rw [mapM_cons, forall₂_cons_left_iff]
    simp only [bind_eq_ok, ih]
    constructor
    · rintro ⟨b, hb, bs, hbs, h⟩
      exact ⟨b, bs, hb, hbs, (Except.ok.inj h).symm⟩
    · rintro ⟨b, bs, hb, hbs, rfl⟩
      exact ⟨b, hb, bs, hbs, rfl⟩

theorem mapM_eq_some {f : α → Option β} :
    l.mapM f = some l' ↔ List.Forall₂ (fun a b => f a = some b) l l' := by
  induction l generalizing l' with
  | nil =>
    rw [mapM_nil, forall₂_nil_left_iff]
    exact ⟨fun h => (Option.some.inj h).symm, fun h => congrArg some h.symm⟩
  | cons a l ih =>
    simp only [mapM_cons, Option.bind_eq_bind, Option.bind_eq_some_iff, ih,
      forall₂_cons_left_iff]
    exact ⟨fun ⟨b, hb, bs, hbs, heq⟩ => ⟨b, bs, hb, hbs, (Option.some.inj heq).symm⟩,
      fun ⟨b, bs, hb, hbs, heq⟩ => ⟨b, hb, bs, hbs, congrArg some heq.symm⟩⟩

theorem exists_of_mem_left {R : α → β → Prop} (h : List.Forall₂ R l l') {a : α} (ha : a ∈ l) :
    ∃ b ∈ l', R a b := by
  induction h with
  | nil => cases ha
  | cons hR _ ih =>
    rcases mem_cons.mp ha with rfl | ha
    · exact ⟨_, mem_cons_self, hR⟩
    · obtain ⟨b, hb, hab⟩ := ih ha
      exact ⟨b, mem_cons_of_mem _ hb, hab⟩

theorem exists_mapM_eq_ok (h : ∀ a ∈ l, ∃ b, f a = .ok b) : ∃ l', l.mapM f = .ok l' := by
  simp only [mapM_eq_ok]
  induction l with
  | nil => exact ⟨[], .nil⟩
  | cons a l ih =>
    obtain ⟨b, hb⟩ := h a mem_cons_self
    obtain ⟨l', hl'⟩ := ih (forall_mem_cons.mp h).2
    exact ⟨b :: l', .cons hb hl'⟩

theorem exists_result_of_mapM (h : l.mapM f = .ok l') {a : α} (ha : a ∈ l) :
    ∃ b ∈ l', f a = .ok b :=
  exists_of_mem_left (mapM_eq_ok.mp h) ha

theorem exists_source_of_mapM (h : l.mapM f = .ok l') {b : β} (hb : b ∈ l') :
    ∃ a ∈ l, f a = .ok b :=
  exists_of_mem_left (mapM_eq_ok.mp h).flip hb

end MapM

section Fold

variable {f : σ → α → Except ε σ} {l : List α} {s s' : σ}

@[simp] theorem foldlM_nil_ok (f : σ → α → Except ε σ) (s : σ) : [].foldlM f s = .ok s := rfl

theorem foldlM_cons_eq_ok :
    (a :: l).foldlM f s = .ok s' ↔ ∃ t, f s a = .ok t ∧ l.foldlM f t = .ok s' := by
  rw [foldlM_cons, bind_eq_ok]

theorem exists_foldlM_eq_ok_iff {p : α → Prop}
    (hstep : ∀ a ∈ l, ∀ s, (∃ s', f s a = .ok s') ↔ p a) :
    (∃ s', l.foldlM f s = .ok s') ↔ ∀ a ∈ l, p a := by
  induction l generalizing s with
  | nil => exact ⟨nofun, fun _ => ⟨s, rfl⟩⟩
  | cons a l ih =>
    have ha := hstep a mem_cons_self
    have hl : ∀ {s}, (∃ s', l.foldlM f s = .ok s') ↔ ∀ b ∈ l, p b :=
      ih (forall_mem_cons.mp hstep).2
    simp only [foldlM_cons_eq_ok, forall_mem_cons]
    constructor
    · rintro ⟨s'', s', hs', hs''⟩
      exact ⟨(ha s).mp ⟨s', hs'⟩, hl.mp ⟨s'', hs''⟩⟩
    · rintro ⟨hpa, hpl⟩
      obtain ⟨s', hs'⟩ := (ha s).mpr hpa
      obtain ⟨s'', hs''⟩ := hl.mpr hpl
      exact ⟨s'', s', hs', hs''⟩

theorem foldlM_append_eq_ok {l' : List α} :
    (l ++ l').foldlM f s = .ok s' ↔ ∃ t, l.foldlM f s = .ok t ∧ l'.foldlM f t = .ok s' := by
  rw [foldlM_append, bind_eq_ok]

theorem foldlM_induction {I : σ → Prop}
    (hstep : ∀ s a s', a ∈ l → I s → f s a = .ok s' → I s') (hs : I s)
    (h : l.foldlM f s = .ok s') : I s' := by
  induction l generalizing s with
  | nil =>
    cases h
    exact hs
  | cons a l ih =>
    obtain ⟨t, ha, hl⟩ := foldlM_cons_eq_ok.mp h
    refine ih (fun s b s' hb => hstep s b s' (mem_cons_of_mem a hb)) ?_ hl
    exact hstep s a t mem_cons_self hs ha

theorem exists_step_of_foldlM (h : l.foldlM f s = .ok s') (ha : a ∈ l) :
    ∃ t t', f t a = .ok t' := by
  induction l generalizing s with
  | nil => cases ha
  | cons b l ih =>
    obtain ⟨t, hb, hl⟩ := foldlM_cons_eq_ok.mp h
    rcases mem_cons.mp ha with rfl | ha
    · exact ⟨s, t, hb⟩
    · exact ih hl ha

theorem foldlM_sim {g : τ → α → Except ε τ} {R : σ → τ → Prop}
    (hstep : ∀ s t a s', R s t → f s a = .ok s' → ∃ t', g t a = .ok t' ∧ R s' t')
    {t : τ} (hR : R s t) (h : l.foldlM f s = .ok s') :
    ∃ t', l.foldlM g t = .ok t' ∧ R s' t' := by
  induction l generalizing s t with
  | nil =>
    cases h
    exact ⟨t, rfl, hR⟩
  | cons a l ih =>
    obtain ⟨s₁, ha, hl⟩ := foldlM_cons_eq_ok.mp h
    obtain ⟨t₁, ht₁, hR₁⟩ := hstep s t a s₁ hR ha
    obtain ⟨t', ht', hR'⟩ := ih hR₁ hl
    exact ⟨t', foldlM_cons_eq_ok.mpr ⟨t₁, ht₁, ht'⟩, hR'⟩

theorem foldlM_sim_foldl {g : τ → α → τ} {R : σ → τ → Prop}
    (hstep : ∀ s t a s', R s t → f s a = .ok s' → R s' (g t a)) {t : τ} (hR : R s t)
    (h : l.foldlM f s = .ok s') : R s' (l.foldl g t) := by
  induction l generalizing s t with
  | nil =>
    cases h
    exact hR
  | cons a l ih =>
    obtain ⟨s₁, ha, hl⟩ := foldlM_cons_eq_ok.mp h
    exact ih (hstep s t a s₁ hR ha) hl

/-- A fallible accumulation with a budget. Each turn succeeds while the total stays within the
bound, grows it by at most its budget less what it sets aside, and by exactly its budget when the
accumulation is exact; then so does the whole run. -/
theorem foldlM_budget {m : σ → Nat} {budget aside : α → Nat} {bound : Nat} {exact : Prop}
    (hstep : ∀ s, ∀ a ∈ l, m s + budget a ≤ bound → ∃ s', f s a = .ok s' ∧
      m s' + aside a ≤ m s + budget a ∧ (exact → m s' = m s + budget a))
    (hs : m s + (l.map budget).sum ≤ bound) :
    ∃ s', l.foldlM f s = .ok s' ∧ m s' + (l.map aside).sum ≤ m s + (l.map budget).sum ∧
      (exact → m s' = m s + (l.map budget).sum) := by
  induction l generalizing s with
  | nil => exact ⟨s, rfl, Nat.le_refl _, fun _ => rfl⟩
  | cons a l ih =>
    simp only [map_cons, sum_cons] at hs ⊢
    obtain ⟨t, ht, hle, heq⟩ := hstep s a mem_cons_self (by omega)
    obtain ⟨s', hs', hle', heq'⟩ := ih (fun s b hb => hstep s b (mem_cons_of_mem a hb))
      (s := t) (by omega)
    refine ⟨s', foldlM_cons_eq_ok.mpr ⟨t, ht, hs'⟩, by omega, fun hexact => ?_⟩
    have h₁ := heq hexact
    have h₂ := heq' hexact
    omega

end Fold

section Decidable

variable {α β : Type*} {P : α → Prop} {R : α → β → Prop}

/-- Whether a run ends, and in what, can be tested by running it. -/
instance decidableOk : (x : Except ε α) → Decidable (∃ a, x = .ok a)
  | .ok a => .isTrue ⟨a, rfl⟩
  | .error _ => .isFalse nofun

instance decidableExistsOk [DecidablePred P] :
    (x : Except ε α) → Decidable (∃ a, x = .ok a ∧ P a)
  | .ok a => decidable_of_iff (P a) ⟨fun h => ⟨a, rfl, h⟩, fun ⟨_, ha, h⟩ => Except.ok.inj ha ▸ h⟩
  | .error _ => .isFalse nofun

instance decidableExistsOkPair [∀ a, DecidablePred (R a)] (x : Except ε (α × β)) :
    Decidable (∃ a b, x = .ok (a, b) ∧ R a b) :=
  decidable_of_iff (∃ p, x = .ok p ∧ R p.1 p.2) Prod.exists

instance decidableExistsSome [DecidablePred P] :
    (x : Option α) → Decidable (∃ a, x = some a ∧ P a)
  | some a =>
    decidable_of_iff (P a) ⟨fun h => ⟨a, rfl, h⟩, fun ⟨_, ha, h⟩ => Option.some.inj ha ▸ h⟩
  | none => .isFalse nofun

end Decidable

/-- A result satisfies `Q`, an error `R`. -/
def Post {α : Type*} (Q : α → Prop) (R : ε → Prop) : Except ε α → Prop
  | .ok a => Q a
  | .error e => R e

section Post

variable {α β : Type u} {Q : α → Prop} {R : ε → Prop} {x : Except ε α}

theorem Post.bind {T : β → Prop} {f : α → Except ε β} (hx : Post Q R x)
    (hf : ∀ a, Q a → Post T R (f a)) : Post T R (x >>= f) := by
  cases x with
  | error e => exact hx
  | ok a => exact hf a hx

theorem Post.imp {Q' : α → Prop} (h : ∀ a, Q a → Q' a) (hx : Post Q R x) : Post Q' R x := by
  cases x with
  | error e => exact hx
  | ok a => exact h a hx

theorem Post.failIf {condition : Bool} {e : ε} (h : condition = true → R e) :
    Post (fun _ => True) R (failIf condition e) := by
  cases condition with
  | false => trivial
  | true => exact h rfl

theorem Post.forM {γ : Type*} {f : γ → Except ε PUnit.{u + 1}} {l : List γ}
    (h : ∀ a ∈ l, Post (fun _ => True) R (f a)) : Post (fun _ => True) R (l.forM f) := by
  induction l with
  | nil => trivial
  | cons a l ih =>
    refine Post.bind (h a mem_cons_self) fun _ _ => ?_
    exact ih (forall_mem_cons.mp h).2

end Post

end Misaka.Core
