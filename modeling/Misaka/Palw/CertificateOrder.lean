import Mathlib.Data.Prod.Lex
import Misaka.Palw.Lifecycle

/-!
# Competing certificates

`apply_verified_certificate` keeps for a batch the certificate with the most approving stake, and of
those the one with the smallest hash, whatever the order in which certificates arrive.
-/

namespace Misaka.Palw

open Misaka.Core List

structure VerifiedCertificate where
  batchId : Hash64
  certHash : Hash64
  approvingStake : ℕ
  carrierDaa : ℕ
  deriving DecidableEq, Repr

namespace VerifiedCertificate

def key (c : VerifiedCertificate) : Hash64 × Hash64 × ℕ := (c.batchId, c.certHash, c.approvingStake)

def rank (c : VerifiedCertificate) : ℕ ×ₗ ℕᵒᵈ := toLex (c.approvingStake, .toDual c.certHash)

end VerifiedCertificate

namespace PalwBatchLifecycleV1

def recorded (e : PalwBatchLifecycleV1) : WithBot (ℕ ×ₗ ℕᵒᵈ) :=
  match e.certHash with
  | none => ⊥
  | some certHash => ↑(toLex (e.certApprovingStake, OrderDual.toDual certHash))

def certified (e : PalwBatchLifecycleV1) (c : VerifiedCertificate) : PalwBatchLifecycleV1 :=
  if e.status.certifiable && e.replacedBy c.certHash c.approvingStake then
    e.withCertificate c.certHash c.approvingStake c.carrierDaa
  else e

def undated (e : PalwBatchLifecycleV1) : PalwBatchLifecycleV1 := { e with firstCertDaa := none }

end PalwBatchLifecycleV1

namespace PalwBatchViewV1

def afterCertificate (view : PalwBatchViewV1) (c : VerifiedCertificate) : PalwBatchViewV1 :=
  (view.applyVerifiedCertificate c.batchId c.certHash c.approvingStake c.carrierDaa).getD view

def afterCertificates (view : PalwBatchViewV1) (certs : List VerifiedCertificate) :
    PalwBatchViewV1 :=
  certs.foldl afterCertificate view

def undated (view : PalwBatchViewV1) : PalwBatchViewV1 :=
  { view with batches := view.batches.mapVal PalwBatchLifecycleV1.undated }

end PalwBatchViewV1

variable {e : PalwBatchLifecycleV1} {c : VerifiedCertificate}
  {certs certs' : List VerifiedCertificate} {view : PalwBatchViewV1} {batchId : Hash64}

theorem replacedBy_iff :
    e.replacedBy c.certHash c.approvingStake = true ↔ e.recorded < c.rank := by
  unfold PalwBatchLifecycleV1.replacedBy PalwBatchLifecycleV1.recorded
  cases e.certHash with
  | none => simp
  | some existing =>
    simp only [WithBot.coe_lt_coe, VerifiedCertificate.rank, Prod.Lex.toLex_lt_toLex,
      OrderDual.toDual_lt_toDual, Bool.or_eq_true, Bool.and_eq_true, decide_eq_true_eq, beq_iff_eq,
      gt_iff_lt]
    tauto

theorem certifiable_withCertificate {certHash : Hash64} {stake daa : ℕ}
    (h : e.status.certifiable = true) :
    (e.withCertificate certHash stake daa).status.certifiable = true := by
  unfold PalwBatchLifecycleV1.withCertificate
  dsimp only
  split
  · rfl
  · exact h

theorem withCertificate_withCertificate {h h' : Hash64} {stake stake' daa daa' : ℕ} :
    (e.withCertificate h stake daa).withCertificate h' stake' daa' =
      e.withCertificate h' stake' daa := by
  by_cases hstatus : e.status = .committed ∨ e.status = .auditing <;>
    simp [PalwBatchLifecycleV1.withCertificate, hstatus]

/-- What a list of certificates can make of an entry: nothing, if none of them is better than what
is recorded, or else the entry with the best of them. -/
inductive Elected (e : PalwBatchLifecycleV1) (certs : List VerifiedCertificate) :
    PalwBatchLifecycleV1 → Prop
  | kept (none : ∀ c ∈ certs, c.rank ≤ e.recorded) : Elected e certs e
  | best {c d : VerifiedCertificate} (mem : c ∈ certs) (better : e.recorded < c.rank)
      (best : ∀ c' ∈ certs, c'.rank ≤ c.rank) (dated : d ∈ certs) :
      Elected e certs (e.withCertificate c.certHash c.approvingStake d.carrierDaa)

theorem certified_of_lt (hcertifiable : e.status.certifiable = true) (h : e.recorded < c.rank) :
    e.certified c = e.withCertificate c.certHash c.approvingStake c.carrierDaa := by
  rw [PalwBatchLifecycleV1.certified, if_pos]
  rw [hcertifiable, replacedBy_iff.mpr h, Bool.and_self]

theorem certified_of_le (h : c.rank ≤ e.recorded) : e.certified c = e := by
  rw [PalwBatchLifecycleV1.certified, if_neg]
  rw [Bool.and_eq_true, replacedBy_iff]
  exact fun hboth => hboth.2.not_ge h

theorem elected_foldl (hcertifiable : e.status.certifiable = true)
    (certs : List VerifiedCertificate) :
    Elected e certs (certs.foldl PalwBatchLifecycleV1.certified e) := by
  induction certs using List.reverseRecOn with
  | nil => exact .kept (by simp)
  | append_singleton certs c ih =>
    rw [foldl_append, foldl_cons, foldl_nil]
    have hlast : c ∈ certs ++ [c] := mem_append_right _ (mem_singleton_self c)
    generalize certs.foldl PalwBatchLifecycleV1.certified e = e' at ih
    cases ih with
    | kept hnone =>
      rcases lt_or_ge e.recorded c.rank with hlt | hle
      · rw [certified_of_lt hcertifiable hlt]
        refine .best hlast hlt (forall_mem_append.mpr ⟨fun c' hc' => ?_, by simp⟩) hlast
        exact WithBot.coe_le_coe.mp ((hnone c' hc').trans hlt.le)
      · rw [certified_of_le hle]
        exact .kept (forall_mem_append.mpr ⟨hnone, forall_mem_singleton.mpr hle⟩)
    | @best c₀ d hmem hbetter hbest hdated =>
      have hdated' : d ∈ certs ++ [c] := mem_append_left _ hdated
      rcases lt_or_ge c₀.rank c.rank with hlt | hle
      · rw [certified_of_lt (certifiable_withCertificate hcertifiable)
          (WithBot.coe_lt_coe.mpr hlt), withCertificate_withCertificate]
        refine .best hlast (hbetter.trans (WithBot.coe_lt_coe.mpr hlt)) ?_ hdated'
        exact forall_mem_append.mpr ⟨fun c' hc' => (hbest c' hc').trans hlt.le, by simp⟩
      · rw [certified_of_le (WithBot.coe_le_coe.mpr hle)]
        refine .best (mem_append_left _ hmem) hbetter ?_ hdated'
        exact forall_mem_append.mpr ⟨hbest, forall_mem_singleton.mpr hle⟩

theorem foldl_certified_of_not (h : e.status.certifiable = false)
    (certs : List VerifiedCertificate) :
    certs.foldl PalwBatchLifecycleV1.certified e = e := by
  induction certs with
  | nil => rfl
  | cons c certs ih =>
    rw [foldl_cons, PalwBatchLifecycleV1.certified, if_neg (by simp [h]), ih]

def candidates (e : PalwBatchLifecycleV1) (certs : List VerifiedCertificate) :
    Set (WithBot (ℕ ×ₗ ℕᵒᵈ)) :=
  insert e.recorded ((fun c => (c.rank : WithBot (ℕ ×ₗ ℕᵒᵈ))) '' {c | c ∈ certs})

theorem Elected.isGreatest {e' : PalwBatchLifecycleV1} (h : Elected e certs e') :
    IsGreatest (candidates e certs) e'.recorded := by
  cases h with
  | kept hnone =>
    refine ⟨Set.mem_insert _ _, ?_⟩
    rintro _ (rfl | ⟨c, hc, rfl⟩)
    · exact le_rfl
    · exact hnone c hc
  | best hmem hbetter hbest hdated =>
    refine ⟨Set.mem_insert_of_mem _ ⟨_, hmem, rfl⟩, ?_⟩
    rintro _ (rfl | ⟨c, hc, rfl⟩)
    · exact hbetter.le
    · exact WithBot.coe_le_coe.mpr (hbest c hc)

theorem Elected.eq_or {e₁ e₂ : PalwBatchLifecycleV1} (h₁ : Elected e certs e₁)
    (h₂ : Elected e certs' e₂) (hrecorded : e₁.recorded = e₂.recorded) :
    e₁ = e₂ ∨ ∃ certHash stake, ∃ d₁ ∈ certs, ∃ d₂ ∈ certs',
      e₁ = e.withCertificate certHash stake d₁.carrierDaa ∧
        e₂ = e.withCertificate certHash stake d₂.carrierDaa := by
  cases h₁ with
  | kept =>
    cases h₂ with
    | kept => exact .inl rfl
    | best _ hbetter => exact absurd hrecorded hbetter.ne
  | @best c₁ d₁ _ hbetter _ hdated₁ =>
    cases h₂ with
    | kept => exact absurd hrecorded hbetter.ne'
    | @best c₂ d₂ _ _ _ hdated₂ =>
      obtain ⟨hstake, hhash⟩ : c₁.approvingStake = c₂.approvingStake ∧
          OrderDual.toDual c₁.certHash = OrderDual.toDual c₂.certHash :=
        Prod.mk.inj (WithBot.coe_injective hrecorded)
      refine .inr ⟨c₁.certHash, c₁.approvingStake, d₁, hdated₁, d₂, hdated₂, rfl, ?_⟩
      rw [hstake, OrderDual.toDual.injective hhash]

theorem entry_afterCertificate (c : VerifiedCertificate) :
    (view.afterCertificate c).entry batchId =
      (view.entry batchId).map fun e => if c.batchId = batchId then e.certified c else e := by
  unfold PalwBatchViewV1.afterCertificate PalwBatchViewV1.applyVerifiedCertificate
  by_cases hbatch : c.batchId = batchId
  · subst hbatch
    cases hentry : view.entry c.batchId with
    | none => simp [hentry]
    | some e =>
      simp only [Option.bind_some, Option.map_some, if_true, PalwBatchLifecycleV1.certified]
      cases e.status.certifiable <;> cases e.replacedBy c.certHash c.approvingStake <;>
        simp [entry_setEntry, hentry]
  · have hother : ∀ e, (view.setEntry c.batchId e).entry batchId = view.entry batchId := by
      intro e
      rw [entry_setEntry, if_neg (Ne.symm hbatch)]
    simp only [hbatch, if_false, Option.map_id']
    cases view.entry c.batchId with
    | none => rfl
    | some e =>
      rw [Option.bind_some]
      split_ifs
      · rfl
      · rfl
      · exact hother _

theorem entry_afterCertificates (certs : List VerifiedCertificate) :
    (view.afterCertificates certs).entry batchId =
      (view.entry batchId).map
        ((certs.filter (·.batchId = batchId)).foldl PalwBatchLifecycleV1.certified) := by
  induction certs generalizing view with
  | nil => exact (Option.map_id' ..).symm
  | cons c certs ih =>
    rw [PalwBatchViewV1.afterCertificates, foldl_cons, ← PalwBatchViewV1.afterCertificates, ih,
      entry_afterCertificate, Option.map_map]
    congr 1
    funext e
    by_cases hbatch : c.batchId = batchId <;> simp [hbatch]

theorem version_afterCertificates (certs : List VerifiedCertificate) :
    (view.afterCertificates certs).version = view.version := by
  induction certs generalizing view with
  | nil => rfl
  | cons c certs ih =>
    refine ih.trans ?_
    unfold PalwBatchViewV1.afterCertificate PalwBatchViewV1.applyVerifiedCertificate
    cases view.entry c.batchId with
    | none => rfl
    | some e =>
      rw [Option.bind_some]
      split_ifs <;> rfl

theorem candidates_congr
    (hkeys : ∀ key, key ∈ certs.map (·.key) ↔ key ∈ certs'.map (·.key)) :
    candidates e (certs.filter (·.batchId = batchId)) =
      candidates e (certs'.filter (·.batchId = batchId)) := by
  have hsub : ∀ {l l' : List VerifiedCertificate},
      (∀ key, key ∈ l.map (·.key) → key ∈ l'.map (·.key)) →
        candidates e (l.filter (·.batchId = batchId)) ⊆
          candidates e (l'.filter (·.batchId = batchId)) := by
    rintro l l' h _ (rfl | ⟨c, hc, rfl⟩)
    · exact Set.mem_insert _ _
    · obtain ⟨hmem, hbatch⟩ := mem_filter.mp hc
      obtain ⟨c', hmem', hkey⟩ := mem_map.mp (h _ (mem_map_of_mem hmem))
      obtain ⟨hbatch', hhash, hstake⟩ : c'.batchId = c.batchId ∧ c'.certHash = c.certHash ∧
          c'.approvingStake = c.approvingStake := by simpa [VerifiedCertificate.key] using hkey
      refine Set.mem_insert_of_mem _ ⟨c', mem_filter.mpr ⟨hmem', ?_⟩, ?_⟩
      · rwa [hbatch']
      · exact congrArg _ (congrArg toLex (Prod.ext hstake (congrArg OrderDual.toDual hhash)))
  exact (hsub fun key => (hkeys key).mp).antisymm (hsub fun key => (hkeys key).mpr)

theorem foldl_certified_eq_or
    (hkeys : ∀ key, key ∈ certs.map (·.key) ↔ key ∈ certs'.map (·.key)) :
    let e₁ := (certs.filter (·.batchId = batchId)).foldl PalwBatchLifecycleV1.certified e
    let e₂ := (certs'.filter (·.batchId = batchId)).foldl PalwBatchLifecycleV1.certified e
    e₁ = e₂ ∨ ∃ certHash stake, ∃ d₁ ∈ certs, ∃ d₂ ∈ certs',
      e₁ = e.withCertificate certHash stake d₁.carrierDaa ∧
        e₂ = e.withCertificate certHash stake d₂.carrierDaa := by
  intro e₁ e₂
  cases hcertifiable : e.status.certifiable with
  | false =>
    refine .inl ?_
    rw [show e₁ = e from foldl_certified_of_not hcertifiable _,
      show e₂ = e from foldl_certified_of_not hcertifiable _]
  | true =>
    have h₁ := elected_foldl hcertifiable (certs.filter (·.batchId = batchId))
    have h₂ := elected_foldl hcertifiable (certs'.filter (·.batchId = batchId))
    have hgreatest := h₂.isGreatest
    rw [← candidates_congr hkeys] at hgreatest
    rcases h₁.eq_or h₂ (h₁.isGreatest.unique hgreatest) with heq | ⟨h, s, d₁, hd₁, d₂, hd₂, heq⟩
    · exact .inl heq
    · exact .inr ⟨h, s, d₁, (mem_filter.mp hd₁).1, d₂, (mem_filter.mp hd₂).1, heq⟩

/-- Lists of the same certificates, in any order and with any repetitions, lead to the same view but
for the scores of the first certificates. A batch holds the best of its certificates and of what it
held before. -/
theorem afterCertificates_confluent
    (hkeys : ∀ key, key ∈ certs.map (·.key) ↔ key ∈ certs'.map (·.key)) :
    (view.afterCertificates certs).undated = (view.afterCertificates certs').undated ∧
    ((∀ c ∈ certs, ∀ c' ∈ certs', c.carrierDaa = c'.carrierDaa) →
      view.afterCertificates certs = view.afterCertificates certs') ∧
    ∀ batchId e, view.entry batchId = some e → e.status.certifiable = true →
      ∃ e', (view.afterCertificates certs).entry batchId = some e' ∧
        IsGreatest (candidates e (certs.filter (·.batchId = batchId))) e'.recorded := by
  have hversion : (view.afterCertificates certs).version =
      (view.afterCertificates certs').version := by
    rw [version_afterCertificates, version_afterCertificates]
  refine ⟨view_ext hversion fun batchId => ?_, fun hdates => view_ext hversion fun batchId => ?_,
    fun batchId e hentry hcertifiable => ?_⟩
  · have hundated : ∀ v : PalwBatchViewV1,
        v.undated.entry batchId = (v.entry batchId).map (·.undated) :=
      fun v => Table.lookup_mapVal ..
    rw [hundated, hundated, entry_afterCertificates, entry_afterCertificates, Option.map_map,
      Option.map_map]
    congr 1
    funext e
    obtain heq | ⟨h, s, d₁, -, d₂, -, heq₁, heq₂⟩ := foldl_certified_eq_or hkeys
    · exact congrArg PalwBatchLifecycleV1.undated heq
    · rw [Function.comp_apply, Function.comp_apply, heq₁, heq₂]
      rfl
  · rw [entry_afterCertificates, entry_afterCertificates]
    congr 1
    funext e
    obtain heq | ⟨h, s, d₁, hd₁, d₂, hd₂, heq₁, heq₂⟩ := foldl_certified_eq_or hkeys
    · exact heq
    · rw [heq₁, heq₂, hdates d₁ hd₁ d₂ hd₂]
  · refine ⟨_, ?_, (elected_foldl hcertifiable _).isGreatest⟩
    rw [entry_afterCertificates, hentry, Option.map_some]

def sampleCommittedView : PalwBatchViewV1 :=
  PalwBatchViewV1.new.setEntry 7
    { (sampleManifest 7 5 1).registered with status := .committed, chunksPresent := {0} }

theorem afterCertificates_confluent_two :
    (sampleCommittedView.afterCertificates [⟨7, 240, 75, 1⟩, ⟨7, 16, 75, 1⟩]) =
      sampleCommittedView.afterCertificates [⟨7, 16, 75, 1⟩, ⟨7, 240, 75, 1⟩, ⟨7, 16, 75, 1⟩] :=
  (afterCertificates_confluent (by simp [or_comm])).2.1 (by decide)

/-- Two certificates carried at different scores: the later one first leaves its own score. -/
theorem afterCertificates_order_matters :
    [(⟨7, 240, 75, 1⟩ : VerifiedCertificate), ⟨7, 16, 75, 2⟩].Perm
      [⟨7, 16, 75, 2⟩, ⟨7, 240, 75, 1⟩] ∧
    sampleCommittedView.afterCertificates [⟨7, 240, 75, 1⟩, ⟨7, 16, 75, 2⟩] ≠
      sampleCommittedView.afterCertificates [⟨7, 16, 75, 2⟩, ⟨7, 240, 75, 1⟩] := by
  refine ⟨.swap .., fun h => ?_⟩
  have hfirst := congrArg (fun v => (v.entry 7).bind (·.firstCertDaa)) h
  revert hfirst
  decide

end Misaka.Palw
