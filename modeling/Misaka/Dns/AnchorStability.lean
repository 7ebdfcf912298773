import Misaka.Dns.Anchors

/-!
# Stability of the canonical anchors

`canonical_anchor_by_blue_score` and `canonical_anchors_in_window` cut the walk down a selected
chain at different places. Both only ask for the newest visible block at or below the cutoff of an
epoch and of the one before it.
-/

namespace Misaka.Dns

open Misaka.Core List

def Falling (chain : List HeaderRow) : Prop :=
  chain.Pairwise fun newer older => older.blueScore < newer.blueScore

def visible (params : DnsParams) (tip : HeaderRow) (chain : List HeaderRow) : List HeaderRow :=
  chain.takeWhile fun r => decide (tip.blueScore - r.blueScore ≤ params.stakeScoreWindowBlueScore)

def laggedAnchor (params : DnsParams) (epoch : ℕ) (rows : List HeaderRow) :
    Option CanonicalLaggedEpochAnchor :=
  canonicalLaggedEpochAnchor epoch (max params.attestationEpochLengthBlueScore 1)
    params.attestationAnchorBackoffBlueScore rows

variable {a a' anchor : CanonicalLaggedEpochAnchor} {bound : ℕ} {ancestors chain : List HeaderRow}

section Lookups

variable {epoch len backoff : ℕ} {l l' : List HeaderRow}

theorem canonicalLaggedEpochAnchor_congr
    (h : latestAtMost (·.blueScore) (anchorCutoffBlueScore epoch (max len 1) backoff) l =
      latestAtMost (·.blueScore) (anchorCutoffBlueScore epoch (max len 1) backoff) l')
    (hprev : latestAtMost (·.blueScore) (anchorCutoffBlueScore (epoch - 1) (max len 1) backoff) l =
      latestAtMost (·.blueScore) (anchorCutoffBlueScore (epoch - 1) (max len 1) backoff) l') :
    canonicalLaggedEpochAnchor epoch len backoff l =
      canonicalLaggedEpochAnchor epoch len backoff l' := by
  unfold canonicalLaggedEpochAnchor
  dsimp only
  rw [h, hprev]

/-- But for the flag an anchor is a function of the latest row at its cutoff. -/
theorem canonicalLaggedEpochAnchor_eq_of_latest
    (h : canonicalLaggedEpochAnchor epoch len backoff l = some a)
    (h' : canonicalLaggedEpochAnchor epoch len backoff l' = some a')
    (hflag : a.duplicateOfPreviousAnchor = a'.duplicateOfPreviousAnchor)
    (hrow : ∀ row row',
      latestAtMost (·.blueScore) (anchorCutoffBlueScore epoch (max len 1) backoff) l = some row →
      latestAtMost (·.blueScore) (anchorCutoffBlueScore epoch (max len 1) backoff) l' = some row' →
        row = row') : a = a' := by
  unfold canonicalLaggedEpochAnchor at h h'
  dsimp only at h h'
  split at h
  · cases h
  · next row hl =>
    split at h'
    · cases h'
    · next row' hl' =>
      obtain rfl := hrow row row' hl hl'
      cases h
      cases h'
      dsimp only at hflag
      rw [hflag]

end Lookups

theorem latest_collectAncestors {window tipBlue needed : ℕ} (h : needed ≤ bound)
    (l : List HeaderRow) :
    latestAtMost (·.blueScore) bound (collectAncestors window tipBlue needed l) =
      latestAtMost (·.blueScore) bound
        (l.takeWhile fun r => decide (tipBlue - r.blueScore ≤ window)) := by
  induction l with
  | nil => rfl
  | cons r rest ih =>
    unfold collectAncestors
    by_cases hout : window < tipBlue - r.blueScore
    · rw [if_pos hout, takeWhile_cons_of_neg (by simp; omega)]
    · rw [if_neg hout, takeWhile_cons_of_pos (by simp; omega)]
      by_cases hr : r.blueScore ≤ bound
      · simp [latestAtMost, hr]
      · have hneeded : ¬ r.blueScore ≤ needed := fun hle => hr (hle.trans h)
        rw [if_neg hneeded, latestAtMost_cons_of_lt (Nat.lt_of_not_le hr),
          latestAtMost_cons_of_lt (Nat.lt_of_not_le hr), ih]

theorem latest_takeWhile_truncate {row : HeaderRow} (h : row.blueScore ≤ bound)
    (p : HeaderRow → Bool) (kept dropped : List HeaderRow) :
    latestAtMost (·.blueScore) bound ((kept ++ row :: dropped).takeWhile p) =
      latestAtMost (·.blueScore) bound ((kept ++ [row]).takeWhile p) := by
  induction kept with
  | nil =>
    by_cases hp : p row
    · simp [latestAtMost, hp, h]
    · simp [hp]
  | cons r kept ih =>
    rw [cons_append, cons_append, takeWhile_cons, takeWhile_cons]
    split
    · by_cases hr : r.blueScore ≤ bound
      · simp [latestAtMost, hr]
      · rw [latestAtMost_cons_of_lt (Nat.lt_of_not_le hr),
          latestAtMost_cons_of_lt (Nat.lt_of_not_le hr), ih]
    · rfl

section Window

variable {params : DnsParams} {tip : HeaderRow} {rest : List HeaderRow}

theorem takeWhile_chainWalk : ((chainWalk (tip :: rest)).takeWhile fun r =>
    decide (tip.blueScore - r.blueScore ≤ params.stakeScoreWindowBlueScore)) =
      chainWalk (visible params tip (tip :: rest)) := by
  simp [chainWalk, visible]

theorem visible_cons : visible params tip (tip :: rest) =
    tip :: visible params tip rest := by
  simp [visible]

theorem visible_isPrefix (tip : HeaderRow) (chain : List HeaderRow) :
    visible params tip chain <+: chain :=
  takeWhile_prefix _

theorem oldest_le_iff {l : List HeaderRow} (hl : Falling l) {last : HeaderRow}
    (hlast : l.getLast? = some last) :
    last.blueScore ≤ bound ↔ ∃ row, latestAtMost (·.blueScore) bound l = some row := by
  obtain ⟨init, rfl⟩ := List.getLast?_eq_some_iff.mp hlast
  constructor
  · intro h
    cases hfind : latestAtMost (·.blueScore) bound (init ++ [last]) with
    | some row => exact ⟨row, rfl⟩
    | none =>
      have hnone := List.find?_eq_none.mp hfind last (by simp)
      simp [h] at hnone
  · rintro ⟨row, hrow⟩
    have hle := le_of_latestAtMost hrow
    rcases mem_append.mp (mem_of_find?_eq_some hrow) with hmem | hmem
    · have hlt := (pairwise_append.mp hl).2.2 row hmem last (mem_singleton_self _)
      omega
    · rwa [← mem_singleton.mp hmem]

end Window

theorem mem_creditableAnchor {len backoff epoch e : ℕ}
    :
    (epoch, anchor) ∈ creditableAnchor len backoff ancestors e ↔
      epoch = e ∧ canonicalLaggedEpochAnchor epoch len backoff ancestors = some anchor ∧
        anchor.duplicateOfPreviousAnchor = false := by
  unfold creditableAnchor
  constructor
  · intro h
    split at h
    · next found hfound =>
      split at h
      · cases h
      · next hflag =>
        obtain ⟨rfl, rfl⟩ := Prod.mk.inj (mem_singleton.mp h)
        exact ⟨rfl, hfound, Bool.eq_false_iff.mpr hflag⟩
    · cases h
  · rintro ⟨rfl, hfound, hflag⟩
    rw [hfound]
    dsimp only
    rw [hflag, if_neg Bool.false_ne_true]
    exact mem_singleton_self _

theorem mem_creditableAnchors_iff {len backoff oldest latest epoch : ℕ} :
    (epoch, anchor) ∈ creditableAnchors len backoff oldest ancestors latest ↔
      epoch ≤ latest ∧ oldest ≤ anchorCutoffBlueScore (epoch - 1) len backoff ∧
        canonicalLaggedEpochAnchor epoch len backoff ancestors = some anchor ∧
        anchor.duplicateOfPreviousAnchor = false := by
  induction latest with
  | zero =>
    unfold creditableAnchors
    split
    · next hold =>
      refine ⟨fun h => absurd h not_mem_nil, ?_⟩
      rintro ⟨hle, holdest, -⟩
      rw [Nat.le_zero.mp hle] at holdest
      exact absurd hold (Nat.not_lt.mpr holdest)
    · next hold =>
      rw [mem_creditableAnchor]
      constructor
      · rintro ⟨rfl, hrest⟩
        exact ⟨le_rfl, Nat.le_of_not_lt hold, hrest⟩
      · rintro ⟨hle, -, hrest⟩
        exact ⟨Nat.le_zero.mp hle, hrest⟩
  | succ latest ih =>
    unfold creditableAnchors
    split
    · next hold =>
      refine ⟨fun h => absurd h not_mem_nil, ?_⟩
      rintro ⟨hle, holdest, -⟩
      have hmono : anchorCutoffBlueScore (epoch - 1) len backoff ≤
          anchorCutoffBlueScore latest len backoff :=
        anchorCutoffBlueScore_mono (by omega) len backoff
      omega
    · next hold =>
      rw [mem_append, mem_creditableAnchor, ih]
      constructor
      · rintro (⟨rfl, hrest⟩ | ⟨hle, holdest, hrest⟩)
        · exact ⟨le_rfl, Nat.le_of_not_lt hold, hrest⟩
        · exact ⟨hle.trans (Nat.le_succ _), holdest, hrest⟩
      · rintro ⟨hle, holdest, hrest⟩
        rcases Nat.le_succ_iff.mp hle with hle | rfl
        · exact .inr ⟨hle, holdest, hrest⟩
        · exact .inl ⟨rfl, hrest⟩

section Derivations

variable {params : DnsParams} {tip : HeaderRow} {rest : List HeaderRow} {epoch : ℕ}

theorem mem_canonicalAnchorsInWindow_iff (hchain : Falling (tip :: rest))
    :
    (epoch, anchor) ∈ canonicalAnchorsInWindow params (tip :: rest) ↔
      (∃ latest, readyEpochFromTipBlueScore tip.blueScore
        (max params.attestationEpochLengthBlueScore 1) params.attestationLagBlueScore =
          some latest ∧ epoch ≤ latest) ∧
      (∃ row, latestAtMost (·.blueScore) (params.cutoff (epoch - 1))
        (visible params tip (tip :: rest)) = some row) ∧
      laggedAnchor params epoch (visible params tip (tip :: rest)) = some anchor ∧
        anchor.duplicateOfPreviousAnchor = false := by
  have hfalling : Falling (visible params tip (tip :: rest)) :=
    List.Pairwise.sublist (visible_isPrefix tip _).sublist hchain
  have hanchor : canonicalLaggedEpochAnchor epoch (max params.attestationEpochLengthBlueScore 1)
      params.attestationAnchorBackoffBlueScore (chainWalk (visible params tip (tip :: rest))) =
      laggedAnchor params epoch (visible params tip (tip :: rest)) :=
    canonicalLaggedEpochAnchor_congr (latest_chainWalk _ _) (latest_chainWalk _ _)
  obtain ⟨last, hlast⟩ : ∃ last, (visible params tip (tip :: rest)).getLast? = some last := by
    rw [visible_cons]
    exact ⟨_, List.getLast?_eq_some_getLast (cons_ne_nil _ _)⟩
  have hwalk : (chainWalk (visible params tip (tip :: rest))).getLast? = some last := by
    rw [← hlast, visible_cons]
    exact List.getLast?_cons_cons
  unfold canonicalAnchorsInWindow
  dsimp only [List.head?_cons]
  rw [takeWhile_chainWalk, hwalk]
  cases hready : readyEpochFromTipBlueScore tip.blueScore
      (max params.attestationEpochLengthBlueScore 1) params.attestationLagBlueScore with
  | none => simp
  | some latest =>
    rw [mem_creditableAnchors_iff, hanchor, Option.map_some, Option.getD_some]
    refine and_congr ?_ (and_congr (oldest_le_iff hfalling hlast) Iff.rfl)
    simp

theorem canonicalLaggedEpochAnchor_eq_of_latest_eq {rows rows' : List HeaderRow}
    (h : ∀ bound, params.cutoff (epoch - 1) ≤ bound →
      latestAtMost (·.blueScore) bound rows = latestAtMost (·.blueScore) bound rows') :
    laggedAnchor params epoch rows = laggedAnchor params epoch rows' := by
  have hmax : max (max params.attestationEpochLengthBlueScore 1) 1 =
      max params.attestationEpochLengthBlueScore 1 := max_eq_left (le_max_right _ 1)
  refine canonicalLaggedEpochAnchor_congr ?_ ?_
  · rw [hmax]
    exact h _ (anchorCutoffBlueScore_mono (Nat.sub_le _ _) _ _)
  · rw [hmax]
    exact h _ le_rfl

theorem canonicalAnchorByBlueScore_eq : canonicalAnchorByBlueScore params epoch (tip :: rest) =
    if tip.blueScore < params.cutoff epoch then none
    else laggedAnchor params epoch (visible params tip (tip :: rest)) := by
  unfold canonicalAnchorByBlueScore
  dsimp only [List.head?_cons]
  refine if_congr Iff.rfl rfl (canonicalLaggedEpochAnchor_eq_of_latest_eq fun bound h => ?_)
  refine (latest_collectAncestors h _).trans ?_
  rw [takeWhile_chainWalk, latest_chainWalk]

end Derivations

section Stability

variable {params : DnsParams} {epoch : ℕ}

theorem creditable_anchor_stable {upper lower : List HeaderRow} (hchain : Falling (upper ++ lower))
    (h : (epoch, a) ∈ canonicalAnchorsInWindow params lower)
    (h' : (epoch, a') ∈ canonicalAnchorsInWindow params (upper ++ lower)) : a = a' := by
  cases lower with
  | nil => cases h
  | cons tip rest =>
    have hlower : Falling (tip :: rest) := (pairwise_append.mp hchain).2.1
    cases hwhole : upper ++ tip :: rest with
    | nil => simp at hwhole
    | cons tip' rest' =>
      rw [hwhole] at h' hchain
      obtain ⟨⟨latest, hready, hle⟩, -, hanchor, hflag⟩ :=
        (mem_canonicalAnchorsInWindow_iff hlower).mp h
      obtain ⟨-, -, hanchor', hflag'⟩ := (mem_canonicalAnchorsInWindow_iff hchain).mp h'
      refine canonicalLaggedEpochAnchor_eq_of_latest hanchor hanchor' (hflag.trans hflag'.symm)
        fun row row' hrow hrow' => ?_
      have hcutoff : anchorCutoffBlueScore epoch
          (max (max params.attestationEpochLengthBlueScore 1) 1)
          params.attestationAnchorBackoffBlueScore ≤ tip.blueScore := by
        rw [max_eq_left (le_max_right _ 1)]
        exact cutoff_le_of_ready hready hle _
      -- everything above the lower tip is above the cutoff
      have habove : ∀ r ∈ upper, anchorCutoffBlueScore epoch
          (max (max params.attestationEpochLengthBlueScore 1) 1)
          params.attestationAnchorBackoffBlueScore < r.blueScore := by
        intro r hr
        rw [← hwhole] at hchain
        have hlt := (pairwise_append.mp hchain).2.2 r hr tip mem_cons_self
        exact hcutoff.trans_lt hlt
      have hlow := latestAtMost_of_prefix (visible_isPrefix tip _) hrow
      have hhigh := latestAtMost_of_prefix (visible_isPrefix tip' _) hrow'
      rw [← hwhole, latestAtMost_append habove, hlow] at hhigh
      exact Option.some.inj hhigh

theorem canonicalAnchorByBlueScore_of_creditable (hchain : Falling chain)
    (h : (epoch, a) ∈ canonicalAnchorsInWindow params chain) :
    canonicalAnchorByBlueScore params epoch chain = some a ∧
      a.duplicateOfPreviousAnchor = false := by
  cases chain with
  | nil => cases h
  | cons tip rest =>
    obtain ⟨⟨latest, hready, hle⟩, -, hanchor, hflag⟩ :=
      (mem_canonicalAnchorsInWindow_iff hchain).mp h
    have hcutoff : params.cutoff epoch ≤ tip.blueScore := cutoff_le_of_ready hready hle _
    rw [canonicalAnchorByBlueScore_eq, if_neg (Nat.not_lt.mpr hcutoff)]
    exact ⟨hanchor, hflag⟩

theorem truncate_at_previous_anchor {row : HeaderRow} {kept dropped : List HeaderRow}
    (hchain : Falling (kept ++ row :: dropped))
    (hrow : row.blueScore ≤ params.cutoff (epoch - 1)) :
    canonicalAnchorByBlueScore params epoch (kept ++ [row]) =
        canonicalAnchorByBlueScore params epoch (kept ++ row :: dropped) ∧
      ∀ a, (epoch, a) ∈ canonicalAnchorsInWindow params (kept ++ [row]) ↔
        (epoch, a) ∈ canonicalAnchorsInWindow params (kept ++ row :: dropped) := by
  have hkept : Falling (kept ++ [row]) := by
    refine List.Pairwise.sublist ?_ hchain
    exact (List.Sublist.refl kept).append (singleton_sublist.mpr mem_cons_self)
  obtain ⟨tip, rest, rest', hshort, hlong⟩ : ∃ tip rest rest', kept ++ [row] = tip :: rest ∧
      kept ++ row :: dropped = tip :: rest' := by
    cases kept with
    | nil => exact ⟨row, [], dropped, rfl, rfl⟩
    | cons tip kept => exact ⟨tip, kept ++ [row], kept ++ row :: dropped, rfl, rfl⟩
  have hlatest {bound : ℕ} (h : params.cutoff (epoch - 1) ≤ bound) :
      latestAtMost (·.blueScore) bound (visible params tip (tip :: rest)) =
        latestAtMost (·.blueScore) bound (visible params tip (tip :: rest')) := by
    rw [← hshort, ← hlong]
    exact (latest_takeWhile_truncate (hrow.trans h) _ kept dropped).symm
  have hanchor : laggedAnchor params epoch (visible params tip (tip :: rest)) =
      laggedAnchor params epoch (visible params tip (tip :: rest')) :=
    canonicalLaggedEpochAnchor_eq_of_latest_eq fun _ h => hlatest h
  rw [hshort] at hkept
  rw [hlong] at hchain
  rw [hshort, hlong]
  refine ⟨?_, fun a => ?_⟩
  · rw [canonicalAnchorByBlueScore_eq, canonicalAnchorByBlueScore_eq, hanchor]
  · rw [mem_canonicalAnchorsInWindow_iff hkept, mem_canonicalAnchorsInWindow_iff hchain, hanchor,
      hlatest le_rfl]

/-- On a chain along which blue scores fall from the tip, two tips that both credit an epoch credit
the same anchor; a credited anchor is the one looked up for its epoch, unflagged; and dropping the
chain below the anchor of the previous epoch changes neither answer. -/
theorem canonical_anchors_stable_and_agree (params : DnsParams) (hchain : Falling chain)
    (epoch : ℕ) :
    (∀ upper lower, chain = upper ++ lower → ∀ a a',
      (epoch, a) ∈ canonicalAnchorsInWindow params lower →
        (epoch, a') ∈ canonicalAnchorsInWindow params chain → a = a') ∧
    (∀ a, (epoch, a) ∈ canonicalAnchorsInWindow params chain →
      canonicalAnchorByBlueScore params epoch chain = some a ∧
        a.duplicateOfPreviousAnchor = false) ∧
    ∀ row, latestAtMost (·.blueScore) (params.cutoff (epoch - 1)) chain = some row →
      ∀ kept dropped, chain = kept ++ row :: dropped →
        canonicalAnchorByBlueScore params epoch (kept ++ [row]) =
            canonicalAnchorByBlueScore params epoch chain ∧
          ∀ a, (epoch, a) ∈ canonicalAnchorsInWindow params (kept ++ [row]) ↔
            (epoch, a) ∈ canonicalAnchorsInWindow params chain := by
  refine ⟨?_, fun a ha => canonicalAnchorByBlueScore_of_creditable hchain ha, ?_⟩
  · rintro upper lower rfl a a' ha ha'
    exact creditable_anchor_stable hchain ha ha'
  · rintro row hrow kept dropped rfl
    exact truncate_at_previous_anchor hchain (le_of_latestAtMost hrow)

def tenPerEpoch : DnsParams :=
  { (default : DnsParams) with
    attestationEpochLengthBlueScore := 10
    stakeScoreWindowBlueScore := 100 }

def steppedChain : List HeaderRow := [⟨4, 35, 35⟩, ⟨3, 25, 25⟩, ⟨2, 15, 15⟩, ⟨1, 5, 5⟩]

/-- The second epoch is credited at both tips of the stepped chain, with one anchor. -/
theorem canonical_anchors_stable_and_agree_steppedChain :
    ∃ a, (1, a) ∈ canonicalAnchorsInWindow tenPerEpoch steppedChain ∧
      canonicalAnchorByBlueScore tenPerEpoch 1 steppedChain = some a ∧ a.anchorHash = 2 ∧
      ∀ a', (1, a') ∈ canonicalAnchorsInWindow tenPerEpoch (steppedChain.drop 1) → a' = a := by
  have hfalling : Falling steppedChain := by
    unfold Falling
    decide
  obtain ⟨hstable, hagree, -⟩ := canonical_anchors_stable_and_agree tenPerEpoch hfalling 1
  have hmem : (1, (⟨1, 10, 19, 19, 2, 15, 15, false⟩ : CanonicalLaggedEpochAnchor)) ∈
      canonicalAnchorsInWindow tenPerEpoch steppedChain := by
    decide
  refine ⟨_, hmem, (hagree _ hmem).1, rfl, fun a' ha' => ?_⟩
  exact hstable (steppedChain.take 1) _ rfl a' _ ha' hmem

end Stability

end Misaka.Dns
