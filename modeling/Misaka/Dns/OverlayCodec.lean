import Misaka.Dns.Overlay

/-!
# What the overlay commitment binds

The preimage of the overlay commitment is the borsh encoding of the canonical snapshot, which is
determined by the content alone: the reserve, the set of bonds and the set of window contributions,
each with its rewarded keys in any order.
-/

namespace Misaka.Dns

open Misaka.Core List

def FitsOutpoint (o : TransactionOutpoint) : Prop := o.transactionId < 256 ^ 64 ∧ o.index < 256 ^ 4

def FitsOption (o : Option ℕ) : Prop := ∀ n, o = some n → n < 256 ^ 8

instance : DecidablePred FitsOutpoint := fun _ => instDecidableAnd

instance : DecidablePred FitsOption
  | none => .isTrue nofun
  | some n =>
    decidable_of_iff (n < 256 ^ 8) ⟨fun h _ hn => Option.some.inj hn ▸ h, fun h => h n rfl⟩

@[mk_iff]
structure StakeBondRecord.Fits (r : StakeBondRecord) : Prop where
  version : r.version < 256 ^ 2
  bondOutpoint : FitsOutpoint r.bondOutpoint
  ownerPubkeyHash : r.ownerPubkeyHash < 256 ^ 64
  validatorPubkeyHash : r.validatorPubkeyHash < 256 ^ 64
  validatorPubkey : r.validatorPubkey.length < 256 ^ 4
  amount : r.amount < 256 ^ 8
  activationDaaScore : r.activationDaaScore < 256 ^ 8
  createdDaaScore : r.createdDaaScore < 256 ^ 8
  unbondingPeriodBlocks : r.unbondingPeriodBlocks < 256 ^ 8
  ownerRewardSpkPayload : r.ownerRewardSpkPayload < 256 ^ 64
  unbondRequestDaaScore : FitsOption r.unbondRequestDaaScore
  slashedAtDaaScore : FitsOption r.slashedAtDaaScore
  lastAttestedEpoch : FitsOption r.lastAttestedEpoch
  dormantAtDaaScore : FitsOption r.dormantAtDaaScore
  dormantAtEpoch : FitsOption r.dormantAtEpoch

instance : DecidablePred StakeBondRecord.Fits := fun r => decidable_of_iff' _ r.fits_iff

@[mk_iff]
structure BlockOverlayContribution.Fits (c : BlockOverlayContribution) : Prop where
  blockHash : c.blockHash < 256 ^ 64
  blockDaaScore : c.blockDaaScore < 256 ^ 8
  rewardedKeys : c.rewardedKeys.length < 256 ^ 4 ∧
    ∀ k ∈ c.rewardedKeys, FitsOutpoint k.1 ∧ k.2 < 256 ^ 8
  qualitySubpool : c.qualitySubpool < 256 ^ 8

instance : DecidablePred BlockOverlayContribution.Fits := fun c => decidable_of_iff' _ c.fits_iff

/-- A snapshot that borsh can write: its vectors have `u32` lengths. -/
@[mk_iff]
structure OverlaySnapshot.Fits (s : OverlaySnapshot) : Prop where
  bonds : s.bonds.length < 256 ^ 4 ∧ ∀ b ∈ s.bonds, b.Fits
  reserveBalance : s.reserveBalance < 256 ^ 8
  window : s.window.length < 256 ^ 4 ∧ ∀ c ∈ s.window, c.Fits

instance : DecidablePred OverlaySnapshot.Fits := fun s => decidable_of_iff' _ s.fits_iff

theorem selfDelimiting_borshBytes : SelfDelimiting {b : Bytes | b.length < 256 ^ 4} borshBytes := by
  intro b hb b' hb' t u heq
  have hcounted := selfDelimiting_byte.counted (selfDelimiting_leBytes 4)
  refine hcounted ⟨hb, fun _ _ => trivial⟩ ⟨hb', fun _ _ => trivial⟩ ?_
  simpa [borshBytes] using heq

theorem selfDelimiting_borshVec {α : Type} {s : Set α} {enc : α → Bytes}
    (h : SelfDelimiting s enc) :
    SelfDelimiting {l : List α | l.length < 256 ^ 4 ∧ ∀ a ∈ l, a ∈ s} (borshVec enc) :=
  h.counted (selfDelimiting_leBytes 4)

theorem selfDelimiting_borshOption :
    SelfDelimiting {o | FitsOption o} (borshOption (leBytes 8)) := by
  intro o ho o' ho' t u heq
  cases o with
  | none =>
    cases o' with
    | none => exact ⟨rfl, tail_eq_of_cons_eq heq⟩
    | some n => cases head_eq_of_cons_eq heq
  | some n =>
    cases o' with
    | none => cases head_eq_of_cons_eq heq
    | some m =>
      obtain ⟨rfl, htail⟩ :=
        selfDelimiting_leBytes 8 (ho n rfl) (ho' m rfl) (tail_eq_of_cons_eq heq)
      exact ⟨rfl, htail⟩

theorem selfDelimiting_borshOutpoint : SelfDelimiting {o | FitsOutpoint o} borshOutpoint := by
  have hid : DelimitsPart {o | FitsOutpoint o} (fun o => hash64Bytes o.transactionId)
      (·.transactionId) := selfDelimiting_hash64Bytes.field fun _ h => h.1
  have hindex : DelimitsPart {o | FitsOutpoint o} (fun o => leBytes 4 o.index) (·.index) :=
    (selfDelimiting_leBytes 4).field fun _ h => h.2
  refine (hid.append hindex).selfDelimiting ?_
  rintro ⟨id, index⟩ ⟨id', index'⟩ h
  cases h
  rfl

theorem selfDelimiting_borshBondStatus : SelfDelimiting Set.univ borshBondStatus := by
  refine .of_length (n := 1) (fun status _ => ?_) fun status _ status' _ h => ?_
  · cases status <;> rfl
  · cases status <;> cases status' <;> first | rfl | cases h

theorem selfDelimiting_borshStakeBondRecord :
    SelfDelimiting {r | r.Fits} borshStakeBondRecord := by
  have hword {width : ℕ} {part : StakeBondRecord → ℕ} (h : ∀ r, r.Fits → part r < 256 ^ width) :
      DelimitsPart {r | r.Fits} (fun r => leBytes width (part r)) part :=
    (selfDelimiting_leBytes width).field h
  have hdigest {part : StakeBondRecord → ℕ} (h : ∀ r, r.Fits → part r < 256 ^ 64) :
      DelimitsPart {r | r.Fits} (fun r => hash64Bytes (part r)) part :=
    selfDelimiting_hash64Bytes.field h
  have hoption {part : StakeBondRecord → Option ℕ} (h : ∀ r, r.Fits → FitsOption (part r)) :
      DelimitsPart {r | r.Fits} (fun r => borshOption (leBytes 8) (part r)) part :=
    selfDelimiting_borshOption.field h
  have hstatus : DelimitsPart {r | r.Fits} (fun r => borshBondStatus r.status)
      StakeBondRecord.status := selfDelimiting_borshBondStatus.field fun _ _ => trivial
  have hall := (hword fun _ h => h.version)
    |>.append (selfDelimiting_borshOutpoint.field fun _ h => h.bondOutpoint)
    |>.append (hdigest fun _ h => h.ownerPubkeyHash)
    |>.append (hdigest fun _ h => h.validatorPubkeyHash)
    |>.append (selfDelimiting_borshBytes.field fun _ h => h.validatorPubkey)
    |>.append (hword fun _ h => h.amount)
    |>.append (hword fun _ h => h.activationDaaScore)
    |>.append (hword fun _ h => h.createdDaaScore)
    |>.append (hword fun _ h => h.unbondingPeriodBlocks)
    |>.append (hdigest fun _ h => h.ownerRewardSpkPayload)
    |>.append (hoption fun _ h => h.unbondRequestDaaScore)
    |>.append (hoption fun _ h => h.slashedAtDaaScore)
    |>.append hstatus
    |>.append (hoption fun _ h => h.lastAttestedEpoch)
    |>.append (hoption fun _ h => h.dormantAtDaaScore)
    |>.append (hoption fun _ h => h.dormantAtEpoch)
  refine hall.selfDelimiting fun r r' h => ?_
  cases r
  cases r'
  simpa [Prod.mk.injEq, and_assoc] using h

theorem selfDelimiting_rewardedKey :
    SelfDelimiting {k : TransactionOutpoint × ℕ | FitsOutpoint k.1 ∧ k.2 < 256 ^ 8}
      fun k => borshOutpoint k.1 ++ leBytes 8 k.2 := by
  have houtpoint := selfDelimiting_borshOutpoint.field
    fun (k : TransactionOutpoint × ℕ) (h : FitsOutpoint k.1 ∧ k.2 < 256 ^ 8) => h.1
  exact (houtpoint.append ((selfDelimiting_leBytes 8).field fun _ h => h.2)).selfDelimiting
    fun _ _ h => h

theorem selfDelimiting_borshContribution : SelfDelimiting {c | c.Fits} borshContribution := by
  have hword {part : BlockOverlayContribution → ℕ} (h : ∀ c, c.Fits → part c < 256 ^ 8) :
      DelimitsPart {c | c.Fits} (fun c => leBytes 8 (part c)) part :=
    (selfDelimiting_leBytes 8).field h
  have hhash : DelimitsPart {c | c.Fits} (fun c => hash64Bytes c.blockHash)
      BlockOverlayContribution.blockHash := selfDelimiting_hash64Bytes.field fun _ h => h.blockHash
  have hall := hhash
    |>.append (hword fun _ h => h.blockDaaScore)
    |>.append ((selfDelimiting_borshVec selfDelimiting_rewardedKey).field fun _ h => h.rewardedKeys)
    |>.append (hword fun _ h => h.qualitySubpool)
  refine hall.selfDelimiting fun c c' h => ?_
  cases c
  cases c'
  simpa [Prod.mk.injEq, and_assoc] using h

def OverlaySnapshot.borsh (s : OverlaySnapshot) : Bytes :=
  borshVec borshStakeBondRecord s.bonds ++ leBytes 8 s.reserveBalance ++
    borshVec borshContribution s.window

theorem selfDelimiting_borsh : SelfDelimiting {s | s.Fits} OverlaySnapshot.borsh := by
  have hbonds : DelimitsPart {s | s.Fits} (fun s => borshVec borshStakeBondRecord s.bonds)
      OverlaySnapshot.bonds :=
    (selfDelimiting_borshVec selfDelimiting_borshStakeBondRecord).field fun _ h => h.bonds
  have hall := hbonds
    |>.append ((selfDelimiting_leBytes 8).field fun _ h => h.reserveBalance)
    |>.append ((selfDelimiting_borshVec selfDelimiting_borshContribution).field fun _ h => h.window)
  refine hall.selfDelimiting fun s s' h => ?_
  cases s
  cases s'
  simpa [Prod.mk.injEq, and_assoc] using h

def BlockOverlayContribution.canonicalize (c : BlockOverlayContribution) :
    BlockOverlayContribution :=
  { c with rewardedKeys := sortBy (fun k => toLex (outpointKey k.1, k.2)) c.rewardedKeys }

theorem OverlaySnapshot.canonicalize_eq (s : OverlaySnapshot) :
    s.canonicalize = ⟨sortBy (fun b => outpointKey b.bondOutpoint) s.bonds, s.reserveBalance,
      sortBy (·.blockHash) (s.window.map (·.canonicalize))⟩ := rfl

structure BlockOverlayContribution.Same (c c' : BlockOverlayContribution) : Prop where
  blockHash : c.blockHash = c'.blockHash
  blockDaaScore : c.blockDaaScore = c'.blockDaaScore
  rewardedKeys : c.rewardedKeys.Perm c'.rewardedKeys
  qualitySubpool : c.qualitySubpool = c'.qualitySubpool

structure OverlaySnapshot.SameContent (s s' : OverlaySnapshot) : Prop where
  reserveBalance : s.reserveBalance = s'.reserveBalance
  bonds : ∀ b, b ∈ s.bonds ↔ b ∈ s'.bonds
  window : ∀ c ∈ s.window, ∃ c' ∈ s'.window, c.Same c'
  window' : ∀ c' ∈ s'.window, ∃ c ∈ s.window, c.Same c'

structure OverlaySnapshot.Distinct (s : OverlaySnapshot) : Prop where
  bonds : (s.bonds.map (·.bondOutpoint)).Nodup
  window : (s.window.map (·.blockHash)).Nodup

theorem rewardedKey_injective :
    Function.Injective fun k : TransactionOutpoint × ℕ => toLex (outpointKey k.1, k.2) := by
  rintro ⟨o, epoch⟩ ⟨o', epoch'⟩ h
  obtain ⟨hkey, hepoch⟩ := Prod.mk.inj (toLex.injective h)
  exact Prod.ext (outpointKey_injective hkey) hepoch

theorem canonicalize_contribution_eq_iff {c c' : BlockOverlayContribution} :
    c.canonicalize = c'.canonicalize ↔ c.Same c' := by
  cases c
  cases c'
  simp only [BlockOverlayContribution.canonicalize, BlockOverlayContribution.mk.injEq,
    sortBy_eq_iff_perm rewardedKey_injective]
  constructor <;> exact fun ⟨hhash, hdaa, hkeys, hpool⟩ => ⟨hhash, hdaa, hkeys, hpool⟩

theorem canonicalize_contribution_idem (c : BlockOverlayContribution) :
    c.canonicalize.canonicalize = c.canonicalize := by
  simp only [BlockOverlayContribution.canonicalize, sortBy_of_pairwise (sortBy_pairwise _ _)]

theorem OverlaySnapshot.canonicalize_canonicalize (s : OverlaySnapshot) :
    s.canonicalize.canonicalize = s.canonicalize := by
  have hmap : (sortBy (·.blockHash) (s.window.map (·.canonicalize))).map (·.canonicalize) =
      sortBy (·.blockHash) (s.window.map (·.canonicalize)) := by
    refine (map_congr_left fun c hc => ?_).trans (map_id _)
    obtain ⟨d, -, rfl⟩ := mem_map.mp ((sortBy_perm _ _).mem_iff.mp hc)
    exact canonicalize_contribution_idem d
  simp only [OverlaySnapshot.canonicalize_eq, hmap, sortBy_of_pairwise (sortBy_pairwise _ _)]

variable {s s' : OverlaySnapshot}

theorem mem_canonicalize_bonds {b : StakeBondRecord} : b ∈ s.canonicalize.bonds ↔ b ∈ s.bonds :=
  (sortBy_perm _ _).mem_iff

theorem mem_canonicalize_window {c : BlockOverlayContribution} :
    c ∈ s.canonicalize.window ↔ ∃ d ∈ s.window, d.canonicalize = c := by
  rw [OverlaySnapshot.canonicalize_eq, (sortBy_perm _ _).mem_iff, mem_map]

theorem canonicalize_window_of_eq (h : s.canonicalize = s'.canonicalize) :
    ∀ c ∈ s.window, ∃ c' ∈ s'.window, c.Same c' := by
  intro c hc
  have hmem : c.canonicalize ∈ s'.canonicalize.window := by
    rw [← h]
    exact mem_canonicalize_window.mpr ⟨c, hc, rfl⟩
  obtain ⟨c', hc', heq⟩ := mem_canonicalize_window.mp hmem
  exact ⟨c', hc', canonicalize_contribution_eq_iff.mp heq.symm⟩

theorem OverlaySnapshot.canonicalize_eq_iff (hs : s.Distinct) (hs' : s'.Distinct) :
    s.canonicalize = s'.canonicalize ↔ s.SameContent s' := by
  constructor
  · intro h
    have hreserve : s.canonicalize.reserveBalance = s'.canonicalize.reserveBalance := by rw [h]
    refine ⟨hreserve, fun b => ?_, canonicalize_window_of_eq h, ?_⟩
    · rw [← mem_canonicalize_bonds, h, mem_canonicalize_bonds]
    · intro c' hc'
      obtain ⟨c, hc, hsame⟩ := canonicalize_window_of_eq h.symm c' hc'
      exact ⟨c, hc, canonicalize_contribution_eq_iff.mp
        (canonicalize_contribution_eq_iff.mpr hsame).symm⟩
  · intro h
    have hbonds : s.bonds.Perm s'.bonds :=
      (perm_ext_iff_of_nodup (.of_map _ hs.bonds) (.of_map _ hs'.bonds)).mpr h.bonds
    have hnodup {t : OverlaySnapshot} (ht : t.Distinct) :
        ((t.window.map (·.canonicalize)).map (·.blockHash)).Nodup := by
      rw [map_map]
      exact ht.window
    have hwindow : (s.window.map (·.canonicalize)).Perm (s'.window.map (·.canonicalize)) := by
      refine (perm_ext_iff_of_nodup (.of_map _ (hnodup hs)) (.of_map _ (hnodup hs'))).mpr ?_
      intro d
      simp only [mem_map]
      constructor
      · rintro ⟨c, hc, rfl⟩
        obtain ⟨c', hc', hsame⟩ := h.window c hc
        exact ⟨c', hc', (canonicalize_contribution_eq_iff.mpr hsame).symm⟩
      · rintro ⟨c', hc', rfl⟩
        obtain ⟨c, hc, hsame⟩ := h.window' c' hc'
        exact ⟨c, hc, canonicalize_contribution_eq_iff.mpr hsame⟩
    rw [OverlaySnapshot.canonicalize_eq, OverlaySnapshot.canonicalize_eq, h.reserveBalance,
      sortBy_eq_of_perm hbonds fun a ha b hb hab =>
        inj_on_of_nodup_map hs.bonds ha hb (outpointKey_injective hab),
      sortBy_eq_of_perm hwindow fun a ha b hb hab =>
        inj_on_of_nodup_map (hnodup hs) ha hb hab]

theorem fits_canonicalize (hs : s.Fits) : s.canonicalize.Fits := by
  refine ⟨⟨?_, fun b hb => hs.bonds.2 b (mem_canonicalize_bonds.mp hb)⟩, hs.reserveBalance,
    ⟨?_, fun c hc => ?_⟩⟩
  · exact (sortBy_perm _ _).length_eq.trans_lt hs.bonds.1
  · rw [OverlaySnapshot.canonicalize_eq]
    refine (sortBy_perm _ _).length_eq.trans_lt ?_
    rw [length_map]
    exact hs.window.1
  · obtain ⟨d, hd, rfl⟩ := mem_canonicalize_window.mp hc
    have hfits := hs.window.2 d hd
    refine ⟨hfits.blockHash, hfits.blockDaaScore, ⟨?_, fun k hk => ?_⟩, hfits.qualitySubpool⟩
    · exact (sortBy_perm _ _).length_eq.trans_lt hfits.rewardedKeys.1
    · exact hfits.rewardedKeys.2 k ((sortBy_perm _ _).mem_iff.mp hk)

/-- Two snapshots have one preimage if and only if they have the same content: sorting twice is
sorting once, the canonical form does not depend on the order, and the encoding is injective. -/
theorem overlay_preimage_eq_iff (hfits : s.Fits) (hfits' : s'.Fits) (hs : s.Distinct)
    (hs' : s'.Distinct) :
    (s.commitmentPreimage = s'.commitmentPreimage ↔ s.SameContent s') ∧
      s.canonicalize.canonicalize = s.canonicalize ∧
      (s.SameContent s' → s.canonicalize = s'.canonicalize) ∧
      (s.borsh = s'.borsh → s = s') := by
  have hcanonical := OverlaySnapshot.canonicalize_eq_iff hs hs'
  refine ⟨?_, s.canonicalize_canonicalize, hcanonical.mpr, selfDelimiting_borsh.injOn hfits hfits'⟩
  rw [← hcanonical]
  constructor
  · intro h
    exact selfDelimiting_borsh.injOn (fits_canonicalize hfits) (fits_canonicalize hfits') h
  · intro h
    rw [OverlaySnapshot.commitmentPreimage, OverlaySnapshot.commitmentPreimage, h]

/-- Two listings of two bonds and of the rewarded keys of a block. -/
theorem overlay_preimage_eq_iff_swapped :
    let bond (id : Hash64) : StakeBondRecord :=
      { (default : StakeBondRecord) with bondOutpoint := ⟨id, 0⟩ }
    let s (bonds : List StakeBondRecord)
      (keys : List (TransactionOutpoint × ℕ)) : OverlaySnapshot :=
      ⟨bonds, 5, [⟨9, 1, keys, 3⟩]⟩
    (s [bond 1, bond 2] [(⟨1, 0⟩, 7), (⟨2, 0⟩, 7)]).commitmentPreimage =
      (s [bond 2, bond 1] [(⟨2, 0⟩, 7), (⟨1, 0⟩, 7)]).commitmentPreimage := by
  intro bond s
  have hkeys : [((⟨2, 0⟩ : TransactionOutpoint), 7), (⟨1, 0⟩, 7)].Perm
      [(⟨1, 0⟩, 7), (⟨2, 0⟩, 7)] := List.Perm.swap _ _ _
  refine (overlay_preimage_eq_iff (by decide) (by decide) ⟨by decide, by decide⟩
    ⟨by decide, by decide⟩).1.mpr ⟨rfl, fun b => ?_, ?_, ?_⟩
  · exact (List.Perm.swap _ _ _).mem_iff
  all_goals exact fun c hc => ⟨_, mem_singleton_self _, by
    rw [mem_singleton.mp hc]
    exact ⟨rfl, rfl, hkeys.symm, rfl⟩⟩

end Misaka.Dns
