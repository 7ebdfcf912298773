import Misaka.Dns.RewardWindow

/-!
# Listings of the bond set

The bond set is a hash map, so every walk over its rows sees them in an order of its own. Building a
block and verifying it walk the map separately; what they compute agrees because each computation
over the rows depends on the set of rows alone.
-/

namespace Misaka.Dns

open Misaka.Core List

structure SameRows (l l' : List StakeBondRecord) : Prop where
  perm : l.Perm l'
  nodup : (l.map (·.bondOutpoint)).Nodup

namespace SameRows

variable {l l' : List StakeBondRecord}

theorem of_lists {view : ActiveBondView} (hkeyed : view.bonds.WellKeyed) (hl : view.Lists l)
    (hl' : view.Lists l') : SameRows l l' := by
  refine ⟨Multiset.coe_eq_coe.mp (hl.trans hl'.symm), ?_⟩
  rw [← Multiset.coe_nodup, ← Multiset.map_coe, hl, Table.values, Multiset.map_map]
  have hkeys : view.bonds.entries.map ((·.bondOutpoint) ∘ Sigma.snd) =
      view.bonds.entries.map Sigma.fst := by
    refine Multiset.map_congr rfl fun e he => hkeyed e.1 e.2 ?_
    exact Finmap.lookup_eq_some_iff.mpr he
  rw [hkeys]
  exact Multiset.nodup_keys.mpr view.bonds.nodupKeys

theorem bondByOutpoint_eq (h : SameRows l l') : bondByOutpoint l = bondByOutpoint l' := by
  funext o
  refine find?_eq_of_perm ((reverse_perm l).trans (h.perm.trans (reverse_perm l').symm))
    ?_ o
  rw [map_reverse, nodup_reverse]
  exact h.nodup

theorem satSum_filter_eq (h : SameRows l l') (bound : ℕ) (p : StakeBondRecord → Bool) :
    satSum bound ((l.filter p).map (·.amount)) = satSum bound ((l'.filter p).map (·.amount)) := by
  rw [satSum_eq, satSum_eq, ((h.perm.filter p).map _).sum_eq]

theorem recomputeEpochTallies_eq (h : SameRows l l') (contributions : List BlockEpochContribution)
    (sinkDaaScore epochLengthBlocks depth : ℕ) :
    recomputeEpochTallies contributions l sinkDaaScore epochLengthBlocks depth =
      recomputeEpochTallies contributions l' sinkDaaScore epochLengthBlocks depth := by
  have hexpected (anchor : ℕ) : expectedStakeAt l anchor = expectedStakeAt l' anchor :=
    h.satSum_filter_eq _ _
  simp only [recomputeEpochTallies, touchedEpochs, includedBonds, hexpected, h.bondByOutpoint_eq]

variable {params : DnsParams} {persisted : Option PersistedOverlay} {chain : List ChainEntry}

theorem settlementTallies_eq (h : SameRows l l') (daa : ℕ) :
    (settlementInput params persisted chain l daa).tallies params =
      (settlementInput params persisted chain l' daa).tallies params :=
  h.recomputeEpochTallies_eq ..

theorem validatorRewardOutputsForBlock_eq (h : SameRows l l') (P : Primitives)
    (dnsParams : Option DnsParams) (txs : List Transaction) (bondView : ActiveBondView)
    (daa pool : ℕ) :
    validatorRewardOutputsForBlock P dnsParams persisted chain txs bondView l daa pool =
      validatorRewardOutputsForBlock P dnsParams persisted chain txs bondView l' daa pool := by
  cases dnsParams with
  | none => rfl
  | some params =>
    have hbonus : deferredQualityBonusOutputs params
          (settlementInput params persisted chain l daa) =
        deferredQualityBonusOutputs params (settlementInput params persisted chain l' daa) := by
      unfold deferredQualityBonusOutputs
      rw [h.settlementTallies_eq]
      rfl
    unfold validatorRewardOutputsForBlock
    dsimp only
    rw [hbonus]

theorem reserveDripOutputs_eq (h : SameRows l l') (daa balance : ℕ) :
    reserveDripOutputs params (settlementInput params persisted chain l daa) balance =
      reserveDripOutputs params (settlementInput params persisted chain l' daa) balance := by
  unfold reserveDripOutputs
  rw [h.settlementTallies_eq]
  rfl

theorem commitmentRoot_eq (h : SameRows l l') (P : Primitives) (anchorDaa reserveBalance : ℕ)
    (window : List BlockOverlayContribution) :
    (overlaySnapshotOf l anchorDaa reserveBalance window).commitmentRoot P =
      (overlaySnapshotOf l' anchorDaa reserveBalance window).commitmentRoot P := by
  have hsort : sortBy (fun b => outpointKey b.bondOutpoint) (l.map (·.withStatusAt anchorDaa)) =
      sortBy (fun b => outpointKey b.bondOutpoint) (l'.map (·.withStatusAt anchorDaa)) := by
    refine sortBy_eq_of_perm (h.perm.map _) fun a ha b hb hab => ?_
    obtain ⟨a', ha', rfl⟩ := mem_map.mp ha
    obtain ⟨b', hb', rfl⟩ := mem_map.mp hb
    rw [inj_on_of_nodup_map h.nodup ha' hb' (outpointKey_injective hab)]
  unfold OverlaySnapshot.commitmentRoot OverlaySnapshot.commitmentPreimage
    OverlaySnapshot.canonicalize overlaySnapshotOf
  rw [hsort]

end SameRows

end Misaka.Dns
