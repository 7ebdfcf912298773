import Misaka.Palw.Registry

/-!
# The provider registry along chains

A selected chain is walked block by block: the acceptance of unbond requests is filtered against the
selected parent, the lane's state advances, and the block leaves its mutations.
-/

namespace Misaka.Palw

open Misaka.Core Dns List Table

/-! ## Walking a chain -/

inductive PalwChainFault where
  | failStop (e : PalwFailStop)
  | unauthorizedUnbond (outpoint : TransactionOutpoint)
  deriving DecidableEq, Repr

variable (P : PalwPrimitives) (V : PalwProcessor) {hash : BlockHash}

def unauthorizedUnbond? (node : PalwNode) (block : PalwChainBlock) : Option TransactionOutpoint :=
  if block.daaScore < V.palwActivationDaaScore then none
  else block.accepted.findSome? fun carried =>
    (⟨node.providers, node.da, V.palwNetworkId, block.daaScore⟩ :
      ProviderUnbondAuthFilter).unauthorized P carried.tx

def walkChainBlock (node : PalwNode) (b : BlockHash × PalwChainBlock) :
    Except PalwChainFault (ProviderMutationBlock × PalwNode) :=
  match unauthorizedUnbond? P V node b.2 with
  | some outpoint => .error (.unauthorizedUnbond outpoint)
  | none => do
    let node' ← (advanceNode P V node b.2).mapError .failStop
    return ((b.1, palwProviderBondMutationsForChainBlock P V b.2 node'.da), node')

def walkChain (node : PalwNode) : List (BlockHash × PalwChainBlock) →
    Except PalwChainFault (List ProviderMutationBlock × PalwNode)
  | [] => .ok ([], node)
  | b :: blocks => do
    let (mutations, node') ← walkChainBlock P V node b
    let (rest, tip) ← walkChain node' blocks
    return (mutations :: rest, tip)

def acceptedIds (blocks : List (BlockHash × PalwChainBlock)) : List TransactionId :=
  blocks.flatMap fun b => b.2.accepted.map fun carried => P.transactionId carried.tx

def isolationValid (tx : Transaction) : Bool :=
  tx.subnetworkId.palwTxKind.all fun byte =>
    (validatePalwOverlayTx P byte tx.payload tx.outputs).isOk

/-- What the blocks of a chain owe to the rest of consensus: DAA scores do not decrease, no
transaction is accepted twice, and overlay transactions passed isolation. -/
@[mk_iff]
structure ChainAdmissible (blocks : List (BlockHash × PalwChainBlock)) : Prop where
  order : blocks.Pairwise fun b b' => b.2.daaScore ≤ b'.2.daaScore
  once : (acceptedIds P blocks).Nodup
  isolated : ∀ b ∈ blocks, ∀ carried ∈ b.2.accepted, isolationValid P carried.tx

variable {P V} {node node' tip : PalwNode} {b : BlockHash × PalwChainBlock}
  {blocks past : List (BlockHash × PalwChainBlock)} {m : ProviderMutationBlock}
  {mutations : List ProviderMutationBlock}

theorem walkChainBlock_eq_ok (h : walkChainBlock P V node b = .ok (m, node')) :
    unauthorizedUnbond? P V node b.2 = none ∧ advanceNode P V node b.2 = .ok node' ∧
      m = (b.1, palwProviderBondMutationsForChainBlock P V b.2 node'.da) := by
  unfold walkChainBlock at h
  split at h
  · cases h
  · next hauthorized =>
    obtain ⟨node₁, hnode₁, h⟩ := bind_eq_ok.mp h
    cases h
    exact ⟨hauthorized, mapError_eq_ok.mp hnode₁, rfl⟩

theorem walkChain_cons_eq_ok (h : walkChain P V node (b :: blocks) = .ok (mutations, tip)) :
    ∃ m node' rest, walkChainBlock P V node b = .ok (m, node') ∧
      walkChain P V node' blocks = .ok (rest, tip) ∧ mutations = m :: rest := by
  obtain ⟨⟨m, node'⟩, hblock, h⟩ := bind_eq_ok.mp h
  obtain ⟨⟨rest, tip'⟩, hrest, h⟩ := bind_eq_ok.mp h
  cases h
  exact ⟨m, node', rest, hblock, hrest, rfl⟩

theorem providers_advanceNode (h : advanceNode P V node b.2 = .ok node') :
    node'.providers =
      node.providers.apply (palwProviderBondMutationsForChainBlock P V b.2 node'.da) := by
  unfold advanceNode at h
  split at h
  · next hfence =>
    cases h
    rw [palwProviderBondMutationsForChainBlock, if_pos hfence]
    rfl
  · obtain ⟨committed, -, h⟩ := bind_eq_ok.mp h
    cases h
    rfl

theorem providers_walkChainBlock (h : walkChainBlock P V node b = .ok (m, node')) :
    node'.providers = node.providers.apply m.2 := by
  obtain ⟨-, hadvance, rfl⟩ := walkChainBlock_eq_ok h
  exact providers_advanceNode hadvance

theorem nodup_blockSlashed (hfence : ¬ b.2.daaScore < V.palwActivationDaaScore)
    (h : advanceNode P V node b.2 = .ok node') : node'.da.blockSlashedProviders.Nodup := by
  unfold advanceNode at h
  rw [if_neg hfence] at h
  obtain ⟨committed, hcommit, h⟩ := bind_eq_ok.mp h
  cases h
  obtain ⟨staged, -, hcommit⟩ := bind_eq_ok.mp hcommit
  obtain ⟨committed', -, hcommit⟩ := bind_eq_ok.mp hcommit
  obtain ⟨hvalid, hcommit⟩ := check_bind_eq_ok.mp hcommit
  cases hcommit
  have hstructure := failIf_eq_ok.mp hvalid
  simp only [Bool.not_eq_false', PalwDaStateV1.validateStructure, Bool.and_eq_true,
    decide_eq_true_iff] at hstructure
  exact hstructure.1.1.1.1.1.2

/-! ## Mutations of accepted transactions -/

abbrev acceptedMutations (P : PalwPrimitives) (V : PalwProcessor) (block : PalwChainBlock) :
    List PalwProviderBondMutation :=
  palwProviderBondMutationsFromAcceptedTxs P (block.accepted.map (·.tx)) block.daaScore
    V.palwBatchAdmission.minProviderBondSompi V.palwBatchAdmission.providerUnbondFloorEpochs

def FromAccepted (P : PalwPrimitives) (txs : List Transaction) (daaScore : ℕ) :
    PalwProviderBondMutation → Prop
  | .insert o record =>
    o.transactionId ∈ txs.map P.transactionId ∧ record.unbondRequestDaaScore = none
  | .unbond _ daa => daa = daaScore
  | .slash _ _ => False

variable {txs : List Transaction} {daaScore : ℕ} {mutation : PalwProviderBondMutation}
  {r : ProviderBondView}

variable {tx : Transaction} {minBond floor : ℕ} {seen : List TransactionOutpoint}
  {view : ProviderBondView}

theorem mem_providerBondMutations
    (h : mutation ∈ providerBondMutations P daaScore minBond floor seen txs) :
    (∃ tx ∈ txs, ∃ payload, mutation = .insert ⟨P.transactionId tx, 0⟩
      (providerBondRecord P tx payload daaScore floor)) ∨ ∃ o, mutation = .unbond o daaScore := by
  induction txs generalizing seen with
  | nil => cases h
  | cons tx txs ih =>
    have hrest {seen : List TransactionOutpoint}
        (h : mutation ∈ providerBondMutations P daaScore minBond floor seen txs) :=
      (ih h).imp_left (Exists.imp fun _ => And.imp_left (mem_cons_of_mem tx))
    rw [providerBondMutations] at h
    split at h
    · next payload hbond =>
      rcases mem_cons.mp h with rfl | h
      · exact .inl ⟨tx, mem_cons_self, payload, rfl⟩
      · exact hrest h
    · split at h
      · exact hrest h
      · split at h
        · exact hrest h
        · rcases mem_cons.mp h with rfl | h
          · exact .inr ⟨_, rfl⟩
          · exact hrest h

theorem fromAccepted_of_mem
    (h : mutation ∈ providerBondMutations P daaScore minBond floor seen txs) :
    FromAccepted P txs daaScore mutation := by
  obtain ⟨tx, htx, payload, rfl⟩ | ⟨o, rfl⟩ := mem_providerBondMutations h
  · exact ⟨mem_map_of_mem htx, rfl⟩
  · rfl

/-- The mutations of accepted transactions attach: their bonds are new, and the bonds their requests
name have a row `r` that asks for nothing yet. -/
theorem exists_attach_accepted
    (hauthorized : ∀ tx ∈ txs, ∀ req, decodeProviderUnbondRequest P tx = some req →
      ∃ record, r.lookup req.bondOutpoint = some record ∧ record.unbondRequestDaaScore = none)
    (honce : (txs.map P.transactionId).Nodup) {working : ProviderBondView}
    (hrows : ∀ o ∉ seen, ∀ record, r.lookup o = some record → working.lookup o = some record)
    (hfresh : ∀ tx ∈ txs, working.lookup ⟨P.transactionId tx, 0⟩ = none) :
    ∃ r', (providerBondMutations P daaScore minBond floor seen txs).foldlM
      (applyProviderMutation hash) working = .ok r' := by
  induction txs generalizing seen working with
  | nil => exact ⟨working, rfl⟩
  | cons tx txs ih =>
    rw [forall_mem_cons] at hauthorized hfresh
    rw [map_cons, nodup_cons] at honce
    rw [providerBondMutations]
    split
    · next payload hbond =>
      let record := providerBondRecord P tx payload daaScore floor
      have hrows' : ∀ o ∉ seen, ∀ row, r.lookup o = some row →
          (working.insert ⟨P.transactionId tx, 0⟩ record).lookup o = some row := by
        intro o ho row hrow
        have hne : o ≠ ⟨P.transactionId tx, 0⟩ := by
          rintro rfl
          rw [hrows _ ho row hrow] at hfresh
          cases hfresh.1
        rw [lookup_insert_eq, if_neg hne, hrows o ho row hrow]
      have hfresh' : ∀ tx' ∈ txs, (working.insert ⟨P.transactionId tx, 0⟩ record).lookup
          ⟨P.transactionId tx', 0⟩ = none := by
        intro tx' htx'
        have hne : (⟨P.transactionId tx', 0⟩ : TransactionOutpoint) ≠ ⟨P.transactionId tx, 0⟩ := by
          intro heq
          exact honce.1 ((TransactionOutpoint.mk.inj heq).1 ▸ mem_map_of_mem htx')
        rw [lookup_insert_eq, if_neg hne, hfresh.2 tx' htx']
      obtain ⟨r', hr'⟩ := ih hauthorized.2 honce.2 hrows' hfresh'
      exact ⟨r', foldlM_cons_eq_ok.mpr ⟨_, applyProviderInsert_eq_ok.mpr ⟨hfresh.1, rfl⟩, hr'⟩⟩
    · split
      · exact ih hauthorized.2 honce.2 hrows hfresh.2
      · next req hreq =>
        split
        · exact ih hauthorized.2 honce.2 hrows hfresh.2
        · next hseen =>
          rw [contains_iff_mem] at hseen
          obtain ⟨record, hrecord, hnone⟩ := hauthorized.1 req hreq
          have hrow := hrows _ hseen record hrecord
          have hrows' : ∀ o ∉ req.bondOutpoint :: seen, ∀ row, r.lookup o = some row →
              (working.adjust req.bondOutpoint (·.setStamp .unbond (some daaScore))).lookup o =
                some row := by
            intro o ho row hrow
            rw [mem_cons, not_or] at ho
            rw [lookup_adjust_of_ne _ _ ho.1, hrows o ho.2 row hrow]
          have hfresh' : ∀ tx' ∈ txs, (working.adjust req.bondOutpoint
              (·.setStamp .unbond (some daaScore))).lookup ⟨P.transactionId tx', 0⟩ = none := by
            intro tx' htx'
            rw [lookup_adjust_eq]
            split
            · next heq => rw [← heq, hfresh.2 tx' htx', Option.map_none]
            · exact hfresh.2 tx' htx'
          obtain ⟨r', hr'⟩ := ih hauthorized.2 honce.2 hrows' hfresh'
          exact ⟨r', foldlM_cons_eq_ok.mpr
            ⟨_, applyProviderStamp_eq_ok.mpr ⟨⟨record, hrow, hnone⟩, rfl⟩, hr'⟩⟩

/-! ## Slashes -/

def Slashable (view : ProviderBondView) (providerBond : TransactionOutpoint) : Prop :=
  ∃ record, view.lookup providerBond = some record ∧ record.slashedAtDaaScore = none

theorem exists_attach_slashes {providers : List TransactionOutpoint} (hnodup : providers.Nodup) :
    (∃ r', (providers.map fun p => PalwProviderBondMutation.slash p daaScore).foldlM
      (applyProviderMutation hash) r = .ok r') ↔ ∀ p ∈ providers, Slashable r p := by
  induction providers generalizing r with
  | nil => simpa using ⟨r, rfl⟩
  | cons p providers ih =>
    rw [nodup_cons] at hnodup
    rw [map_cons, forall_mem_cons]
    -- slashing one provider leaves the rows of the others
    have hothers : ∀ q ∈ providers,
        (Slashable (r.adjust p (·.setStamp .slash (some daaScore))) q ↔ Slashable r q) := by
      intro q hq
      have hne : q ≠ p := by
        rintro rfl
        exact hnodup.1 hq
      rw [Slashable, lookup_adjust_of_ne _ _ hne, Slashable]
    constructor
    · rintro ⟨r', hr'⟩
      obtain ⟨r₁, hfirst, hrest⟩ := foldlM_cons_eq_ok.mp hr'
      obtain ⟨hrow, rfl⟩ := applyProviderStamp_eq_ok.mp hfirst
      have hall := (ih hnodup.2).mp ⟨r', hrest⟩
      exact ⟨hrow, fun q hq => (hothers q hq).mp (hall q hq)⟩
    · rintro ⟨hrow, hall⟩
      obtain ⟨r', hr'⟩ := (ih hnodup.2).mpr fun q hq => (hothers q hq).mpr (hall q hq)
      exact ⟨r', foldlM_cons_eq_ok.mpr ⟨_, applyProviderStamp_eq_ok.mpr ⟨hrow, rfl⟩, hr'⟩⟩

def PalwProviderBondMutation.isSlash : PalwProviderBondMutation → Bool
  | .slash _ _ => true
  | _ => false

/-- Along the mutations of a chain, every slash meets a row without a slash, the other mutations of
its block being applied. -/
def SlashesMeetRows (view : ProviderBondView) : List ProviderMutationBlock → Prop
  | [] => True
  | m :: rest =>
    (∀ p daa, PalwProviderBondMutation.slash p daa ∈ m.2 →
      Slashable (view.apply (m.2.filter (!·.isSlash))) p) ∧
    SlashesMeetRows (view.apply m.2) rest

/-! ## The rows of a walked chain -/

/-- The rows of the view after a chain: bonds of its transactions, stamped with its DAA scores. -/
def RowsOfChain (P : PalwPrimitives) (view : ProviderBondView)
    (past : List (BlockHash × PalwChainBlock)) : Prop :=
  ∀ o record, view.lookup o = some record → o.transactionId ∈ acceptedIds P past ∧
    ∀ daa, record.unbondRequestDaaScore = some daa → ∃ b ∈ past, daa = b.2.daaScore

theorem RowsOfChain.mono (h : RowsOfChain P view past) : RowsOfChain P view (past ++ [b]) := by
  intro o record ho
  obtain ⟨hid, hstamp⟩ := h o record ho
  refine ⟨?_, fun daa hdaa => ?_⟩
  · rw [acceptedIds, flatMap_append]
    exact mem_append_left _ hid
  · obtain ⟨b', hb', rfl⟩ := hstamp daa hdaa
    exact ⟨b', mem_append_left _ hb', rfl⟩

theorem RowsOfChain.applyOne (h : RowsOfChain P view (past ++ [b])) (hmutation : mutation.isSlash ∨
      FromAccepted P (b.2.accepted.map (·.tx)) b.2.daaScore mutation) :
    RowsOfChain P (view.applyOne mutation) (past ++ [b]) := by
  intro o record ho
  cases mutation with
  | insert o' record' =>
    obtain ⟨hid, hnone⟩ := hmutation.resolve_left (by simp [PalwProviderBondMutation.isSlash])
    rw [ProviderBondView.applyOne, lookup_insert_eq] at ho
    split at ho
    · next heq =>
      cases Option.some.inj ho
      refine ⟨?_, fun daa hdaa => by rw [hnone] at hdaa; cases hdaa⟩
      rw [acceptedIds, flatMap_append, heq]
      exact mem_append_right _ (by simpa [map_map] using hid)
    · exact h o record ho
  | unbond o' daa' =>
    have hdaa : daa' = b.2.daaScore :=
      hmutation.resolve_left (by simp [PalwProviderBondMutation.isSlash])
    rw [ProviderBondView.applyOne, lookup_adjust_eq] at ho
    split at ho
    · next heq =>
      obtain ⟨old, hold, rfl⟩ := Option.map_eq_some_iff.mp ho
      refine ⟨heq ▸ (h o' old hold).1, fun daa hstamp => ⟨b, by simp, ?_⟩⟩
      exact (Option.some.inj hstamp).symm.trans hdaa
    · exact h o record ho
  | slash o' daa' =>
    rw [ProviderBondView.applyOne, lookup_adjust_eq] at ho
    split at ho
    · next heq =>
      obtain ⟨old, hold, rfl⟩ := Option.map_eq_some_iff.mp ho
      exact heq ▸ h o' old hold
    · exact h o record ho

theorem isSlash_or_fromAccepted {da : PalwDaStateV1}
    (h : mutation ∈ palwProviderBondMutationsForChainBlock P V b.2 da) :
    mutation.isSlash ∨ FromAccepted P (b.2.accepted.map (·.tx)) b.2.daaScore mutation := by
  unfold palwProviderBondMutationsForChainBlock at h
  split at h
  · cases h
  · rcases mem_append.mp h with haccepted | hslash
    · exact .inr (fromAccepted_of_mem haccepted)
    · obtain ⟨p, -, rfl⟩ := mem_map.mp hslash
      exact .inl rfl

theorem RowsOfChain.step (h : RowsOfChain P node.providers past)
    (hblock : walkChainBlock P V node b = .ok (m, node')) :
    RowsOfChain P node'.providers (past ++ [b]) := by
  obtain ⟨-, hadvance, -⟩ := walkChainBlock_eq_ok hblock
  rw [providers_advanceNode hadvance]
  exact foldlRecOn (motive := (RowsOfChain P · (past ++ [b]))) _ _ h.mono
    fun _ hrows _ hm => hrows.applyOne (isSlash_or_fromAccepted hm)

/-! ## Attaching a chain -/

theorem unbondRow_of_authorized (hrows : RowsOfChain P node.providers past)
    (horder : ∀ b' ∈ past, b'.2.daaScore ≤ b.2.daaScore)
    (hfence : ¬ b.2.daaScore < V.palwActivationDaaScore)
    (hauthorized : unauthorizedUnbond? P V node b.2 = none) (htx : tx ∈ b.2.accepted.map (·.tx))
    {req : PalwProviderUnbondRequestV1} (hreq : decodeProviderUnbondRequest P tx = some req) :
    ∃ record, node.providers.lookup req.bondOutpoint = some record ∧
      record.unbondRequestDaaScore = none := by
  obtain ⟨carried, hcarried, rfl⟩ := mem_map.mp htx
  rw [unauthorizedUnbond?, if_neg hfence, List.findSome?_eq_none_iff] at hauthorized
  have hnone := hauthorized carried hcarried
  rw [ProviderUnbondAuthFilter.unauthorized, hreq, Option.bind_some] at hnone
  split at hnone
  · next hcond =>
    rw [Bool.and_eq_true] at hcond
    have hauth := hcond.1
    unfold palwProviderUnbondRequestAuthorized at hauth
    split at hauth
    · cases hauth
    · next record hrecord =>
      refine ⟨record, hrecord, ?_⟩
      simp only [Bool.and_eq_true, Bool.or_eq_true, beq_iff_eq] at hauth
      -- a stamp would be one of an earlier block, and the bond already unbonding
      cases hstamp : record.unbondRequestDaaScore with
      | none => rfl
      | some daa =>
        obtain ⟨b', hb', rfl⟩ := (hrows _ record hrecord).2 daa hstamp
        have hstatus := hauth.1.1
        simp only [effectiveProviderBondStatus, hstamp, Option.any_some,
          decide_eq_true (horder b' hb'), if_true] at hstatus
        split at hstatus <;> simp at hstatus
  · cases hnone

theorem attach_eq_apply {ms : List PalwProviderBondMutation} {r' : ProviderBondView}
    (h : ms.foldlM (applyProviderMutation hash) r = .ok r') :
    r' = r.apply ms := by
  refine foldlM_sim_foldl (R := fun s t => s = t) ?_ rfl h
  rintro s t mutation s' rfl hs
  exact applyProviderMutation_view hs

theorem filter_acceptedMutations (block : PalwChainBlock) :
    (acceptedMutations P V block).filter (!·.isSlash) = acceptedMutations P V block := by
  refine filter_eq_self.mpr fun mutation hm => ?_
  have hfrom := fromAccepted_of_mem hm
  cases mutation with
  | insert o record | unbond o daa => rfl
  | slash o daa => exact hfrom.elim

theorem exists_attach_acceptedMutations (hrows : RowsOfChain P node.providers past)
    (hadm : ChainAdmissible P (past ++ b :: blocks))
    (hfence : ¬ b.2.daaScore < V.palwActivationDaaScore)
    (hauthorized : unauthorizedUnbond? P V node b.2 = none) :
    ∃ r, (acceptedMutations P V b.2).foldlM (applyProviderMutation b.1) node.providers = .ok r := by
  have horder : ∀ b' ∈ past, b'.2.daaScore ≤ b.2.daaScore := fun b' hb' =>
    (pairwise_append.mp hadm.order).2.2 b' hb' b mem_cons_self
  have honce : (acceptedIds P past ++ ((b.2.accepted.map (·.tx)).map P.transactionId ++
      acceptedIds P blocks)).Nodup := by
    simpa only [acceptedIds, flatMap_append, flatMap_cons, map_map,
      Function.comp_def] using hadm.once
  obtain ⟨-, hrest, hdisjoint⟩ := nodup_append.mp honce
  refine exists_attach_accepted (r := node.providers) ?_ (nodup_append.mp hrest).1
    (fun o _ record ho => ho) ?_
  · intro tx htx req hreq
    exact unbondRow_of_authorized hrows horder hfence hauthorized htx hreq
  · intro tx htx
    cases hrow : node.providers.lookup ⟨P.transactionId tx, 0⟩ with
    | none => rfl
    | some record =>
      have hnew := mem_append_left (acceptedIds P blocks)
        (mem_map_of_mem (f := P.transactionId) htx)
      exact absurd rfl (hdisjoint _ (hrows _ record hrow).1 _ hnew)

theorem exists_attachBlock (hrows : RowsOfChain P node.providers past)
    (hadm : ChainAdmissible P (past ++ b :: blocks))
    (hblock : walkChainBlock P V node b = .ok (m, node')) :
    (∃ r', attachProviderBlock node.providers m = .ok r') ↔
      ∀ p daa, PalwProviderBondMutation.slash p daa ∈ m.2 →
        Slashable (node.providers.apply (m.2.filter (!·.isSlash))) p := by
  obtain ⟨hauthorized, hadvance, rfl⟩ := walkChainBlock_eq_ok hblock
  by_cases hfence : b.2.daaScore < V.palwActivationDaaScore
  · rw [palwProviderBondMutationsForChainBlock, if_pos hfence]
    exact ⟨nofun, fun _ => ⟨_, rfl⟩⟩
  · obtain ⟨r, hr⟩ := exists_attach_acceptedMutations hrows hadm hfence hauthorized
    have hnodup := nodup_blockSlashed hfence hadvance
    generalize node'.da = da at hnodup
    have hsplit : palwProviderBondMutationsForChainBlock P V b.2 da =
        acceptedMutations P V b.2 ++ da.blockSlashedProviders.map fun providerBond =>
          .slash providerBond b.2.daaScore := by
      rw [palwProviderBondMutationsForChainBlock, if_neg hfence]
    have hslash : (∀ p daa, PalwProviderBondMutation.slash p daa ∈
        palwProviderBondMutationsForChainBlock P V b.2 da → Slashable r p) ↔
          ∀ p ∈ da.blockSlashedProviders, Slashable r p := by
      rw [hsplit]
      constructor
      · intro h p hp
        exact h p b.2.daaScore (mem_append_right _ (mem_map_of_mem hp))
      · intro h p daa hm
        rcases mem_append.mp hm with hm | hm
        · exact (fromAccepted_of_mem hm).elim
        · obtain ⟨q, hq, heq⟩ := mem_map.mp hm
          cases heq
          exact h p hq
    have hothers : (palwProviderBondMutationsForChainBlock P V b.2 da).filter (!·.isSlash) =
        acceptedMutations P V b.2 := by
      rw [hsplit, filter_append, filter_acceptedMutations]
      simp [PalwProviderBondMutation.isSlash]
    dsimp only [attachProviderBlock]
    rw [hothers, ← attach_eq_apply hr, hslash, ← exists_attach_slashes hnodup, hsplit]
    refine exists_congr fun r' => ?_
    rw [foldlM_append_eq_ok]
    constructor
    · rintro ⟨r₁, hr₁, hr'⟩
      cases Except.ok.inj (hr.symm.trans hr₁)
      exact hr'
    · exact fun hr' => ⟨r, hr, hr'⟩

theorem exists_attachChain (hrows : RowsOfChain P node.providers past)
    (hadm : ChainAdmissible P (past ++ blocks))
    (hwalk : walkChain P V node blocks = .ok (mutations, tip)) :
    (∃ r, mutations.foldlM attachProviderBlock node.providers = .ok r) ↔
      SlashesMeetRows node.providers mutations := by
  induction blocks generalizing past node mutations with
  | nil =>
    cases hwalk
    exact ⟨fun _ => trivial, fun _ => ⟨_, rfl⟩⟩
  | cons b blocks ih =>
    obtain ⟨m, node', rest, hblock, hrest, rfl⟩ := walkChain_cons_eq_ok hwalk
    have hview := providers_walkChainBlock hblock
    have hfirst := exists_attachBlock hrows hadm hblock
    rw [append_cons] at hadm
    have htail := ih (hrows.step hblock) hadm hrest
    rw [SlashesMeetRows, ← hfirst, ← hview, ← htail]
    constructor
    · rintro ⟨r, hr⟩
      obtain ⟨r₁, hr₁, hr⟩ := foldlM_cons_eq_ok.mp hr
      obtain rfl : r₁ = node'.providers := (attach_eq_apply hr₁).trans hview.symm
      exact ⟨⟨_, hr₁⟩, ⟨r, hr⟩⟩
    · rintro ⟨⟨r₁, hr₁⟩, ⟨r, hr⟩⟩
      obtain rfl : r₁ = node'.providers := (attach_eq_apply hr₁).trans hview.symm
      exact ⟨r, foldlM_cons_eq_ok.mpr ⟨_, hr₁, hr⟩⟩

theorem attachChain_eq (hwalk : walkChain P V node blocks = .ok (mutations, tip))
    (h : mutations.foldlM attachProviderBlock node.providers = .ok r) : r = tip.providers := by
  induction blocks generalizing node mutations with
  | nil =>
    cases hwalk
    exact (Except.ok.inj h).symm
  | cons b blocks ih =>
    obtain ⟨m, node', rest, hblock, hrest, rfl⟩ := walkChain_cons_eq_ok hwalk
    obtain ⟨r₁, hr₁, h⟩ := foldlM_cons_eq_ok.mp h
    obtain rfl := (attach_eq_apply hr₁).trans (providers_walkChainBlock hblock).symm
    exact ih hrest h

theorem RowsOfChain.walk (h : RowsOfChain P node.providers past)
    (hwalk : walkChain P V node blocks = .ok (mutations, tip)) :
    RowsOfChain P tip.providers (past ++ blocks) := by
  induction blocks generalizing past node mutations with
  | nil =>
    cases hwalk
    rwa [append_nil]
  | cons b blocks ih =>
    obtain ⟨m, node', rest, hblock, hrest, -⟩ := walkChain_cons_eq_ok hwalk
    rw [append_cons]
    exact ih (h.step hblock) hrest

/-- The registry of a chain moves to another chain with the same start exactly when every slash on
the new branch meets a row without a slash. Detaching never fails, nor do the bonds and the unbond
requests of the new branch. -/
theorem registry_reconciles {common new : List (BlockHash × PalwChainBlock)}
    {mcommon mold mnew : List ProviderMutationBlock} {fork newTip : PalwNode}
    {registry : ProviderBondView} {touched : Finset TransactionOutpoint}
    (hcommon : walkChain P V .genesis common = .ok (mcommon, fork))
    (hnew : walkChain P V fork new = .ok (mnew, newTip))
    (hadm : ChainAdmissible P (common ++ new))
    (hregistry : reconcilePalwProviderRegistry ∅ [] (mcommon ++ mold) = .ok (registry, touched)) :
    (∃ result, reconcilePalwProviderRegistry registry mold.reverse mnew = .ok result) ↔
      SlashesMeetRows fork.providers mnew := by
  -- the rows before the old branch are those of the view at the fork
  obtain ⟨detached, hdetached, hregistry⟩ := bind_eq_ok.mp hregistry
  cases hdetached
  obtain ⟨attached, hattached, hregistry⟩ := bind_eq_ok.mp hregistry
  cases hregistry
  obtain ⟨r, hr, hbranch⟩ := foldlM_append_eq_ok.mp hattached
  obtain rfl := attachChain_eq hcommon hr
  -- detaching the old branch leads back there
  obtain ⟨r, hback, rfl⟩ := providerBlock_reversible.list.revert_apply hbranch
  have hrows : RowsOfChain P fork.providers common := by
    have hgenesis : RowsOfChain P PalwNode.genesis.providers [] := by
      intro o record ho
      cases ho
    exact hgenesis.walk hcommon
  rw [← exists_attachChain hrows hadm hnew]
  constructor
  · rintro ⟨result, hresult⟩
    obtain ⟨detached, hdetached, hresult⟩ := bind_eq_ok.mp hresult
    cases Except.ok.inj (hback.symm.trans hdetached)
    obtain ⟨attached, hattached, -⟩ := bind_eq_ok.mp hresult
    exact ⟨attached, hattached⟩
  · rintro ⟨attached, hattached⟩
    exact ⟨_, bind_eq_ok.mpr ⟨_, hback, bind_eq_ok.mpr ⟨attached, hattached, rfl⟩⟩⟩

/-! ## Sample chains -/

def sampleChain (blocks : List PalwChainBlock) : List (BlockHash × PalwChainBlock) :=
  blocks.map fun block => (block.daaScore, block)

def sampleWalk (blocks : List PalwChainBlock) :
    Except PalwChainFault (List ProviderMutationBlock × PalwNode) :=
  walkChain samplePalwPrimitives sampleProcessor .genesis (sampleChain blocks)

def sampleTimeoutTx (id : TransactionId) (challenge : Hash64) (provider : UInt8) : Transaction :=
  sampleOverlayTx id (.fromByte 0x3c) (sampleWordBytes challenge ++ [provider])

def sampleTimeoutBlocks : List PalwChainBlock :=
  [sampleBlock 100 [sampleManifestTx], sampleBlock 150 [sampleLeafChunkTx],
    sampleBlock 200 [sampleChallengeTx sampleObligation3 2 200 400],
    sampleBlock 401 [sampleTimeoutTx 14 61493 3]]

def sampleBondsBlock : PalwChainBlock :=
  sampleBlock 10 [sampleProviderBondTx 1, sampleProviderBondTx 2, sampleProviderBondTx 3]

def sampleUnbackedBlock : PalwChainBlock :=
  sampleBlock 10 [sampleProviderBondTx 1, sampleProviderBondTx 2]

def sampleManifestTx2 : Transaction :=
  sampleOverlayTx 20 (.fromByte 0x31) (sampleWordBytes 44552 ++ [1, 2])

def sampleLeafChunkTx2 : Transaction :=
  sampleOverlayTx 21 (.fromByte 0x32) (sampleWordBytes 44552 ++ [1, 2, 3])

def sampleChallengeTx2 : Transaction :=
  sampleOverlayTx 22 (.fromByte 0x3a) (sampleWordBytes 8452 ++ [2] ++ sampleWordBytes 200 ++
    sampleWordBytes 400 ++ [1])

def sampleTwiceBlocks : List PalwChainBlock :=
  [sampleBlock 100 [sampleManifestTx, sampleManifestTx2],
    sampleBlock 150 [sampleLeafChunkTx, sampleLeafChunkTx2],
    sampleBlock 200 [sampleChallengeTx sampleObligation2 2 200 400, sampleChallengeTx2],
    sampleBlock 401 [sampleTimeoutTx 14 19838 2], sampleBlock 402 [sampleTimeoutTx 24 28002 2]]

instance : Decidable (ChainAdmissible P blocks) :=
  decidable_of_iff' _ (chainAdmissible_iff P blocks)

def sampleDetached : List ProviderMutationBlock :=
  [(20, [.insert ⟨4, 0⟩ (sampleProviderRecord 4 20)])]

/-- The slash of a provider with a bond attaches once the other branch is detached. -/
theorem registry_reconciles_timeout :
    ∃ fork newTip mcommon mnew registry touched,
      sampleWalk [sampleBondsBlock] = .ok (mcommon, fork) ∧
      walkChain samplePalwPrimitives sampleProcessor fork (sampleChain sampleTimeoutBlocks) =
        .ok (mnew, newTip) ∧
      reconcilePalwProviderRegistry ∅ [] (mcommon ++ sampleDetached) = .ok (registry, touched) ∧
      (∃ result, reconcilePalwProviderRegistry registry sampleDetached.reverse mnew = .ok result) ∧
      .slash ⟨3, 0⟩ 401 ∈ mnew.flatMap (·.2) ∧
      SlashesMeetRows fork.providers mnew := by
  obtain ⟨mcommon, fork, hcommon, mnew, newTip, hnew, hslash, registry, touched, hold, hresult⟩ :
      ∃ mcommon fork, sampleWalk [sampleBondsBlock] = .ok (mcommon, fork) ∧ ∃ mnew newTip,
        walkChain samplePalwPrimitives sampleProcessor fork (sampleChain sampleTimeoutBlocks) =
          .ok (mnew, newTip) ∧ .slash ⟨3, 0⟩ 401 ∈ mnew.flatMap (·.2) ∧ ∃ registry touched,
        reconcilePalwProviderRegistry ∅ [] (mcommon ++ sampleDetached) = .ok (registry, touched) ∧
        ∃ result, reconcilePalwProviderRegistry registry sampleDetached.reverse mnew =
          .ok result := by
    decide +kernel
  have hadm : ChainAdmissible samplePalwPrimitives
      (sampleChain [sampleBondsBlock] ++ sampleChain sampleTimeoutBlocks) := by decide +kernel
  exact ⟨fork, newTip, mcommon, mnew, registry, touched, hcommon, hnew, hold, hresult, hslash,
    (registry_reconciles hcommon hnew hadm hold).mp hresult⟩

/-- Provider 3 never declared a bond: the slash of its timed out challenge stops the process. So
does the second slash of provider 2. -/
theorem slash_stops_registry :
    (∃ mutations tip, sampleWalk (sampleUnbackedBlock :: sampleTimeoutBlocks) =
        .ok (mutations, tip) ∧
      ChainAdmissible samplePalwPrimitives
        (sampleChain (sampleUnbackedBlock :: sampleTimeoutBlocks)) ∧
      reconcilePalwProviderRegistry ∅ [] mutations =
        .error (.applyStampMissing .slash ⟨3, 0⟩ 401)) ∧
    ∃ mutations tip, sampleWalk (sampleBondsBlock :: sampleTwiceBlocks) = .ok (mutations, tip) ∧
      ChainAdmissible samplePalwPrimitives (sampleChain (sampleBondsBlock :: sampleTwiceBlocks)) ∧
      reconcilePalwProviderRegistry ∅ [] mutations =
        .error (.applyStampTwice .slash ⟨2, 0⟩ 402 401) := by
  decide +kernel

end Misaka.Palw
