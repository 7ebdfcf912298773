import Misaka.Palw.Admission
import Misaka.Palw.ProviderBond
import Misaka.Pipeline.Acceptance

/-!
# The beacon fold

`apply_palw_beacon_effects` runs at the commit of every chain block: it parses each accepted overlay
transaction with `parse_palw_overlay`, records the beacon operations that are in phase, bonded and
signed, and panics on a payload that does not parse.
-/

namespace Misaka.Palw

open Misaka.Core Dns Pipeline List Option

def PALW_BEACON_COMMIT_DOMAIN : Bytes := domain "misaka-palw-beacon-commit-v1"
def PALW_BEACON_COMMIT_SIGNING_DOMAIN : Bytes := domain "misaka-palw-beacon-commit-sign-v1"
def PALW_BEACON_REVEAL_SIGNING_DOMAIN : Bytes := domain "misaka-palw-beacon-reveal-sign-v1"
def PALW_BEACON_REVEAL_ENTROPY_DOMAIN : Bytes := domain "misaka-palw-beacon-reveal-entropy-v1"
def PALW_BEACON_MLDSA87_CONTEXT : Bytes := domain "PALWBeaconV1"
def PALW_BEACON_COMMIT_LEAD_EPOCHS : ℕ := 2
def PALW_BEACON_REVEAL_LEAD_EPOCHS : ℕ := 1

inductive PalwOverlayEffect where
  | providerBond (bond : PalwProviderBondPayloadV1)
  | manifest (manifest : PalwBatchManifestV1)
  | leafChunk (chunk : PalwLeafChunkV1)
  | certificate (certificate : PalwBatchCertificateV2)
  | beaconCommit (commit : PalwBeaconCommitV1)
  | beaconReveal (reveal : PalwBeaconRevealV1)
  | blockAuthorization
  deriving DecidableEq, Repr

/-- The two failures of `parse_palw_overlay`. -/
inductive PalwOverlayError where
  | unhandledSubnet (kind : UInt8)
  | malformedPayload
  deriving DecidableEq, Repr

/-- A decoded object as an effect, or `MalformedPayload`. -/
def parsed {α : Type} (decoded : Option α) (effect : α → PalwOverlayEffect) :
    Except PalwOverlayError PalwOverlayEffect :=
  decoded.elim (.error .malformedPayload) fun a => .ok (effect a)

theorem exists_parsed_eq_ok {α : Type} {decoded : Option α} {effect : α → PalwOverlayEffect} :
    (∃ e, parsed decoded effect = .ok e) ↔ decoded.isSome := by
  cases decoded <;> simp [parsed]

variable (P : PalwPrimitives) {byte : UInt8} {data : List MergesetBlockAcceptanceData}

def parsePalwOverlay (subnetFirstByte : UInt8) (payload : Bytes) :
    Except PalwOverlayError PalwOverlayEffect :=
  if subnetFirstByte = 0x30 then parsed (P.decodeProviderBond payload) .providerBond
  else if subnetFirstByte = 0x31 then parsed (P.decodeManifest payload) .manifest
  else if subnetFirstByte = 0x32 then parsed (P.decodeLeafChunk payload) .leafChunk
  else if subnetFirstByte = 0x33 then parsed (P.decodeCertificate payload) .certificate
  else if subnetFirstByte = 0x35 then parsed (P.decodeBeaconCommit payload) .beaconCommit
  else if subnetFirstByte = 0x36 then parsed (P.decodeBeaconReveal payload) .beaconReveal
  else if subnetFirstByte = 0x38 then .ok .blockAuthorization
  else .error (.unhandledSubnet subnetFirstByte)

/-- Its derived default has version `0`. -/
structure PalwBeaconEpochAccumV1 where
  version : ℕ := 0
  commits : List (TransactionOutpoint × Hash64) := []
  validReveals : List (TransactionOutpoint × Hash64) := []
  deriving DecidableEq, Repr, Inhabited

namespace PalwBeaconEpochAccumV1

def commitmentOf (accum : PalwBeaconEpochAccumV1) (bond : TransactionOutpoint) : Option Hash64 :=
  (accum.commits.find? (·.1 = bond)).map (·.2)

def recordCommit (accum : PalwBeaconEpochAccumV1) (bond : TransactionOutpoint)
    (commitment : Hash64) : PalwBeaconEpochAccumV1 :=
  if accum.commits.any (·.1 = bond) then accum
  else { accum with commits := accum.commits ++ [(bond, commitment)] }

def recordValidReveal (accum : PalwBeaconEpochAccumV1) (bond : TransactionOutpoint)
    (entropyDigest : Hash64) : PalwBeaconEpochAccumV1 :=
  if accum.validReveals.any (·.1 = bond) then accum
  else { accum with validReveals := accum.validReveals ++ [(bond, entropyDigest)] }

end PalwBeaconEpochAccumV1

structure PalwBeaconAccumViewV1 where
  version : ℕ
  epochs : Table ℕ PalwBeaconEpochAccumV1
  stakeByEpoch : Table ℕ (List (TransactionOutpoint × ℕ))

namespace PalwBeaconAccumViewV1

def new : PalwBeaconAccumViewV1 := ⟨1, ∅, ∅⟩

def commitmentOf (view : PalwBeaconAccumViewV1) (epoch : ℕ) (bond : TransactionOutpoint) :
    Option Hash64 :=
  (view.epochs.lookup epoch).bind (·.commitmentOf bond)

def recordCommit (view : PalwBeaconAccumViewV1) (epoch : ℕ) (bond : TransactionOutpoint)
    (commitment : Hash64) (stake : ℕ) : PalwBeaconAccumViewV1 :=
  let accum := (view.epochs.lookup epoch).getD {}
  if (accum.commitmentOf bond).isSome then view
  else
    { view with
      epochs := view.epochs.insert epoch (accum.recordCommit bond commitment)
      stakeByEpoch := view.stakeByEpoch.insert epoch
        ((view.stakeByEpoch.lookup epoch).getD [] ++ [(bond, stake)]) }

def recordValidReveal (view : PalwBeaconAccumViewV1) (epoch : ℕ) (bond : TransactionOutpoint)
    (revealValue : Hash64) : PalwBeaconAccumViewV1 :=
  { view with epochs := view.epochs.adjust epoch (·.recordValidReveal bond revealValue) }

end PalwBeaconAccumViewV1

def checkedAdd (a b : ℕ) : Option ℕ := if a + b ≤ U64_MAX then some (a + b) else none

def PalwBeaconCommitV1.isInPhase (commit : PalwBeaconCommitV1) (currentEpoch : ℕ) : Bool :=
  checkedAdd currentEpoch PALW_BEACON_COMMIT_LEAD_EPOCHS == some commit.epoch

def PalwBeaconRevealV1.isInPhase (reveal : PalwBeaconRevealV1) (currentEpoch : ℕ) : Bool :=
  checkedAdd currentEpoch PALW_BEACON_REVEAL_LEAD_EPOCHS == some reveal.epoch

def PalwBeaconCommitV1.signingHash (commit : PalwBeaconCommitV1) (networkId : ℕ) : Hash64 :=
  P.blake2b512Keyed PALW_BEACON_COMMIT_SIGNING_DOMAIN
    (leBytes 4 networkId ++ leBytes 2 commit.version ++ leBytes 8 commit.epoch ++
      outpointBytes commit.bondOutpoint ++ hash64Bytes commit.commitment)

def PalwBeaconRevealV1.signingHash (reveal : PalwBeaconRevealV1) (networkId : ℕ) : Hash64 :=
  P.blake2b512Keyed PALW_BEACON_REVEAL_SIGNING_DOMAIN
    (leBytes 4 networkId ++ leBytes 2 reveal.version ++ leBytes 8 reveal.epoch ++
      outpointBytes reveal.bondOutpoint ++ reveal.random64)

/-- The preimage shared by `beacon_commitment` and `beacon_reveal_entropy_digest`. -/
def PalwBeaconRevealV1.opening (reveal : PalwBeaconRevealV1) : Bytes :=
  leBytes 8 reveal.epoch ++ reveal.random64 ++ outpointBytes reveal.bondOutpoint

def PalwBeaconRevealV1.matchesCommit (reveal : PalwBeaconRevealV1) (commitment : Hash64) : Bool :=
  P.blake2b512Keyed PALW_BEACON_COMMIT_DOMAIN reveal.opening == commitment

def PalwBeaconRevealV1.entropyDigest (reveal : PalwBeaconRevealV1) : Hash64 :=
  P.blake2b512Keyed PALW_BEACON_REVEAL_ENTROPY_DOMAIN reveal.opening

structure BeaconProcessor where
  blockTransactions : BlockHash → Option (List Transaction)
  palwEpochLengthDaa : ℕ
  palwNetworkId : ℕ

/-- The panics of `apply_palw_beacon_effects`. -/
inductive BeaconFault where
  | bodyUnavailable (block : BlockHash)
  | indexOutside (index : ℕ) (block : BlockHash)
  | contextualDecode (e : PalwOverlayError)
  deriving DecidableEq, Repr

variable (B : BeaconProcessor) (bondView : ActiveBondView) (currentDaa : ℕ)

def applyBeaconCommit (view : PalwBeaconAccumViewV1) (commit : PalwBeaconCommitV1) :
    PalwBeaconAccumViewV1 :=
  if !commit.isInPhase (currentDaa / max B.palwEpochLengthDaa 1) then view
  else
    match bondView.activeBondAt commit.bondOutpoint currentDaa with
    | none => view
    | some bond =>
      if !signedWith P bond.validatorPubkey (hash64Bytes (commit.signingHash P B.palwNetworkId))
          commit.signature PALW_BEACON_MLDSA87_CONTEXT then view
      else view.recordCommit commit.epoch commit.bondOutpoint commit.commitment bond.amount

def applyBeaconReveal (view : PalwBeaconAccumViewV1) (reveal : PalwBeaconRevealV1) :
    PalwBeaconAccumViewV1 :=
  if !reveal.isInPhase (currentDaa / max B.palwEpochLengthDaa 1) then view
  else
    match bondView.activeBondAt reveal.bondOutpoint currentDaa,
        view.commitmentOf reveal.epoch reveal.bondOutpoint with
    | some bond, some commitment =>
      if !reveal.matchesCommit P commitment then view
      else if !signedWith P bond.validatorPubkey
          (hash64Bytes (reveal.signingHash P B.palwNetworkId)) reveal.signature
          PALW_BEACON_MLDSA87_CONTEXT then view
      else view.recordValidReveal reveal.epoch reveal.bondOutpoint (reveal.entropyDigest P)
    | _, _ => view

def applyBeaconEffect (view : PalwBeaconAccumViewV1) : PalwOverlayEffect → PalwBeaconAccumViewV1
  | .beaconCommit commit => applyBeaconCommit P B bondView currentDaa view commit
  | .beaconReveal reveal => applyBeaconReveal P B bondView currentDaa view reveal
  | _ => view

def applyBeaconTx (view : PalwBeaconAccumViewV1) (tx : Transaction) :
    Except BeaconFault PalwBeaconAccumViewV1 :=
  match tx.subnetworkId.palwTxKind with
  | none => .ok view
  | some kind =>
    match parsePalwOverlay P kind tx.payload with
    | .error e => .error (.contextualDecode e)
    | .ok effect => .ok (applyBeaconEffect P B bondView currentDaa view effect)

def applyBeaconEntry (block : BlockHash) (txs : List Transaction) (view : PalwBeaconAccumViewV1)
    (entry : TransactionId × ℕ) : Except BeaconFault PalwBeaconAccumViewV1 :=
  match txs[entry.2]? with
  | none => .error (.indexOutside entry.2 block)
  | some tx => applyBeaconTx P B bondView currentDaa view tx

def applyBeaconBlock (view : PalwBeaconAccumViewV1) (merged : MergesetBlockAcceptanceData) :
    Except BeaconFault PalwBeaconAccumViewV1 :=
  match B.blockTransactions merged.blockHash with
  | none => .error (.bodyUnavailable merged.blockHash)
  | some txs =>
    merged.acceptedTransactions.foldlM
      (applyBeaconEntry P B bondView currentDaa merged.blockHash txs) view

def applyPalwBeaconEffects (view : PalwBeaconAccumViewV1)
    (acceptanceData : List MergesetBlockAcceptanceData) :
    Except BeaconFault PalwBeaconAccumViewV1 :=
  acceptanceData.foldlM (applyBeaconBlock P B bondView currentDaa) view

def PalwTxKind.subnetworkByte : PalwTxKind → UInt8
  | .providerBond => 0x30
  | .batchManifest => 0x31
  | .leafChunk => 0x32
  | .batchCertificate => 0x33
  | .revocation => 0x34
  | .beaconCommit => 0x35
  | .beaconReveal => 0x36
  | .providerUnbond => 0x37
  | .blockAuthorization => 0x38
  | .daChallenge => 0x3a
  | .daResponse => 0x3b
  | .daTimeoutEvidence => 0x3c

variable {kind : PalwTxKind} {payload : Bytes}

theorem PalwTxKind.fromSubnetworkByte_eq_some (h : PalwTxKind.fromSubnetworkByte byte = some kind) :
    byte = kind.subnetworkByte := by
  have htable : ∀ e ∈ PalwTxKind.table, e.1 = e.2.subnetworkByte := by decide
  obtain ⟨e, he, rfl⟩ := map_eq_some_iff.mp h
  rw [← htable e (mem_of_find?_eq_some he)]
  have hbyte := List.find?_some he
  exact (beq_iff_eq.mp hbyte).symm

/-- The kinds `parse_palw_overlay` has an arm for. -/
def PalwTxKind.isParsed : PalwTxKind → Bool
  | .revocation | .providerUnbond | .daChallenge | .daResponse | .daTimeoutEvidence => false
  | _ => true

variable {P}

theorem isSome_of_decode_bind {α : Type} {decoded : Option α} {rest : α → Except PalwTxError Unit}
    (h : (decodePalwPayload decoded >>= rest) = .ok ()) : decoded.isSome := by
  obtain ⟨a, ha, -⟩ := bind_eq_ok.mp h
  rw [decodePalwPayload_eq_ok.mp ha]
  rfl

theorem isSome_of_validateProviderBond (h : validateProviderBond P payload = .ok ()) :
    (P.decodeProviderBond payload).isSome := by
  obtain ⟨bond, hbond, -⟩ := bind_eq_ok.mp h
  obtain ⟨decoded, hdecoded, -⟩ := bind_eq_ok.mp hbond
  rw [decodePalwPayload_eq_ok.mp hdecoded]
  rfl

theorem exists_kind_of_validatePalwOverlayPayload
    (h : validatePalwOverlayPayload P byte payload = .ok ()) :
    ∃ kind, PalwTxKind.fromSubnetworkByte byte = some kind ∧
      validateKind P payload kind = .ok () := by
  obtain ⟨kind, hkind, h⟩ := bind_eq_ok.mp h
  obtain ⟨_, _, h⟩ := bind_eq_ok.mp h
  cases hbyte : PalwTxKind.fromSubnetworkByte byte with
  | none =>
    rw [hbyte] at hkind
    cases hkind
  | some kind' =>
    rw [hbyte] at hkind
    cases hkind
    exact ⟨kind, rfl, h⟩

theorem exists_parsePalwOverlay_eq_ok (hvalid : validateKind P payload kind = .ok ())
    (hparsed : kind.isParsed) :
    ∃ effect, parsePalwOverlay P kind.subnetworkByte payload = .ok effect := by
  cases kind with
  | providerBond => exact exists_parsed_eq_ok.mpr (isSome_of_validateProviderBond hvalid)
  | batchManifest | leafChunk | batchCertificate | beaconCommit | beaconReveal =>
    exact exists_parsed_eq_ok.mpr (isSome_of_decode_bind hvalid)
  | blockAuthorization => exact ⟨.blockAuthorization, rfl⟩
  | revocation | providerUnbond | daChallenge | daResponse | daTimeoutEvidence =>
    exact absurd hparsed Bool.false_ne_true

theorem parsePalwOverlay_eq_error (hparsed : kind.isParsed = false) :
    parsePalwOverlay P kind.subnetworkByte payload =
      .error (.unhandledSubnet kind.subnetworkByte) := by
  cases kind with
  | revocation | providerUnbond | daChallenge | daResponse | daTimeoutEvidence => rfl
  | _ => exact absurd hparsed.symm Bool.false_ne_true

def parsedByte (byte : UInt8) : Bool := (PalwTxKind.fromSubnetworkByte byte).all PalwTxKind.isParsed

theorem exists_parse_iff_parsedByte (h : validatePalwOverlayPayload P byte payload = .ok ()) :
    (∃ effect, parsePalwOverlay P byte payload = .ok effect) ↔ parsedByte byte := by
  obtain ⟨kind, hkind, hvalid⟩ := exists_kind_of_validatePalwOverlayPayload h
  obtain rfl := PalwTxKind.fromSubnetworkByte_eq_some hkind
  rw [parsedByte, hkind, all_some]
  cases hparsed : kind.isParsed with
  | true => exact iff_of_true (exists_parsePalwOverlay_eq_ok hvalid hparsed) rfl
  | false =>
    rw [parsePalwOverlay_eq_error hparsed]
    simp

def acceptedTx? (B : BeaconProcessor) (block : BlockHash) (entry : TransactionId × ℕ) :
    Option Transaction :=
  (B.blockTransactions block).bind (·[entry.2]?)

structure AcceptedAndAdmitted (P : PalwPrimitives) (B : BeaconProcessor)
    (data : List MergesetBlockAcceptanceData) : Prop where
  body : ∀ merged ∈ data, (B.blockTransactions merged.blockHash).isSome
  index : ∀ merged ∈ data, ∀ entry ∈ merged.acceptedTransactions,
    (acceptedTx? B merged.blockHash entry).isSome
  payload : ∀ merged ∈ data, ∀ entry ∈ merged.acceptedTransactions, ∀ tx,
    acceptedTx? B merged.blockHash entry = some tx →
      ∀ byte, tx.subnetworkId.palwTxKind = some byte →
        validatePalwOverlayPayload P byte tx.payload = .ok ()

variable {B : BeaconProcessor} {bondView : ActiveBondView} {currentDaa : ℕ}

theorem exists_applyBeaconTx_eq_ok {view : PalwBeaconAccumViewV1} {tx : Transaction}
    (h : ∀ byte, tx.subnetworkId.palwTxKind = some byte →
      validatePalwOverlayPayload P byte tx.payload = .ok ()) :
    (∃ view', applyBeaconTx P B bondView currentDaa view tx = .ok view') ↔
      ∀ byte, tx.subnetworkId.palwTxKind = some byte → parsedByte byte := by
  unfold applyBeaconTx
  cases hbyte : tx.subnetworkId.palwTxKind with
  | none => simp
  | some byte =>
    have hparse := exists_parse_iff_parsedByte (h byte hbyte)
    simp only [Option.some.injEq, forall_eq']
    rw [← hparse]
    cases parsePalwOverlay P byte tx.payload <;> simp

def ParsedKinds (B : BeaconProcessor) (merged : MergesetBlockAcceptanceData) : Prop :=
  ∀ entry ∈ merged.acceptedTransactions, ∀ tx, acceptedTx? B merged.blockHash entry = some tx →
    ∀ byte, tx.subnetworkId.palwTxKind = some byte → parsedByte byte

theorem exists_applyBeaconBlock_eq_ok (h : AcceptedAndAdmitted P B data)
    {merged : MergesetBlockAcceptanceData} (hmerged : merged ∈ data)
    (view : PalwBeaconAccumViewV1) :
    (∃ view', applyBeaconBlock P B bondView currentDaa view merged = .ok view') ↔
      ParsedKinds B merged := by
  obtain ⟨txs, htxs⟩ := isSome_iff_exists.mp (h.body merged hmerged)
  unfold applyBeaconBlock ParsedKinds
  rw [htxs]
  refine exists_foldlM_eq_ok_iff fun entry hentry view => ?_
  obtain ⟨tx, htx⟩ := isSome_iff_exists.mp (h.index merged hmerged entry hentry)
  have hindex : txs[entry.2]? = some tx := by
    rwa [acceptedTx?, htxs, bind_some] at htx
  have hstep : (∃ view', applyBeaconTx P B bondView currentDaa view tx = .ok view') ↔
      ∀ byte, tx.subnetworkId.palwTxKind = some byte → parsedByte byte :=
    exists_applyBeaconTx_eq_ok (h.payload merged hmerged entry hentry tx htx)
  rw [applyBeaconEntry, hindex, htx]
  simpa using hstep

/-- The beacon fold over admitted transactions panics exactly when one of them is of a kind the
parser has no arm for. -/
theorem beaconFold_goesThrough (h : AcceptedAndAdmitted P B data) (view : PalwBeaconAccumViewV1) :
    (∃ view', applyPalwBeaconEffects P B bondView currentDaa view data = .ok view') ↔
      ∀ merged ∈ data, ParsedKinds B merged :=
  exists_foldlM_eq_ok_iff fun _ hmerged view => exists_applyBeaconBlock_eq_ok h hmerged view

def sampleBeaconProcessor (tx : Transaction) : BeaconProcessor :=
  ⟨fun block => if block = 1 then some [tx] else none, 100, 1⟩

def sampleAcceptance (tx : Transaction) : List MergesetBlockAcceptanceData :=
  [⟨1, [(samplePalwPrimitives.transactionId tx, 0)]⟩]

theorem acceptedAndAdmitted_sample {tx : Transaction}
    (h : ∀ byte, tx.subnetworkId.palwTxKind = some byte →
      validatePalwOverlayPayload samplePalwPrimitives byte tx.payload = .ok ()) :
    AcceptedAndAdmitted samplePalwPrimitives (sampleBeaconProcessor tx) (sampleAcceptance tx) where
  body := by simp [sampleAcceptance, sampleBeaconProcessor]
  index := by simp [sampleAcceptance, sampleBeaconProcessor, acceptedTx?]
  payload := by
    simp only [sampleAcceptance, sampleBeaconProcessor, acceptedTx?, mem_singleton, forall_eq,
      if_true, bind_some, List.getElem?_cons_zero, Option.some.injEq]
    rintro _ rfl
    exact h

def sampleCommitTx : Transaction := sampleOverlayTx 1 (.fromByte 0x35) [2, 1, 7, 1]

def sampleRevocationTx : Transaction := sampleOverlayTx 1 (.fromByte 0x34) [5]

theorem beaconFold_goesThrough_commit :
    AcceptedAndAdmitted samplePalwPrimitives (sampleBeaconProcessor sampleCommitTx)
      (sampleAcceptance sampleCommitTx) ∧
    ∃ view', applyPalwBeaconEffects samplePalwPrimitives (sampleBeaconProcessor sampleCommitTx)
      ⟨∅⟩ 0 .new (sampleAcceptance sampleCommitTx) = .ok view' := by
  have hkind : sampleCommitTx.subnetworkId.palwTxKind = some 0x35 := by decide
  have hvalid : validatePalwOverlayPayload samplePalwPrimitives 0x35 sampleCommitTx.payload =
      .ok () := by decide +kernel
  have hdata : AcceptedAndAdmitted samplePalwPrimitives (sampleBeaconProcessor sampleCommitTx)
      (sampleAcceptance sampleCommitTx) :=
    acceptedAndAdmitted_sample (by simpa [hkind] using hvalid)
  refine ⟨hdata, (beaconFold_goesThrough hdata .new).mpr ?_⟩
  simp only [ParsedKinds, sampleAcceptance, sampleBeaconProcessor, acceptedTx?, mem_singleton,
    forall_eq, if_true, bind_some, List.getElem?_cons_zero, Option.some.injEq]
  rintro _ rfl
  rw [hkind]
  simp only [Option.some.injEq, forall_eq']
  decide

/-- An accepted revocation passes isolation and stops the fold. -/
theorem revocation_stops_fold :
    AcceptedAndAdmitted samplePalwPrimitives (sampleBeaconProcessor sampleRevocationTx)
      (sampleAcceptance sampleRevocationTx) ∧
    applyPalwBeaconEffects samplePalwPrimitives (sampleBeaconProcessor sampleRevocationTx) ⟨∅⟩ 0
      .new (sampleAcceptance sampleRevocationTx) =
        .error (.contextualDecode (.unhandledSubnet 0x34)) := by
  have hkind : sampleRevocationTx.subnetworkId.palwTxKind = some 0x34 := by decide
  have hvalid : validatePalwOverlayPayload samplePalwPrimitives 0x34 sampleRevocationTx.payload =
      .ok () := by decide +kernel
  exact ⟨acceptedAndAdmitted_sample (by simpa [hkind] using hvalid), rfl⟩

end Misaka.Palw
