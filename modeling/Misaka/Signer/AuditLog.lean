import Misaka.Core.Frames
import Misaka.Signer.NoEquivocation

/-!
# The audit log of the signer

The files `audit.log` and `audit.checkpoints` of `kaspa-pq-signer`, as they look after writes that
may stop anywhere and after restarts. The log is replayed from the front when it is loaded, and what
no longer is a whole frame is cut off then, and only then.
-/

namespace Misaka.Signer

open Misaka.Core Dns List Option Finmap

def u32Header : LengthHeader UInt8 where
  width := 4
  limit := 256 ^ 4
  put n := (leBytes 4 n).reverse
  get bytes := leNat bytes.reverse
  width_pos := by decide
  length_put _ := by rw [List.length_reverse, length_leBytes]
  get_put _ h := by rw [List.reverse_reverse, leNat_leBytes h]

structure SignerAuditCheckpoint where
  recordIndex : ℕ
  timestampUnixSecs : ℕ
  validatorId : Hash64
  chainHead : Hash64
  signature : Bytes
  deriving BEq, ReflBEq, LawfulBEq, Repr

/-- `borsh` for the records of the two files. -/
structure AuditPrimitives extends SignerPrimitives where
  decodeAuditRecord : Bytes → Option SignerAuditRecord
  encodeCheckpoint : SignerAuditCheckpoint → Bytes
  decodeCheckpoint : Bytes → Option SignerAuditCheckpoint

structure AuditLog where
  chainHash : Hash64
  recordCount : ℕ
  deriving DecidableEq, Repr

structure CheckpointReport where
  total : ℕ
  anomalies : ℕ
  latestIndex : ℕ
  latestHead : Hash64
  deriving DecidableEq, Repr

/-- The audit log of a running signer with its two files, the records whose `append` returned `Ok`
and the checkpoints that were written. -/
structure AuditState where
  audit : AuditLog
  appendsSinceCheckpoint : ℕ
  logFile : Bytes
  checkpointFile : Bytes
  appended : List SignerAuditRecord
  checkpoints : List SignerAuditCheckpoint

/-- A record to append, the randomness of a signature, and how many bytes of a frame reach its file
if writing it fails. -/
structure AuditRequest where
  record : SignerAuditRecord
  randomness : ℕ
  fault : Option ℕ
  checkpointFault : Option ℕ

inductive AuditEvent where
  | request (r : AuditRequest)
  | restart

variable (P : AuditPrimitives) (keys : List Hash64)

def chainOf (records : List SignerAuditRecord) : Hash64 :=
  records.foldl (computeSignerAuditChainEntry P.toSignerPrimitives) 0

/-- Replays the file and cuts a torn end. -/
def AuditLog.loadOrNew (file : Bytes) : Option (AuditLog × Bytes) :=
  (u32Header.read P.decodeAuditRecord file).map fun (records, goodLen) =>
    (⟨chainOf P records, records.length⟩, file.take goodLen)

/-- `write_all` and `sync_all` of a frame at the end of a file: how much of it is written. -/
def appendFrame (file body : Bytes) (fault : Option ℕ) : Bytes :=
  file ++ (u32Header.frame body).take (fault.getD (u32Header.frame body).length)

def AuditState.append (s : AuditState) (record : SignerAuditRecord) (fault : Option ℕ) :
    AuditState :=
  let logFile := appendFrame s.logFile (P.encodeAuditRecord record) fault
  if fault.isSome then { s with logFile }
  else { s with
    logFile
    audit := ⟨computeSignerAuditChainEntry P.toSignerPrimitives s.audit.chainHash record,
      s.audit.recordCount + 1⟩
    appended := s.appended ++ [record] }

def AuditState.checkpoint (s : AuditState) (r : AuditRequest) : Option SignerAuditCheckpoint :=
  keys.min?.map fun validatorId =>
    { recordIndex := s.audit.recordCount
      timestampUnixSecs := r.record.timestampUnixSecs
      validatorId
      chainHead := s.audit.chainHash
      signature := P.signWithContext validatorId r.randomness (hash64Bytes s.audit.chainHash)
        AUDIT_CHECKPOINT_MLDSA87_CONTEXT }

def AuditState.writeAuditCheckpoint (s : AuditState) (r : AuditRequest) : AuditState :=
  match s.checkpoint P keys r with
  | none => s
  | some c =>
    let checkpointFile := appendFrame s.checkpointFile (P.encodeCheckpoint c) r.checkpointFault
    if r.checkpointFault.isSome then { s with checkpointFile }
    else { s with checkpointFile, checkpoints := s.checkpoints ++ [c] }

def AuditState.handleRequest (s : AuditState) (r : AuditRequest) : AuditState :=
  let s := s.append P r.record r.fault
  if r.fault.isSome then s
  else if AUDIT_CHECKPOINT_INTERVAL ≤ s.appendsSinceCheckpoint + 1 then
    { s with appendsSinceCheckpoint := 0 }.writeAuditCheckpoint P keys r
  else { s with appendsSinceCheckpoint := s.appendsSinceCheckpoint + 1 }

def AuditState.step (s : AuditState) : AuditEvent → AuditState
  | .request r => s.handleRequest P keys r
  | .restart =>
    match AuditLog.loadOrNew P s.logFile with
    | none => s
    | some (audit, logFile) => { s with audit, logFile, appendsSinceCheckpoint := 0 }

def AuditState.initial : AuditState := ⟨⟨0, 0⟩, 0, [], [], [], []⟩

def AuditState.run (events : List AuditEvent) : AuditState :=
  events.foldl (AuditState.step P keys) .initial

/-- One turn of `replay_heads_at`: the heads so far, the count and the chain. -/
def replayStep (wanted : List ℕ) (acc : Table ℕ Hash64 × ℕ × Hash64) (record : SignerAuditRecord) :
    Table ℕ Hash64 × ℕ × Hash64 :=
  let chain := computeSignerAuditChainEntry P.toSignerPrimitives acc.2.2 record
  let count := acc.2.1 + 1
  (if count ∈ wanted then acc.1.insert count chain else acc.1, count, chain)

def replayHeadsAt (wanted : List ℕ) (file : Bytes) : Option (Table ℕ Hash64) :=
  (u32Header.read P.decodeAuditRecord file).map fun read =>
    (read.1.foldl (replayStep P wanted) (∅, 0, 0)).1

def readAuditCheckpoints (file : Bytes) : Option (List SignerAuditCheckpoint) :=
  (u32Header.read P.decodeCheckpoint file).map Prod.fst

def checkpointOk (heads : Table ℕ Hash64) (c : SignerAuditCheckpoint) : Bool :=
  keys.contains c.validatorId &&
    verifyMldsa87WithContext P.toPrimitives (P.publicKey c.validatorId) (hash64Bytes c.chainHead)
      c.signature AUDIT_CHECKPOINT_MLDSA87_CONTEXT == .ok true &&
    heads.lookup c.recordIndex == some c.chainHead

/-- Every checkpoint against the replayed log. -/
def verifyAuditCheckpoints (logFile checkpointFile : Bytes) : Option CheckpointReport := do
  match ← readAuditCheckpoints P checkpointFile with
  | [] => some ⟨0, 0, 0, 0⟩
  | first :: rest =>
    let ckpts := first :: rest
    let heads ← replayHeadsAt P (ckpts.map (·.recordIndex)) logFile
    -- the last of those with the largest index, as `max_by_key` chooses
    let latest := rest.foldl (fun best c => if best.recordIndex ≤ c.recordIndex then c else best)
      first
    some ⟨ckpts.length, ckpts.countP fun c => !checkpointOk P keys heads c, latest.recordIndex,
      latest.chainHead⟩

/-- A value may be written: the file ends with a whole frame, the value comes back from its frame,
and a write that fails does not write all of it. -/
@[mk_iff] structure Writable {α : Type} (enc : α → Bytes) (dec : Bytes → Option α) (file : Bytes)
    (a : α) (fault : Option ℕ) : Prop where
  whole : ∃ values, u32Header.read dec file = some (values, file.length)
  fits : u32Header.Fits enc dec a
  short : ∀ k ∈ fault, k < (u32Header.frame (enc a)).length

def AuditEvent.Sound (s : AuditState) : AuditEvent → Prop
  | .restart => True
  | .request r =>
    Writable P.encodeAuditRecord P.decodeAuditRecord s.logFile r.record r.fault ∧
      (r.fault = none → AUDIT_CHECKPOINT_INTERVAL ≤ s.appendsSinceCheckpoint + 1 →
        ∀ c ∈ (s.append P r.record none).checkpoint P keys r,
          Writable P.encodeCheckpoint P.decodeCheckpoint s.checkpointFile c r.checkpointFault)

def SoundRun (events : List AuditEvent) : Prop :=
  StepsMeet (AuditState.step P keys) (AuditEvent.Sound P keys) .initial events

def SignaturesVerify : Prop :=
  ∀ validatorId ∈ keys, ∀ randomness head,
    Verifies P.toSignerPrimitives validatorId (hash64Bytes head)
      (P.signWithContext validatorId randomness (hash64Bytes head) AUDIT_CHECKPOINT_MLDSA87_CONTEXT)
      AUDIT_CHECKPOINT_MLDSA87_CONTEXT

def NoCollision (records records' : List SignerAuditRecord) : Prop :=
  ∀ i r r', records[i]? = some r → records'[i]? = some r' →
    chainOf P (records.take i ++ [r]) = chainOf P (records'.take i ++ [r']) →
      chainOf P (records.take i) = chainOf P (records'.take i) ∧ r = r'

/-- What was appended, and nothing else, comes back from the files; the checkpoints agree with it,
and with no log whose records up to one of them are others. -/
structure AuditState.Recovers (s : AuditState) : Prop where
  records : ∃ n, u32Header.read P.decodeAuditRecord s.logFile = some (s.appended, n)
  head : ∃ file, AuditLog.loadOrNew P s.logFile = some (s.audit, file)
  checkpoints : ∃ report, verifyAuditCheckpoints P keys s.logFile s.checkpointFile = some report ∧
    report.total = s.checkpoints.length ∧ report.anomalies = 0
  tampering : ∀ file records n, u32Header.read P.decodeAuditRecord file = some (records, n) →
    NoCollision P s.appended records → ∀ c ∈ s.checkpoints,
      records.take c.recordIndex ≠ s.appended.take c.recordIndex →
      ∃ report, verifyAuditCheckpoints P keys file s.checkpointFile = some report ∧
        0 < report.anomalies

variable {P keys} {s : AuditState} {records records' appended : List SignerAuditRecord}

theorem chainOf_concat (record : SignerAuditRecord) : chainOf P (records ++ [record]) =
    computeSignerAuditChainEntry P.toSignerPrimitives (chainOf P records) record := by
  rw [chainOf, foldl_append]
  rfl

theorem take_eq_of_chainOf (hcollision : NoCollision P records records') {i : ℕ}
    (hi : i ≤ records.length) (hi' : i ≤ records'.length)
    (h : chainOf P (records.take i) = chainOf P (records'.take i)) :
    records.take i = records'.take i := by
  induction i with
  | zero => rfl
  | succ i ih =>
    have hget : records[i]? = some records[i] := List.getElem?_eq_getElem hi
    have hget' : records'[i]? = some records'[i] := List.getElem?_eq_getElem hi'
    rw [take_succ_eq_append_getElem hi, take_succ_eq_append_getElem hi'] at h ⊢
    obtain ⟨hheads, hrecord⟩ := hcollision i _ _ hget hget' h
    rw [ih (Nat.le_of_succ_le hi) (Nat.le_of_succ_le hi') hheads, hrecord]

theorem replay_eq (wanted : List ℕ) (records : List SignerAuditRecord) :
    (records.foldl (replayStep P wanted) (∅, 0, 0)).2 = (records.length, chainOf P records) ∧
      ∀ i, (records.foldl (replayStep P wanted) (∅, 0, 0)).1.lookup i =
        if 0 < i ∧ i ≤ records.length ∧ i ∈ wanted then some (chainOf P (records.take i))
        else none := by
  induction records using List.reverseRecOn with
  | nil =>
    refine ⟨rfl, fun i => ?_⟩
    rw [if_neg (by simp only [length_nil]; omega)]
    exact lookup_empty i
  | append_singleton records record ih =>
    obtain ⟨hcount, hheads⟩ := ih
    rw [foldl_append, foldl_cons, foldl_nil]
    generalize records.foldl (replayStep P wanted) (∅, 0, 0) = acc at hcount hheads
    obtain ⟨heads, count, chain⟩ := acc
    cases hcount
    rw [length_append, length_singleton]
    refine ⟨by rw [replayStep, chainOf_concat], fun i => ?_⟩
    rw [replayStep, apply_ite (Finmap.lookup i), Table.lookup_insert_eq, hheads]
    by_cases hi : i ≤ records.length
    · -- an earlier head stays
      rw [take_append_of_le_length hi]
      simp [hi, hi.trans (Nat.le_succ _), show i ≠ records.length + 1 by omega]
    · by_cases hlast : i = records.length + 1
      · subst hlast
        rw [take_of_length_le (l := records ++ [record]) (by simp), chainOf_concat]
        simp
      · simp [hi, hlast, show ¬ i ≤ records.length + 1 by omega]

structure Anchored (P : AuditPrimitives) (keys : List Hash64) (appended : List SignerAuditRecord)
    (c : SignerAuditCheckpoint) : Prop where
  pos : 0 < c.recordIndex
  le : c.recordIndex ≤ appended.length
  head : c.chainHead = chainOf P (appended.take c.recordIndex)
  known : c.validatorId ∈ keys
  signed : Verifies P.toSignerPrimitives c.validatorId (hash64Bytes c.chainHead) c.signature
    AUDIT_CHECKPOINT_MLDSA87_CONTEXT

variable {c : SignerAuditCheckpoint} {file : Bytes} {fault : Option ℕ}

theorem Anchored.append (h : Anchored P keys appended c) (records : List SignerAuditRecord) :
    Anchored P keys (appended ++ records) c := by
  refine ⟨h.pos, ?_, ?_, h.known, h.signed⟩
  · rw [length_append]
    exact h.le.trans (Nat.le_add_right _ _)
  · rw [take_append_of_le_length h.le]
    exact h.head

structure AuditState.Intact (P : AuditPrimitives) (keys : List Hash64) (s : AuditState) :
    Prop where
  log : u32Header.Holds P.encodeAuditRecord P.decodeAuditRecord s.logFile s.appended
  audit : s.audit = ⟨chainOf P s.appended, s.appended.length⟩
  file : u32Header.Holds P.encodeCheckpoint P.decodeCheckpoint s.checkpointFile s.checkpoints
  anchored : ∀ c ∈ s.checkpoints, Anchored P keys s.appended c

theorem holds_appendFrame {α : Type} {enc : α → Bytes} {dec : Bytes → Option α} {values : List α}
    {a : α} (h : u32Header.Holds enc dec file values) (hwrite : Writable enc dec file a fault) :
    u32Header.Holds enc dec (appendFrame file (enc a) fault)
      (if fault.isSome then values else values ++ [a]) := by
  obtain ⟨values', hwhole⟩ := hwrite.whole
  obtain rfl := h.eq_frames hwhole
  obtain ⟨hdone, hfailed⟩ := h.append hwrite.fits
  cases fault with
  | none =>
    rwa [appendFrame, getD_none, take_length]
  | some k => exact hfailed k (hwrite.short k rfl)

theorem AuditState.Intact.append (h : s.Intact P keys) {record : SignerAuditRecord}
    (hwrite : Writable P.encodeAuditRecord P.decodeAuditRecord s.logFile record fault) :
    (s.append P record fault).Intact P keys := by
  have hlog := holds_appendFrame h.log hwrite
  cases fault with
  | some k => exact ⟨hlog, h.audit, h.file, h.anchored⟩
  | none =>
    refine ⟨hlog, ?_, h.file, fun c hc => (h.anchored c hc).append [record]⟩
    simp only [AuditState.append, h.audit, chainOf_concat, length_append,
      length_singleton, isSome_none, Bool.false_eq_true, if_false]

theorem AuditState.Intact.anchored_checkpoint (hsign : SignaturesVerify P keys)
    (h : s.Intact P keys) (hne : s.appended ≠ []) {r : AuditRequest} {c : SignerAuditCheckpoint}
    (hc : s.checkpoint P keys r = some c) : Anchored P keys s.appended c := by
  rw [AuditState.checkpoint, h.audit] at hc
  obtain ⟨validatorId, hmin, rfl⟩ := map_eq_some_iff.mp hc
  have hknown := List.min?_mem hmin
  refine ⟨length_pos_of_ne_nil hne, le_rfl, ?_, hknown, hsign _ hknown _ _⟩
  exact congrArg (chainOf P) (take_length).symm

theorem AuditState.Intact.writeAuditCheckpoint (hsign : SignaturesVerify P keys)
    (h : s.Intact P keys) (hne : s.appended ≠ []) {r : AuditRequest}
    (hwrite : ∀ c ∈ s.checkpoint P keys r,
      Writable P.encodeCheckpoint P.decodeCheckpoint s.checkpointFile c r.checkpointFault) :
    (s.writeAuditCheckpoint P keys r).Intact P keys := by
  unfold AuditState.writeAuditCheckpoint
  cases hcheckpoint : s.checkpoint P keys r with
  | none => exact h
  | some c =>
    have hfile := holds_appendFrame h.file (hwrite c hcheckpoint)
    cases hfault : r.checkpointFault <;> rw [hfault] at hfile
    case some k => exact ⟨h.log, h.audit, hfile, h.anchored⟩
    case none =>
      have hlast := h.anchored_checkpoint hsign hne hcheckpoint
      exact ⟨h.log, h.audit, hfile,
        forall_mem_append.mpr ⟨h.anchored, forall_mem_singleton.mpr hlast⟩⟩

theorem AuditState.Intact.load (h : s.Intact P keys) :
    AuditLog.loadOrNew P s.logFile =
      some (s.audit, s.logFile.take (u32Header.frames P.encodeAuditRecord s.appended).length) := by
  rw [AuditLog.loadOrNew, h.log.read, h.audit]
  rfl

theorem AuditState.Intact.step (hsign : SignaturesVerify P keys) (s : AuditState)
    (event : AuditEvent) (h : s.Intact P keys) (hsound : event.Sound P keys s) :
    (s.step P keys event).Intact P keys := by
  cases event with
  | restart =>
    rw [AuditState.step, h.load]
    exact ⟨h.log.take, h.audit, h.file, h.anchored⟩
  | request r =>
    obtain ⟨hwrite, hcheckpoint⟩ := hsound
    have happend := h.append hwrite
    change (s.handleRequest P keys r).Intact P keys
    unfold AuditState.handleRequest
    cases hfault : r.fault with
    | some k =>
      rwa [hfault] at happend
    | none =>
      rw [hfault] at happend
      simp only [isSome_none, Bool.false_eq_true, if_false]
      split
      · next hdue =>
        have hreset : { s.append P r.record none with appendsSinceCheckpoint := 0 }.Intact P keys :=
          ⟨happend.log, happend.audit, happend.file, happend.anchored⟩
        refine hreset.writeAuditCheckpoint hsign ?_ fun c hc => hcheckpoint hfault hdue c hc
        exact append_ne_nil_of_right_ne_nil _ (cons_ne_nil _ _)
      · exact ⟨happend.log, happend.audit, happend.file, happend.anchored⟩

theorem checkpointOk_of_anchored {heads : Table ℕ Hash64} (h : Anchored P keys appended c) :
    checkpointOk P keys heads c ↔ heads.lookup c.recordIndex = some c.chainHead := by
  have hsigned : verifyMldsa87WithContext P.toPrimitives (P.publicKey c.validatorId)
      (hash64Bytes c.chainHead) c.signature AUDIT_CHECKPOINT_MLDSA87_CONTEXT = .ok true := h.signed
  simp [checkpointOk, h.known, hsigned]

theorem AuditState.Intact.verify (h : s.Intact P keys) {n : ℕ}
    (hread : u32Header.read P.decodeAuditRecord file = some (records, n)) :
    ∃ report, verifyAuditCheckpoints P keys file s.checkpointFile = some report ∧
      report.total = s.checkpoints.length ∧
      (report.anomalies = 0 ↔ ∀ c ∈ s.checkpoints, c.recordIndex ≤ records.length ∧
        chainOf P (records.take c.recordIndex) = c.chainHead) := by
  have hanchored := h.anchored
  unfold verifyAuditCheckpoints
  rw [readAuditCheckpoints, h.file.read]
  cases hckpts : s.checkpoints with
  | nil => exact ⟨_, rfl, rfl, fun _ c hc => (not_mem_nil hc).elim, fun _ => rfl⟩
  | cons first rest =>
    rw [hckpts] at hanchored
    simp only [replayHeadsAt, hread, map_some, bind_eq_bind, bind_some]
    refine ⟨_, rfl, rfl, ?_⟩
    simp only [countP_eq_zero, Bool.not_eq_true', Bool.not_eq_false]
    refine forall₂_congr fun c hc => ?_
    have hwanted : c.recordIndex ∈ (first :: rest).map (·.recordIndex) := mem_map_of_mem hc
    rw [checkpointOk_of_anchored (hanchored c hc), (replay_eq _ records).2]
    simp only [(hanchored c hc).pos, hwanted, true_and, and_true]
    split <;> next hle => simp [hle]

theorem AuditState.Intact.recovers (h : s.Intact P keys) : s.Recovers P keys := by
  refine ⟨⟨_, h.log.read⟩, ⟨_, h.load⟩, ?_, ?_⟩
  · obtain ⟨report, hreport, htotal, hanomalies⟩ := h.verify h.log.read
    refine ⟨report, hreport, htotal, hanomalies.mpr fun c hc => ?_⟩
    exact ⟨(h.anchored c hc).le, (h.anchored c hc).head.symm⟩
  · intro file records n hread hcollision c hc hne
    obtain ⟨report, hreport, -, hanomalies⟩ := h.verify hread
    refine ⟨report, hreport, Nat.pos_of_ne_zero fun hzero => hne ?_⟩
    obtain ⟨hle, hhead⟩ := hanomalies.mp hzero c hc
    exact (take_eq_of_chainOf hcollision (h.anchored c hc).le hle
      ((h.anchored c hc).head.symm.trans hhead.symm)).symm

theorem AuditState.Recovers.map_read (h : s.Recovers P keys) :
    (u32Header.read P.decodeAuditRecord s.logFile).map Prod.fst = some s.appended := by
  obtain ⟨n, hn⟩ := h.records
  rw [hn, map_some]

/-- In a run that writes only behind whole frames, and in which a write that fails does not write a
whole frame, the audit log and its checkpoints survive failures and restarts. -/
theorem audit_recovers (P : AuditPrimitives) (keys : List Hash64)
    (hsign : SignaturesVerify P keys) (events : List AuditEvent) (hsound : SoundRun P keys events) :
    (AuditState.run P keys events).Recovers P keys := by
  refine AuditState.Intact.recovers (StepsMeet.invariant (AuditState.Intact.step hsign) hsound ?_)
  have hnil : ∀ {α : Type} {p : α → Prop}, ∀ a ∈ ([] : List α), p a :=
    nofun
  exact ⟨LengthHeader.holds_frames hnil, rfl, LengthHeader.holds_frames hnil, hnil⟩

def sampleRecord (now : ℕ) : SignerAuditRecord :=
  ⟨now, [], 0, 7, .transaction, .none, .transaction 0, 0, .signed⟩

def sampleAudit : AuditPrimitives where
  toSignerPrimitives := { sampleSigner with
    encodeAuditRecord := fun record => [UInt8.ofNat record.timestampUnixSecs] }
  decodeAuditRecord body := body.head?.map fun now => sampleRecord now.toNat
  encodeCheckpoint c :=
    UInt8.ofNat c.recordIndex :: UInt8.ofNat c.timestampUnixSecs :: hash64Bytes c.chainHead
  decodeCheckpoint
    | index :: now :: head =>
      some ⟨index.toNat, now.toNat, 7, leNat head.reverse,
        sampleSignature head AUDIT_CHECKPOINT_MLDSA87_CONTEXT⟩
    | _ => none

def sampleWrite (now : ℕ) (fault : Option ℕ) : AuditEvent :=
  .request ⟨sampleRecord now, 0, fault, none⟩

theorem signaturesVerify_sampleAudit : SignaturesVerify sampleAudit [7] := by
  intro validatorId _ randomness head
  have hcontext : AUDIT_CHECKPOINT_MLDSA87_CONTEXT.length = 30 := by decide
  change Verifies sampleSigner validatorId _ _ _
  refine verifies_sampleSigner.mpr ⟨?_, by decide, rfl⟩
  change (sampleSignature (hash64Bytes head) AUDIT_CHECKPOINT_MLDSA87_CONTEXT).length = _
  rw [sampleSignature, List.rightpad, length_append, length_replicate]
  refine Nat.add_sub_cancel' ?_
  rw [length_append, length_cons, hcontext, hash64Bytes, length_map,
    length_range]
  decide

instance {α : Type} [BEq α] [LawfulBEq α] {enc : α → Bytes} {dec : Bytes → Option α} {a : α} :
    Decidable (Writable enc dec file a fault) :=
  have : Decidable (∃ values, u32Header.read dec file = some (values, file.length)) :=
    decidable_of_iff ((u32Header.read dec file).map Prod.snd = some file.length) (by simp)
  have : Decidable (u32Header.Fits enc dec a) :=
    decidable_of_iff (dec (enc a) == some a ∧ (enc a).length < u32Header.limit)
      ((and_congr_left' beq_iff_eq).trans (LengthHeader.fits_iff ..).symm)
  decidable_of_iff' _ (writable_iff ..)

instance : (event : AuditEvent) → Decidable (event.Sound P keys s)
  | .restart => .isTrue trivial
  | .request _ => inferInstanceAs (Decidable (_ ∧ _))

/-- A write torn after four bytes, a restart, the records up to a checkpoint and a restart. -/
def checkpointRun : List AuditEvent :=
  sampleWrite 7 (some 4) :: .restart ::
    (range AUDIT_CHECKPOINT_INTERVAL).map (sampleWrite · none) ++ [.restart]

theorem audit_recovers_checkpointRun :
    (AuditState.run sampleAudit [7] checkpointRun).Recovers sampleAudit [7] ∧
      (AuditState.run sampleAudit [7] checkpointRun).checkpoints.length = 1 := by
  refine ⟨audit_recovers sampleAudit [7] signaturesVerify_sampleAudit _ ?_, by decide +kernel⟩
  change StepsMeet _ (AuditEvent.Sound _ _) _ _
  decide +kernel

/-- A record after a torn one is lost for another, and a record that was refused comes back. -/
theorem audit_not_recovered :
    ¬(AuditState.run sampleAudit [7] [sampleWrite 7 (some 4), sampleWrite 9 none]).Recovers
      sampleAudit [7] ∧
    ¬(AuditState.run sampleAudit [7] [sampleWrite 7 (some 5)]).Recovers sampleAudit [7] := by
  constructor
  · exact fun h => absurd h.map_read (by decide +kernel)
  · exact fun h => absurd h.map_read (by decide +kernel)

end Misaka.Signer
