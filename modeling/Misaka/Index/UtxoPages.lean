import Mathlib.Data.List.Induction
import Mathlib.Data.List.Nodup
import Mathlib.Data.List.Perm.Subperm
import Misaka.Chain.Transaction

/-!
# Paged UTXO listings

`get_utxos_by_address_page` hands out a cursor with each page. The store names the first entry that
did not fit, the next call seeks to it and skips it, so one entry is lost at every page boundary.
-/

namespace Misaka.Index

open List

structure CompactUtxoEntry where
  amount : ℕ
  blockDaaScore : ℕ
  isCoinbase : Bool
  deriving DecidableEq, Repr

def TRANSACTION_OUTPOINT_KEY_SIZE : ℕ := 64 + 4

/-- The rows under the bucket of one script, in the order of their outpoint keys. -/
structure ScriptBucket where
  rows : List (Bytes × CompactUtxoEntry)
  sorted : rows.Pairwise (·.1 < ·.1)
  keyed : ∀ row ∈ rows, row.1.length = TRANSACTION_OUTPOINT_KEY_SIZE

namespace ScriptBucket

variable (s : ScriptBucket)

def seekIterator (seekFrom : Option Bytes) (limit : ℕ) (skipFirst : Bool) :
    List (Bytes × CompactUtxoEntry) :=
  let found := match seekFrom with
    | none => s.rows
    | some key => s.rows.dropWhile (·.1 < key)
  (if skipFirst then found.drop 1 else found).take limit

/-- A page after the cursor, and the cursor of the next. -/
def getUtxosFromScriptPublicKeyChunk (cursor : Option Bytes) (chunkSize : ℕ) :
    List (Bytes × CompactUtxoEntry) × Option Bytes :=
  let seekFrom := cursor.filter (·.length = TRANSACTION_OUTPOINT_KEY_SIZE)
  let items := s.seekIterator seekFrom (min (chunkSize + 1) U64_MAX) seekFrom.isSome
  if chunkSize < items.length then (items.dropLast, items.getLast?.map (·.1)) else (items, none)

end ScriptBucket

def pageLimit (limit : ℕ) : ℕ := if limit = 0 then 1000 else min limit 1000

def isContinuation (b : UInt8) : Bool := 0x80 ≤ b && b < 0xc0

def hexValue (b : UInt8) : Option UInt8 :=
  if 0x30 ≤ b && b ≤ 0x39 then some (b - 0x30)
  else if 0x41 ≤ b && b ≤ 0x46 then some (b - 0x37)
  else if 0x61 ≤ b && b ≤ 0x66 then some (b - 0x57)
  else none

/-- `u8::from_str_radix` of two bytes; a leading plus sign is allowed. -/
def fromStrRadix (a b : UInt8) : Option UInt8 :=
  if a = 0x2b then hexValue b else do return (← hexValue a) * 16 + (← hexValue b)

/-- The bytes of a cursor text, read in slices of two. Nothing at all is the panic of a slice that
ends inside a character; a pair that is no number ends the reading. -/
def decodeCursor : Bytes → Option (Option Bytes)
  | a :: b :: rest =>
    if rest.head?.any isContinuation then none
    else match fromStrRadix a b with
      | none => some none
      | some byte => (decodeCursor rest).map (·.map (byte :: ·))
  | _ => some (some [])

/-- Hex of an even length; else no cursor. -/
def parseCursor (cursor : List Char) : Option (Option Bytes) :=
  let bytes := cursor.flatMap String.utf8EncodeChar
  if bytes = [] then some none
  else if bytes.length % 2 = 0 then decodeCursor bytes
  else some none

def isHexDigit (c : Char) : Bool :=
  ('0' ≤ c && c ≤ '9') || ('A' ≤ c && c ≤ 'F') || ('a' ≤ c && c ≤ 'f')

/-- The cursor texts that cut a character: after pairs that read as numbers comes a slice of two
bytes that ends inside its first or its second character. -/
inductive CutsCharacter : List Char → Prop
  | first {c rest} : 0x800 ≤ c.toNat → CutsCharacter (c :: rest)
  | second {c d rest} : c.toNat < 0x80 → 0x80 ≤ d.toNat → CutsCharacter (c :: d :: rest)
  | later {c d rest} : c = '+' ∨ isHexDigit c → isHexDigit d → CutsCharacter rest →
      CutsCharacter (c :: d :: rest)

/-- The page a client gets, with the key its next cursor spells; nothing where the call panics. -/
def getUtxosByAddressPage (s : ScriptBucket) (limit : ℕ) (cursor : List Char) :
    Option (List (Bytes × CompactUtxoEntry) × Option Bytes) :=
  (parseCursor cursor).map (s.getUtxosFromScriptPublicKeyChunk · (pageLimit limit))

namespace ScriptBucket

variable {s : ScriptBucket} {front rest : List (Bytes × CompactUtxoEntry)} {chunkSize : ℕ}

/-- What a call with this cursor still has before it. -/
def Resumes (s : ScriptBucket) (cursor : Option Bytes) (rest : List (Bytes × CompactUtxoEntry)) :
    Prop :=
  ∀ limit, s.seekIterator (cursor.filter (·.length = TRANSACTION_OUTPOINT_KEY_SIZE)) limit
    (cursor.filter (·.length = TRANSACTION_OUTPOINT_KEY_SIZE)).isSome = rest.take limit

theorem nodup (s : ScriptBucket) : s.rows.Nodup := by
  apply s.sorted.imp
  rintro a b hlt rfl
  exact List.lt_irrefl _ hlt

theorem resumes_none (s : ScriptBucket) : s.Resumes none s.rows := fun _ => rfl

theorem resumes_some {row : Bytes × CompactUtxoEntry} (h : s.rows = front ++ row :: rest) :
    s.Resumes (some row.1) rest := by
  intro limit
  have hkey := s.keyed row (by simp [h])
  have hsorted := s.sorted
  rw [h] at hsorted
  have hbefore := fun x hx => (pairwise_append.mp hsorted).2.2 x hx row mem_cons_self
  rw [Option.filter_some, if_pos (by simpa using hkey)]
  simp only [seekIterator, h]
  rw [dropWhile_append_of_pos (by simpa using hbefore), dropWhile_cons_of_neg]
  · rfl
  · simp [List.lt_irrefl]

theorem chunk_eq {cursor : Option Bytes} (hresumes : s.Resumes cursor rest)
    (hsize : chunkSize < U64_MAX) :
    s.getUtxosFromScriptPublicKeyChunk cursor chunkSize =
      (rest.take chunkSize, rest[chunkSize]?.map (·.1)) := by
  unfold getUtxosFromScriptPublicKeyChunk
  dsimp only
  rw [hresumes, min_eq_left (by omega), take_add_one]
  cases hget : rest[chunkSize]? with
  | none =>
    have hle := List.getElem?_eq_none_iff.mp hget
    rw [if_neg (by simp [hle])]
    simp
  | some row =>
    obtain ⟨hlt, -⟩ := List.getElem?_eq_some_iff.mp hget
    rw [if_pos (by simp; omega)]
    simp

/-- Follow the cursors from page to page. The content may be another one at each call. -/
def walk (contents : ℕ → ScriptBucket) (chunkSize : ℕ) :
    ℕ → Option Bytes → Option (List (Bytes × CompactUtxoEntry))
  | 0, _ => none
  | fuel + 1, cursor =>
    let page := (contents 0).getUtxosFromScriptPublicKeyChunk cursor chunkSize
    match page.2 with
    | none => some page.1
    | some next => (walk (fun n => contents (n + 1)) chunkSize fuel (some next)).map (page.1 ++ ·)

theorem walk_eq (hsize : chunkSize < U64_MAX) (cursor : Option Bytes)
    (hresumes : s.Resumes cursor rest) (h : s.rows = front ++ rest) :
    ∃ listed, (∀ fuel, rest.length < fuel →
        walk (fun _ => s) chunkSize fuel cursor = some listed) ∧
      listed.length ≤ rest.length ∧ (chunkSize < rest.length → listed.length < rest.length) := by
  induction hn : rest.length using Nat.strong_induction_on generalizing front cursor rest with
  | h n ih =>
    have hpage := chunk_eq hresumes hsize
    cases hget : rest[chunkSize]? with
    | none =>
      have hle := List.getElem?_eq_none_iff.mp hget
      rw [hget] at hpage
      refine ⟨rest.take chunkSize, fun fuel hfuel => ?_, by simp [hn], by omega⟩
      obtain ⟨fuel, rfl⟩ := Nat.exists_eq_add_one.mpr (Nat.zero_lt_of_lt hfuel)
      simp [walk, hpage]
    | some row =>
      obtain ⟨hlt, hrow⟩ := List.getElem?_eq_some_iff.mp hget
      have hsplit : s.rows = (front ++ rest.take chunkSize) ++
        row :: rest.drop (chunkSize + 1) := by
        rw [h, append_assoc, ← hrow, getElem_cons_drop, take_append_drop]
      obtain ⟨listed, hwalk, hle, -⟩ := ih _ (by simp; omega) (some row.1) (resumes_some hsplit)
        (hsplit.trans (append_cons ..)) rfl
      rw [hget] at hpage
      -- the row of the cursor is neither in this page nor in what follows
      have hlost : (rest.take chunkSize ++ listed).length < n := by
        simp at hle ⊢
        omega
      refine ⟨_, fun fuel hfuel => ?_, hlost.le, fun _ => hlost⟩
      obtain ⟨fuel, rfl⟩ := Nat.exists_eq_add_one.mpr (Nat.zero_lt_of_lt hfuel)
      have hnext := hwalk fuel (by simp; omega)
      simp [walk, hpage, hnext]

end ScriptBucket

section Cursor

open String (utf8EncodeChar)

theorem isContinuation_ofNat (v : ℕ) : isContinuation (UInt8.ofNat (v % 64 + 128)) := by
  simp [isContinuation, UInt8.le_iff_toNat_le, UInt8.lt_iff_toNat_lt]
  omega

theorem utf8EncodeChar_of_lt {c : Char} (h : c.toNat < 0x80) :
    utf8EncodeChar c = [UInt8.ofNat c.toNat] := by
  simp [utf8EncodeChar, Nat.lt_succ_iff.mp h]

/-- A character outside ASCII starts with a byte that is no digit; its second byte, and its third
if it has one, continue it. -/
theorem utf8EncodeChar_of_le {c : Char} (h : 0x80 ≤ c.toNat) :
    ∃ a b tail, utf8EncodeChar c = a :: b :: tail ∧ 0xc0 ≤ a ∧ isContinuation b ∧
      (tail = [] ∧ c.toNat < 0x800 ∨ tail.head?.any isContinuation ∧ 0x800 ≤ c.toNat) := by
  have hlead : ∀ v w, 0xc0 ≤ w → v + w < 256 → 0xc0 ≤ UInt8.ofNat (v + w) := fun v w hw hlt => by
    simp [UInt8.le_iff_toNat_le]
    omega
  have hval : c.val.toNat = c.toNat := rfl
  unfold utf8EncodeChar
  simp only [hval]
  split_ifs with h1 h2 h3
  · omega
  · exact ⟨_, _, [], rfl, hlead _ _ (by omega) (by omega), isContinuation_ofNat _,
      .inl ⟨rfl, by omega⟩⟩
  · exact ⟨_, _, _, rfl, hlead _ _ (by omega) (by omega), isContinuation_ofNat _,
      .inr ⟨isContinuation_ofNat _, by omega⟩⟩
  · exact ⟨_, _, _, rfl, hlead _ _ (by omega) (by omega), isContinuation_ofNat _,
      .inr ⟨isContinuation_ofNat _, by omega⟩⟩

/-- A text starts at a character. -/
theorem head_utf8 (text : List Char) :
    ((text.flatMap utf8EncodeChar).head?.any isContinuation) = false := by
  cases text with
  | nil => rfl
  | cons c rest =>
    rw [flatMap_cons]
    rcases Nat.lt_or_ge c.toNat 0x80 with h | h
    · have hlt : c.toNat % 256 < 128 := by omega
      simp [utf8EncodeChar_of_lt h, isContinuation, UInt8.le_iff_toNat_le, hlt.not_ge]
    · obtain ⟨a, b, tail, heq, ha, -⟩ := utf8EncodeChar_of_le h
      simp [heq, isContinuation, UInt8.not_lt.mpr ha]

theorem hexValue_isSome {c : Char} (h : c.toNat < 0x80) :
    (hexValue (UInt8.ofNat c.toNat)).isSome = isHexDigit c := by
  have hall : ∀ v < 0x80, (hexValue (UInt8.ofNat v)).isSome = isHexDigit (Char.ofNat v) := by decide
  rw [hall _ h, Char.ofNat_toNat]

theorem fromStrRadix_isSome {c d : Char} (hc : c.toNat < 0x80) (hd : d.toNat < 0x80) :
    (fromStrRadix (UInt8.ofNat c.toNat) (UInt8.ofNat d.toNat)).isSome ↔
      (c = '+' ∨ isHexDigit c) ∧ isHexDigit d := by
  have hall : ∀ v < 0x80, UInt8.ofNat v = 0x2b ↔ Char.ofNat v = '+' := by decide
  have hplus := hall _ hc
  rw [Char.ofNat_toNat] at hplus
  rw [← hexValue_isSome hc, ← hexValue_isSome hd, fromStrRadix]
  by_cases h : c = '+'
  · rw [if_pos (hplus.mpr h)]
    simp [h]
  · rw [if_neg (mt hplus.mp h)]
    cases hexValue (UInt8.ofNat c.toNat) <;> cases hexValue (UInt8.ofNat d.toNat) <;> simp [h]

theorem fromStrRadix_of_le {a : UInt8} (h : 0xc0 ≤ a) (b : UInt8) : fromStrRadix a b = none := by
  have hlt : ∀ x < 0xc0, ¬a ≤ x := fun x hx hle =>
    UInt8.not_le.mpr hx (UInt8.le_trans h hle)
  have hne : a ≠ 0x2b := fun heq => absurd (heq ▸ h) (by decide)
  simp [fromStrRadix, hexValue, hne, hlt]

theorem toNat_lt_of_isHexDigit {c : Char} (h : c = '+' ∨ isHexDigit c) : c.toNat < 0x80 := by
  rcases h with rfl | h
  · decide
  · simp only [isHexDigit, Bool.or_eq_true, Bool.and_eq_true, decide_eq_true_eq, Char.le_def,
      UInt32.le_iff_toNat_le] at h
    have hval : c.val.toNat = c.toNat := rfl
    simp at h
    omega

/-- Outside ASCII the first slice is no number and ends inside the character if that has three
bytes. -/
theorem decodeCursor_cons_eq_none {c : Char} (h : 0x80 ≤ c.toNat) (rest : List Char) :
    decodeCursor ((c :: rest).flatMap utf8EncodeChar) = none ↔ CutsCharacter (c :: rest) := by
  obtain ⟨a, b, tail, heq, ha, -, ⟨rfl, hlt⟩ | ⟨hcont, hle⟩⟩ := utf8EncodeChar_of_le h
  · refine iff_of_false (by simp [heq, decodeCursor, head_utf8, fromStrRadix_of_le ha]) ?_
    rintro (hle | hlt | hdigit)
    · omega
    · omega
    · exact absurd (toNat_lt_of_isHexDigit hdigit) (by omega)
  · refine iff_of_true ?_ (.first hle)
    rw [flatMap_cons, heq, cons_append, cons_append, decodeCursor, if_pos]
    cases tail with
    | nil => cases hcont
    | cons x tail => exact hcont

theorem cutsCharacter_of_lt {c d : Char} {rest : List Char} (hc : c.toNat < 0x80)
    (hd : d.toNat < 0x80) :
    CutsCharacter (c :: d :: rest) ↔
      ((c = '+' ∨ isHexDigit c) ∧ isHexDigit d) ∧ CutsCharacter rest := by
  refine ⟨?_, fun ⟨⟨hfirst, hsecond⟩, hrest⟩ => .later hfirst hsecond hrest⟩
  rintro (hle | ⟨-, hle⟩ | ⟨hfirst, hsecond, hrest⟩)
  · omega
  · omega
  · exact ⟨⟨hfirst, hsecond⟩, hrest⟩

/-- The reading of a text panics exactly if the text cuts a character. -/
theorem decodeCursor_eq_none_iff (text : List Char) :
    decodeCursor (text.flatMap utf8EncodeChar) = none ↔ CutsCharacter text := by
  induction text using twoStepInduction with
  | nil => exact iff_of_false (by simp [decodeCursor]) nofun
  | singleton c =>
    rcases Nat.lt_or_ge c.toNat 0x80 with hc | hc
    · refine iff_of_false (by simp [utf8EncodeChar_of_lt hc, decodeCursor]) ?_
      rintro ⟨⟩
      omega
    · exact decodeCursor_cons_eq_none hc []
  | cons_cons c d rest ih =>
    rcases Nat.lt_or_ge c.toNat 0x80 with hc | hc
    · rcases Nat.lt_or_ge d.toNat 0x80 with hd | hd
      · rw [cutsCharacter_of_lt hc hd, ← fromStrRadix_isSome hc hd, ← ih, flatMap_cons,
          flatMap_cons, utf8EncodeChar_of_lt hc, utf8EncodeChar_of_lt hd, singleton_append,
          singleton_append, decodeCursor, head_utf8, if_neg Bool.false_ne_true]
        cases fromStrRadix (UInt8.ofNat c.toNat) (UInt8.ofNat d.toNat) <;> simp
      · -- the second byte of `d` continues it, and the first slice ends before it
        obtain ⟨x, y, tail, heq, -, hy, -⟩ := utf8EncodeChar_of_le hd
        refine iff_of_true ?_ (.second hc hd)
        simp [utf8EncodeChar_of_lt hc, heq, decodeCursor, hy]
    · exact decodeCursor_cons_eq_none hc _

theorem parseCursor_eq_none_iff (cursor : List Char) :
    parseCursor cursor = none ↔
      (cursor.map Char.utf8Size).sum % 2 = 0 ∧ CutsCharacter cursor := by
  unfold parseCursor
  dsimp only
  rw [length_flatMap]
  simp only [String.length_utf8EncodeChar]
  split_ifs with hnil heven
  · have hempty : cursor = [] := eq_nil_iff_forall_not_mem.mpr (by simpa using hnil)
    exact iff_of_false nofun fun ⟨_, h⟩ => by cases hempty ▸ h
  · simp [heven, decodeCursor_eq_none_iff]
  · simp [heven]

end Cursor

open ScriptBucket in
/-- Whatever changes between the pages, a walk lists each UTXO that stays exactly once: this holds
of the contents that fit one page and of no others. A page call panics exactly on a cursor text of
an even number of bytes that cuts a character. -/
theorem utxo_walk_complete_iff (s : ScriptBucket) (limit : ℕ) :
    (∃ listed, ∀ fuel, s.rows.length < fuel →
      walk (fun _ => s) (pageLimit limit) fuel none = some listed) ∧
    ((∀ contents, contents 0 = s → ∃ bound listed,
        (∀ fuel, bound < fuel → walk contents (pageLimit limit) fuel none = some listed) ∧
          ∀ row, (∀ n, row ∈ (contents n).rows) → listed.count row = 1) ↔
      s.rows.length ≤ pageLimit limit) ∧
    ∀ cursor, getUtxosByAddressPage s limit cursor = none ↔
      (cursor.map Char.utf8Size).sum % 2 = 0 ∧ CutsCharacter cursor := by
  have hsize : pageLimit limit < U64_MAX := by
    unfold pageLimit U64_MAX
    split <;> omega
  obtain ⟨listed, hwalk, -, hlost⟩ := walk_eq hsize none s.resumes_none
    (show s.rows = [] ++ s.rows from rfl)
  refine ⟨⟨listed, hwalk⟩, ⟨fun h => ?_, fun hfits contents hstart => ?_⟩, fun cursor => ?_⟩
  · obtain ⟨bound, listed', hwalk', honce⟩ := h (fun _ => s) rfl
    have hsame := (hwalk (bound + s.rows.length + 1) (by omega)).symm.trans (hwalk' _ (by omega))
    obtain rfl : listed = listed' := by simpa using hsame
    have hsub : s.rows ⊆ listed := by
      intro row hrow
      exact count_pos_iff.mp (by rw [honce row fun _ => hrow]; exact Nat.one_pos)
    have hle := (subperm_of_subset s.nodup hsub).length_le
    exact Nat.not_lt.mp fun hlt => absurd (hlost hlt) hle.not_gt
  · subst hstart
    have hpage := chunk_eq (contents 0).resumes_none hsize
    rw [List.getElem?_eq_none hfits, take_of_length_le hfits] at hpage
    refine ⟨0, (contents 0).rows, fun fuel hfuel => ?_, fun row hrow => ?_⟩
    · obtain ⟨fuel, rfl⟩ := Nat.exists_eq_add_one.mpr hfuel
      simp [walk, hpage]
    · exact count_eq_one_of_mem (contents 0).nodup (hrow 0)
  · rw [getUtxosByAddressPage, Option.map_eq_none_iff, parseCursor_eq_none_iff]

def twoUtxos : ScriptBucket where
  rows := [(List.replicate 68 0, ⟨5, 1, false⟩), (List.replicate 68 1, ⟨7, 2, true⟩)]
  sorted := by decide
  keyed := by decide

/-- In pages of one the second of two UTXOs is never listed; a cursor whose first two bytes end
inside a character makes the call panic. -/
theorem second_utxo_lost :
    twoUtxos.rows.length = 2 ∧
    ScriptBucket.walk (fun _ => twoUtxos) (pageLimit 1) 3 none = some (twoUtxos.rows.take 1) ∧
    getUtxosByAddressPage twoUtxos 1 ['a', 'é', 'b'] = none := by
  decide

end Misaka.Index
