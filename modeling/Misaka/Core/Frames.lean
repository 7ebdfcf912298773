import Mathlib.Algebra.Order.BigOperators.Group.List
import Mathlib.Algebra.Order.Ring.Nat

/-!
# Framed files

A file of bodies behind headers that give their lengths, extended at its end and read from the front
until no whole frame is left.
-/

namespace Misaka.Core

open List

structure LengthHeader (β : Type) where
  width : ℕ
  limit : ℕ
  put : ℕ → List β
  get : List β → ℕ
  width_pos : 0 < width
  length_put : ∀ n, (put n).length = width
  get_put : ∀ n < limit, get (put n) = n

namespace LengthHeader

variable {α β : Type} (H : LengthHeader β)

def frame (body : List β) : List β := H.put body.length ++ body

def frames (enc : α → List β) (values : List α) : List β := values.flatMap fun a => H.frame (enc a)

/-- A tail that a crash in the middle of an append can leave. -/
def Torn (rest : List β) : Prop :=
  rest.length < H.width ∨ rest.length < H.width + H.get (rest.take H.width)

instance decidableTorn (rest : List β) : Decidable (H.Torn rest) :=
  inferInstanceAs (Decidable (_ ∨ _))

/-- The values of the whole frames with the number of bytes they take; nothing where one cannot be
decoded. -/
def scan (dec : List β → Option α) : ℕ → List β → Option (List α × ℕ)
  | 0, _ => some ([], 0)
  | fuel + 1, bytes =>
    if H.Torn bytes then some ([], 0)
    else do
      let len := H.get (bytes.take H.width)
      let a ← dec ((bytes.drop H.width).take len)
      let rest ← scan dec fuel (bytes.drop (H.width + len))
      some (a :: rest.1, H.width + len + rest.2)

def read (dec : List β → Option α) (bytes : List β) : Option (List α × ℕ) :=
  H.scan dec bytes.length bytes

@[mk_iff] structure Fits (enc : α → List β) (dec : List β → Option α) (a : α) : Prop where
  dec_enc : dec (enc a) = some a
  length_lt : (enc a).length < H.limit

variable {H} {enc : α → List β} {dec : List β → Option α} {body tail : List β} {values : List α}

theorem length_frame : (H.frame body).length = H.width + body.length := by
  rw [frame, length_append, H.length_put]

theorem get_take_frame (tail : List β) (h : body.length < H.limit) :
    H.get ((H.frame body ++ tail).take H.width) = body.length := by
  rw [frame, append_assoc, ← H.length_put body.length, take_left, H.get_put _ h]

theorem torn_nil : H.Torn [] := .inl H.width_pos

theorem torn_take_frame {k : ℕ} (h : body.length < H.limit) (hk : k < (H.frame body).length) :
    H.Torn ((H.frame body).take k) := by
  have hlen : ((H.frame body).take k).length = k := length_take_of_le hk.le
  rcases lt_or_ge k H.width with hshort | hlong
  · exact .inl (hlen.trans_lt hshort)
  · have hget := get_take_frame [] h
    rw [append_nil] at hget
    refine .inr ?_
    rwa [take_take, min_eq_left hlong, hget, hlen, ← length_frame]

theorem scan_frames {fuel : ℕ} (hvalues : ∀ a ∈ values, H.Fits enc dec a) (htail : H.Torn tail)
    (hfuel : values.length ≤ fuel) :
    H.scan dec fuel (H.frames enc values ++ tail) =
      some (values, (H.frames enc values).length) := by
  induction values generalizing fuel with
  | nil =>
    cases fuel with
    | zero => rfl
    | succ fuel => exact if_pos htail
  | cons a values ih =>
    obtain ⟨ha, hvalues⟩ := forall_mem_cons.mp hvalues
    have hrest := get_take_frame (H.frames enc values ++ tail) ha.length_lt
    have hwhole : ¬H.Torn (H.frame (enc a) ++ (H.frames enc values ++ tail)) := by
      rw [Torn, hrest, length_append, length_frame]
      omega
    have hbody : ((H.frame (enc a) ++ (H.frames enc values ++ tail)).drop H.width).take
        (enc a).length = enc a := by
      rw [frame, append_assoc, ← H.length_put (enc a).length, drop_left, take_left]
    have hdrop : (H.frame (enc a) ++ (H.frames enc values ++ tail)).drop
        (H.width + (enc a).length) = H.frames enc values ++ tail := by
      rw [← length_frame, drop_left]
    cases fuel with
    | zero => cases hfuel
    | succ fuel =>
      rw [frames, flatMap_cons, append_assoc, ← frames, scan, if_neg hwhole]
      simp only [hrest, hbody, hdrop, ha.dec_enc, ih hvalues (Nat.le_of_succ_le_succ hfuel),
        Option.bind_eq_bind, Option.bind_some, length_append, length_frame]

theorem read_frames (hvalues : ∀ a ∈ values, H.Fits enc dec a) (htail : H.Torn tail) :
    H.read dec (H.frames enc values ++ tail) = some (values, (H.frames enc values).length) := by
  refine scan_frames hvalues htail ?_
  have hframes := length_le_sum_of_one_le (values.map fun a => (H.frame (enc a)).length) <| by
    intro n hn
    obtain ⟨a, -, rfl⟩ := mem_map.mp hn
    exact H.width_pos.trans_le (length_frame ▸ Nat.le_add_right _ _)
  rw [length_map] at hframes
  rw [length_append, frames, length_flatMap]
  exact hframes.trans (Nat.le_add_right _ _)

structure Holds (H : LengthHeader β) (enc : α → List β) (dec : List β → Option α) (file : List β)
    (values : List α) : Prop where
  fits : ∀ a ∈ values, H.Fits enc dec a
  file_eq : ∃ tail, H.Torn tail ∧ file = H.frames enc values ++ tail

variable {file : List β}

theorem Holds.read (h : H.Holds enc dec file values) :
    H.read dec file = some (values, (H.frames enc values).length) := by
  obtain ⟨tail, htail, rfl⟩ := h.file_eq
  exact read_frames h.fits htail

theorem holds_frames (h : ∀ a ∈ values, H.Fits enc dec a) :
    H.Holds enc dec (H.frames enc values) values :=
  ⟨h, [], torn_nil, (append_nil _).symm⟩

theorem Holds.take (h : H.Holds enc dec file values) :
    H.Holds enc dec (file.take (H.frames enc values).length) values := by
  obtain ⟨tail, -, rfl⟩ := h.file_eq
  rw [take_left]
  exact holds_frames h.fits

theorem Holds.eq_frames (h : H.Holds enc dec file values) {values' : List α}
    (hread : H.read dec file = some (values', file.length)) : file = H.frames enc values := by
  obtain ⟨tail, htail, rfl⟩ := h.file_eq
  have hlen := (Prod.mk.inj (Option.some.inj (hread.symm.trans (read_frames h.fits htail)))).2
  rw [length_append, add_eq_left, length_eq_zero_iff] at hlen
  rw [hlen, append_nil]

theorem Holds.append (h : H.Holds enc dec (H.frames enc values) values) {a : α}
    (ha : H.Fits enc dec a) :
    H.Holds enc dec (H.frames enc values ++ H.frame (enc a)) (values ++ [a]) ∧
      ∀ k < (H.frame (enc a)).length,
        H.Holds enc dec (H.frames enc values ++ (H.frame (enc a)).take k) values := by
  constructor
  · have hfits : ∀ b ∈ values ++ [a], H.Fits enc dec b :=
      forall_mem_append.mpr ⟨h.fits, forall_mem_singleton.mpr ha⟩
    have hframes : H.frames enc (values ++ [a]) = H.frames enc values ++ H.frame (enc a) := by
      simp only [frames, flatMap_append, flatMap_cons, flatMap_nil, append_nil]
    rw [← hframes]
    exact holds_frames hfits
  · intro k hk
    exact ⟨h.fits, _, torn_take_frame ha.length_lt hk, rfl⟩

end LengthHeader

end Misaka.Core
