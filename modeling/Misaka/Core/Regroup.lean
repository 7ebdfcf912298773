import Mathlib.Data.Nat.Digits.Lemmas

/-!
# Regrouping bits

A loop that reads digits of one width into a buffer and takes digits of another width off its top.
What it gives out, followed by what stays in the buffer, spells the number that went in.
-/

namespace Misaka.Core

open List

variable {w n fuel : ℕ} {digits digits' : List ℕ}

def spelled (w : ℕ) (digits : List ℕ) : ℕ := Nat.ofDigits (2 ^ w) digits.reverse

theorem spelled_concat (d : ℕ) : spelled w (digits ++ [d]) = spelled w digits * 2 ^ w + d := by
  rw [spelled, reverse_append, reverse_singleton, singleton_append,
    Nat.ofDigits_cons, mul_comm, add_comm, spelled]

theorem spelled_inj (hw : 0 < w) (hlen : digits.length = digits'.length)
    (h : ∀ d ∈ digits, d < 2 ^ w) (h' : ∀ d ∈ digits', d < 2 ^ w)
    (heq : spelled w digits = spelled w digits') : digits = digits' := by
  refine reverse_injective (Nat.ofDigits_inj_of_len_eq (Nat.one_lt_two_pow hw.ne') ?_ ?_ ?_ heq)
  · rw [length_reverse, length_reverse, hlen]
  · exact fun d hd => h d (mem_reverse.mp hd)
  · exact fun d hd => h' d (mem_reverse.mp hd)

structure BitBuffer where
  buff : ℕ
  bits : ℕ
  out : List ℕ

/-- Takes digits of `w` bits off the top while there are any. -/
def BitBuffer.drain (w : ℕ) : ℕ → BitBuffer → BitBuffer
  | 0, b => b
  | fuel + 1, b =>
    if w ≤ b.bits then
      drain w fuel ⟨b.buff &&& (2 ^ (b.bits - w) - 1), b.bits - w,
        b.out ++ [b.buff >>> (b.bits - w)]⟩
    else b

def BitBuffer.push (inw outw : ℕ) (b : BitBuffer) (d : ℕ) : BitBuffer :=
  BitBuffer.drain outw (b.bits + inw) ⟨b.buff <<< inw ||| d, b.bits + inw, b.out⟩

def regroup (inw outw : ℕ) (digits : List ℕ) : BitBuffer :=
  digits.foldl (BitBuffer.push inw outw) ⟨0, 0, []⟩

/-- The buffer and the digits taken off spell `v` in `n` bits. -/
structure BitBuffer.Spells (w n v : ℕ) (b : BitBuffer) : Prop where
  buff_lt : b.buff < 2 ^ b.bits
  out_lt : ∀ d ∈ b.out, d < 2 ^ w
  bits_eq : w * b.out.length + b.bits = n
  value_eq : spelled w b.out * 2 ^ b.bits + b.buff = v

variable {v : ℕ} {b : BitBuffer}

theorem BitBuffer.Spells.take (hb : b.Spells w n v) (hbits : w ≤ b.bits) :
    BitBuffer.Spells w n v ⟨b.buff &&& (2 ^ (b.bits - w) - 1), b.bits - w,
      b.out ++ [b.buff >>> (b.bits - w)]⟩ := by
  have hpow : 2 ^ b.bits = 2 ^ w * 2 ^ (b.bits - w) := by
    rw [← pow_add, Nat.add_sub_cancel' hbits]
  rw [Nat.and_two_pow_sub_one_eq_mod, Nat.shiftRight_eq_div_pow]
  refine ⟨Nat.mod_lt _ (by positivity), ?_, ?_, ?_⟩
  · refine forall_mem_append.mpr ⟨hb.out_lt, forall_mem_singleton.mpr (Nat.div_lt_of_lt_mul ?_)⟩
    rw [mul_comm, ← hpow]
    exact hb.buff_lt
  · have h := hb.bits_eq
    simp only [length_append, length_singleton, mul_add, mul_one]
    omega
  · rw [spelled_concat, add_mul, add_assoc, mul_assoc, ← hpow, Nat.div_add_mod']
    exact hb.value_eq

theorem BitBuffer.Spells.drain (hw : 0 < w) (hb : b.Spells w n v) (hfuel : b.bits ≤ fuel) :
    BitBuffer.Spells w n v (b.drain w fuel) ∧ (b.drain w fuel).bits < w := by
  induction fuel generalizing b with
  | zero => exact ⟨hb, by rw [BitBuffer.drain]; omega⟩
  | succ fuel ih =>
    rw [BitBuffer.drain]
    split
    · next hbits => exact ih (hb.take hbits) (by simp only; omega)
    · next hbits => exact ⟨hb, Nat.lt_of_not_le hbits⟩

theorem BitBuffer.Spells.push {inw outw d : ℕ} (hw : 0 < outw) (hb : b.Spells outw n v)
    (hd : d < 2 ^ inw) :
    BitBuffer.Spells outw (n + inw) (v * 2 ^ inw + d) (b.push inw outw d) ∧
      (b.push inw outw d).bits < outw := by
  have hbuff : b.buff <<< inw ||| d = b.buff * 2 ^ inw + d := by
    rw [← Nat.shiftLeft_add_eq_or_of_lt hd, Nat.shiftLeft_eq]
  refine BitBuffer.Spells.drain hw ⟨?_, hb.out_lt, ?_, ?_⟩ le_rfl
  · simp only [hbuff, pow_add]
    have h := Nat.mul_le_mul_right (2 ^ inw) (Nat.succ_le_of_lt hb.buff_lt)
    rw [Nat.succ_mul] at h
    omega
  · have h := hb.bits_eq
    simp only
    omega
  · simp only [hbuff, pow_add]
    rw [← hb.value_eq, add_mul, mul_assoc, add_assoc]

theorem regroup_spells (inw : ℕ) {outw : ℕ} (hw : 0 < outw) (h : ∀ d ∈ digits, d < 2 ^ inw) :
    (regroup inw outw digits).Spells outw (inw * digits.length) (spelled inw digits) ∧
      (regroup inw outw digits).bits < outw := by
  induction digits using List.reverseRecOn with
  | nil => exact ⟨⟨one_pos, fun d hd => (not_mem_nil hd).elim, rfl, rfl⟩, hw⟩
  | append_singleton digits d ih =>
    have hd := h d (mem_append_right _ mem_cons_self)
    have hrest := (ih (forall_mem_append.mp h).1).1
    rw [regroup, foldl_append, foldl_cons, foldl_nil, spelled_concat,
      length_append, length_singleton, mul_add, mul_one]
    exact hrest.push hw hd

end Misaka.Core
