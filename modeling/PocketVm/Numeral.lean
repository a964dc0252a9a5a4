import Mathlib.Data.Nat.Digits.Lemmas
import PocketVm.Wire

/-!
# Numerals as bytes

Numbers printed in a base of at most ten, most significant digit first, and read back.
-/

namespace Numeral

open Wire List

variable {b n : Nat}

def digit (d : Nat) : UInt8 := UInt8.ofNat (48 + d)

def isDigit (b : Nat) (c : UInt8) : Bool := 48 ≤ c.toNat && c.toNat < 48 + b

def print (b n : Nat) : Bytes := if n = 0 then [48] else ((Nat.digits b n).map digit).reverse

def padded (b width n : Nat) : Bytes := List.replicate (width - (print b n).length) 48 ++ print b n

def value (b : Nat) (text : Bytes) : Nat := text.foldl (fun n c => n * b + (c.toNat - 48)) 0

theorem foldl_digits (n : Nat) (text : Bytes) :
    text.foldl (fun n c => n * b + (c.toNat - 48)) n = n * b ^ text.length + value b text := by
  induction text generalizing n with
  | nil => simp [value]
  | cons c text ih =>
    have hvalue : value b (c :: text) = (0 * b + (c.toNat - 48)) * b ^ text.length + value b text :=
      ih _
    rw [foldl_cons, ih, hvalue, length_cons]
    ring

theorem value_append (first second : Bytes) :
    value b (first ++ second) = value b first * b ^ second.length + value b second := by
  rw [value, foldl_append]
  exact foldl_digits _ second

theorem value_concat (text : Bytes) (c : UInt8) :
    value b (text ++ [c]) = value b text * b + (c.toNat - 48) := by
  rw [value, foldl_append]
  rfl

theorem value_replicate (k : Nat) : value b (List.replicate k 48) = 0 := by
  induction k with
  | zero => rfl
  | succ k ih =>
    rw [replicate_succ', value_concat, ih]
    simp

theorem isDigit_sub {c : UInt8} (h : isDigit b c = true) : c.toNat - 48 < b := by
  unfold isDigit at h
  simp only [Bool.and_eq_true, decide_eq_true_eq] at h
  omega

theorem value_lt {text : Bytes} (h : ∀ c ∈ text, isDigit b c = true) :
    value b text < b ^ text.length := by
  induction text using List.reverseRecOn with
  | nil => exact Nat.one_pos
  | append_singleton text c ih =>
    have hc := isDigit_sub (h c (by simp))
    have hrest : value b text + 1 ≤ b ^ text.length := ih fun c hc => h c (mem_append_left _ hc)
    rw [value_concat, length_append]
    calc value b text * b + (c.toNat - 48) < value b text * b + b := by omega
      _ = (value b text + 1) * b := by ring
      _ ≤ b ^ text.length * b := Nat.mul_le_mul_right b hrest

theorem value_drop {text : Bytes} (h : ∀ c ∈ text, isDigit b c = true) (k : Nat) :
    value b (text.drop k) = value b text % b ^ (text.drop k).length := by
  have hsplit : value b text = value b (text.take k) * b ^ (text.drop k).length + value b
    (text.drop k) := by
    rw [← value_append, take_append_drop]
  have hlt : value b (text.drop k) < b ^ (text.drop k).length :=
    value_lt fun c hc => h c (mem_of_mem_drop hc)
  rw [hsplit, Nat.add_comm, Nat.add_mul_mod_self_right, Nat.mod_eq_of_lt hlt]

section
variable (hb : 1 < b) (hten : b ≤ 10)
include hb hten

theorem toNat_digit {d : Nat} (hd : d < b) : (digit d).toNat = 48 + d := by
  unfold digit
  rw [UInt8.toNat_ofNat']
  omega

theorem isDigit_print : ∀ c ∈ print b n, isDigit b c = true := by
  intro c hc
  unfold print at hc
  split at hc
  · rw [mem_singleton.mp hc]
    simp [isDigit]
    omega
  · rw [mem_reverse, mem_map] at hc
    obtain ⟨d, hd, rfl⟩ := hc
    have hlt := Nat.digits_lt_base hb hd
    unfold isDigit
    rw [toNat_digit hb hten hlt]
    simp [hlt]

theorem value_print : value b (print b n) = n := by
  unfold print
  by_cases hn : n = 0
  · rw [hn]
    exact value_replicate 1
  · rw [if_neg hn]
    have hdigits : ∀ digits : List Nat, (∀ d ∈ digits, d < b) →
        value b ((digits.map digit).reverse) = Nat.ofDigits b digits := by
      intro digits
      induction digits with
      | nil => exact fun _ => rfl
      | cons d digits ih =>
        intro h
        rw [map_cons, reverse_cons, value_concat, ih fun d hd => h d (mem_cons_of_mem _ hd),
          toNat_digit hb hten (h d (mem_cons_self ..)), Nat.ofDigits_cons]
        simp
        ring
    rw [hdigits _ fun d hd => Nat.digits_lt_base hb hd, Nat.ofDigits_digits]

theorem isDigit_padded {width : Nat} : ∀ c ∈ padded b width n, isDigit b c = true := by
  intro c hc
  rcases mem_append.mp hc with hc | hc
  · rw [eq_of_mem_replicate hc]
    simp [isDigit]
    omega
  · exact isDigit_print hb hten c hc

theorem value_padded {width : Nat} : value b (padded b width n) = n := by
  rw [padded, value_append, value_replicate, value_print hb hten]
  simp

end

theorem length_print (hb : 1 < b) : (print b n).length = Nat.log b n + 1 := by
  unfold print
  by_cases hn : n = 0
  · rw [hn, Nat.log_zero_right]
    rfl
  · rw [if_neg hn, length_reverse, length_map, Nat.length_digits b n hb hn]

theorem le_length_padded {width : Nat} : width ≤ (padded b width n).length := by
  rw [padded, length_append, length_replicate]
  omega

theorem length_padded {width : Nat} (hb : 1 < b) (hwidth : width ≠ 0) (hn : n < b ^ width) :
    (padded b width n).length = width := by
  have hlog : Nat.log b n < width := Nat.log_lt_of_lt_pow' hwidth hn
  rw [padded, length_append, length_replicate, length_print hb]
  omega

theorem takeWhile_digits {text rest : Bytes} (h : ∀ c ∈ text, isDigit b c = true)
    (hrest : ∀ c ∈ rest.head?, isDigit b c = false) :
    (text ++ rest).takeWhile (isDigit b) = text := by
  rw [takeWhile_append_of_pos h]
  cases rest with
  | nil => simp
  | cons c rest => simp [hrest c rfl]

end Numeral
