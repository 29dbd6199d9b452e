import Mathlib.Data.List.TakeWhile
import Reckoner.Proofs.Numeral.Decimal

/-!
# Digits in a radix

Writing a natural number in a radix up to sixteen and reading its digits gives the number again
(`valueOf_toDigits`), and zeros in front change nothing.  A row of digits, in either case, is an integer
numeral (`readInteger_of_isNumeral`) unless it is too long, with a sign or without one.
-/

namespace Reckoner

namespace Numeral

/-- The character is a digit as numbers are written in the radix. -/
def IsDigitBelow (radix : Nat) (c : Char) : Prop := ∃ d < radix, c = Nat.digitChar d

/-- The digits of a natural number are digits of the radix. -/
theorem isDigitBelow_of_mem_toDigits {radix n : Nat} (hr : 1 < radix) {c : Char}
    (h : c ∈ Nat.toDigits radix n) : IsDigitBelow radix c := by
  induction n using Nat.strongRecOn with
  | ind n ih =>
    rcases Nat.lt_or_ge n radix with single | more
    · rw [Nat.toDigits_of_lt_base single, List.mem_singleton] at h
      exact ⟨n, single, h⟩
    · rw [Nat.toDigits_of_base_le hr more, List.mem_append, List.mem_singleton] at h
      rcases h with front | last
      · exact ih _ (Nat.div_lt_self (by omega) hr) front
      · exact ⟨n % radix, Nat.mod_lt n (by omega), last⟩

theorem digit?_digitChar : ∀ {d : Nat}, d < 16 → digit? (Nat.digitChar d) = some d := by decide

/-- Digits as they are written pass for digits. -/
theorem IsDigitBelow.digit? {radix : Nat} (small : radix ≤ 16) {c : Char} (h : IsDigitBelow radix c) :
    ∃ d < radix, Numeral.digit? c = some d := by
  obtain ⟨d, below, rfl⟩ := h
  exact ⟨d, below, digit?_digitChar (Nat.lt_of_lt_of_le below small)⟩

section Digit

variable {c : Char}

theorem digit?_of_isDigit (h : Text.isDigit c = true) : Numeral.digit? c = some (c.toNat - 48) := if_pos h

theorem digit?_of_small (first : 'a' ≤ c) (last : c ≤ 'z') : Numeral.digit? c = some (c.toNat - 87) := by
  have other : ¬ Text.isDigit c = true := fun digit =>
    absurd (Char.le_trans first (Text.isDigit_iff_le.mp digit).2) (by decide)
  rw [Numeral.digit?, if_neg other, if_pos (by simp [first, last])]

theorem digit?_of_large (first : 'A' ≤ c) (last : c ≤ 'Z') : Numeral.digit? c = some (c.toNat - 55) := by
  have other : ¬ Text.isDigit c = true := fun digit =>
    absurd (Char.le_trans first (Text.isDigit_iff_le.mp digit).2) (by decide)
  have small : ¬ 'a' ≤ c := fun above => absurd (Char.le_trans above last) (by decide)
  rw [Numeral.digit?, if_neg other, if_neg (by simp [small]), if_pos (by simp [first, last])]

/-- Up to the last character of a row the values are bounded by its value. -/
theorem sub_lt_of_le {last : Char} {first radix : Nat} (h : c ≤ last)
    (below : last.toNat - first < radix) : c.toNat - first < radix :=
  Nat.lt_of_le_of_lt (Nat.sub_le_sub_right h first) below

end Digit

/-! ## What digits stand for -/

theorem valueOf_concat (radix : Nat) (cs : List Char) (c : Char) :
    valueOf radix (cs ++ [c]) = valueOf radix cs * radix + (digit? c).getD 0 := by
  rw [valueOf, List.foldl_append]
  rfl

/-- Digits stand for the number of which they are the digits. -/
theorem valueOf_toDigits {radix : Nat} (hr : 1 < radix) (small : radix ≤ 16) (n : Nat) :
    valueOf radix (Nat.toDigits radix n) = n := by
  -- The last digit is the rest of a division by the radix, the digits before it those of the quotient.
  induction n using Nat.strongRecOn with
  | ind n ih =>
    rcases Nat.lt_or_ge n radix with single | more
    · rw [Nat.toDigits_of_lt_base single, ← List.nil_append [n.digitChar], valueOf_concat,
        digit?_digitChar (Nat.lt_of_lt_of_le single small)]
      exact (congrArg (· + n) (Nat.zero_mul radix)).trans (Nat.zero_add n)
    · have rest : n % radix < radix := Nat.mod_lt n (by omega)
      rw [Nat.toDigits_of_base_le hr more, valueOf_concat, ih _ (Nat.div_lt_self (by omega) hr),
        digit?_digitChar (Nat.lt_of_lt_of_le rest small)]
      exact Nat.div_add_mod' n radix

/-- The digits of a number that is not zero do not begin with a zero. -/
theorem head?_toDigits {n : Nat} (h : n ≠ 0) : (Nat.toDigits 10 n).head? ≠ some '0' := by
  intro zero
  obtain ⟨later, same⟩ := List.head?_eq_some_iff.mp zero
  have value := valueOf_toDigits (show 1 < 10 by decide) (by decide) n
  have trimmed := toDigits_valueOf (fun _ => isDigit_of_mem_toDigits (n := n)) Nat.toDigits_ne_nil
  rw [value, same] at trimmed
  cases later with
  | nil =>
    rw [same] at value
    exact h value.symm
  | cons c cs =>
    have shorter := length_trimZeros_le (c :: cs)
    rw [← show trimZeros ('0' :: c :: cs) = trimZeros (c :: cs) from rfl, ← trimmed, List.length_cons] at shorter
    exact absurd shorter (Nat.not_succ_le_self _)

/-- Zeros in front change nothing. -/
theorem valueOf_zeros_append (radix k : Nat) (cs : List Char) :
    valueOf radix (List.replicate k '0' ++ cs) = valueOf radix cs := by
  have zeros : valueOf radix (List.replicate k '0') = 0 := by
    induction k with
    | zero => rfl
    | succ k ih =>
      rw [List.replicate_succ', valueOf_concat, ih, Nat.zero_mul]
      rfl
  rw [valueOf, List.foldl_append]
  exact congrArg (fun start => List.foldl _ start cs) zeros

/-! ## Integer numerals -/

/-- A digit with a value below the radix passes for a digit of the radix. -/
theorem passes_of_digit? {radix d : Nat} (small : radix ≤ 36) {c : Char} (read : digit? c = some d)
    (below : d < radix) : passes radix c = true := by
  have other : c ≠ kelvinSign := by
    rintro rfl
    exact absurd read (by simp [show digit? kelvinSign = none by decide])
  have admits : admitted radix = radix := by
    rw [admitted, if_neg (by omega), Int.toNat_natCast]
    omega
  rw [passes, if_neg other, read, admits]
  exact decide_eq_true below

/-- The text has at least one character, and all of them are digits of the radix, letters in either
case. -/
structure IsNumeral (radix : Nat) (digits : List Char) : Prop where
  ne_nil : digits ≠ []
  own : ∀ c ∈ digits, ∃ d < radix, digit? c = some d

/-- A text has no sign unless it begins with one. -/
theorem splitSign_of_ne {c : Char} (minus : c ≠ '-') (plus : c ≠ '+') (cs : List Char) :
    splitSign (c :: cs) = (false, c :: cs) := by
  unfold splitSign
  split
  case h_1 heq => exact absurd (List.cons.inj heq).1 minus
  case h_2 heq => exact absurd (List.cons.inj heq).1 plus
  case h_3 => rfl

theorem IsNumeral.splitSign {radix : Nat} {digits : List Char} (h : IsNumeral radix digits) :
    Numeral.splitSign digits = (false, digits) := by
  obtain ⟨c, cs, rfl⟩ := List.exists_cons_of_ne_nil h.ne_nil
  obtain ⟨d, -, read⟩ := h.own c List.mem_cons_self
  have differs {sign : Char} (valueless : digit? sign = none) : c ≠ sign := by
    rintro rfl
    rw [valueless] at read
    cases read
  exact splitSign_of_ne (differs (by decide)) (differs (by decide)) cs

/-- A sign and digits of a radix, not too many unless all lengths are read, are the integer they stand for. -/
theorem readInteger_of_splitSign {radix : Nat} (hr : 1 < radix) (small : radix ≤ 36)
    {text digits : List Char} {negative : Bool} (split : Numeral.splitSign text = (negative, digits))
    (h : IsNumeral radix digits) (short : digits.length ≤ digitLimit ∨ isPowerOfTwo radix = true) :
    readInteger text radix =
      .ok (some (if negative then -(valueOf radix digits : Int) else valueOf radix digits)) := by
  have passing : digits.all (passes radix) = true := List.all_eq_true.mpr fun c hc => by
    obtain ⟨d, below, read⟩ := h.own c hc
    exact passes_of_digit? small read below
  have valued : digits.takeWhile (fun c => (digit? c).isSome) = digits := by
    refine List.takeWhile_eq_self_iff.mpr fun c hc => ?_
    obtain ⟨d, -, read⟩ := h.own c hc
    rw [read]
    rfl
  have filled : digits.isEmpty = false := List.isEmpty_eq_false_iff.mpr h.ne_nil
  have fine : (decide (digitLimit < digits.length) && !isPowerOfTwo radix) = false := by
    rcases short with length | power
    · rw [decide_eq_false (Nat.not_lt.mpr length), Bool.false_and]
    · rw [power, Bool.not_true, Bool.and_false]
  simp only [readInteger, split, passing, valued, filled, fine, Bool.not_true, Bool.or_self,
    Bool.false_eq_true, if_false, Nat.lt_irrefl, Int.toNat_natCast]
  rw [if_neg (by omega)]

theorem readInteger_of_isNumeral {radix : Nat} (hr : 1 < radix) (small : radix ≤ 36)
    {digits : List Char} (h : IsNumeral radix digits)
    (short : digits.length ≤ digitLimit ∨ isPowerOfTwo radix = true) :
    readInteger digits radix = .ok (some (valueOf radix digits)) :=
  readInteger_of_splitSign hr small h.splitSign h short

/-- A text with a character that passes for no digit is no integer. -/
theorem readInteger_of_not_passes {radix : Int} {text : List Char} {c : Char}
    (mem : c ∈ (splitSign text).2) (other : passes radix c = false) :
    readInteger text radix = .ok none := by
  have failing : (splitSign text).2.all (passes radix) = false :=
    List.all_eq_false.mpr ⟨c, mem, by rw [other]; exact Bool.false_ne_true⟩
  simp only [readInteger, failing, Bool.not_false, Bool.or_true, if_true]

end Numeral

end Reckoner
