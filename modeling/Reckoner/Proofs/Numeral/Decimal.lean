import Mathlib.Data.List.Induction
import Reckoner.Numeral.Integer

/-!
# Decimal digits and what they stand for

Writing a natural number in decimal digits and reading it back gives the number again
(`readDecimal_toDigits`).  Reading digits and writing the number that they stand for gives the digits
without their leading zeros (`toDigits_valueOf`); `trimZeros` leaves the last zero of a row of zeros.
-/

namespace Reckoner

theorem Text.isDigit_iff_le {c : Char} : Text.isDigit c = true ↔ '0' ≤ c ∧ c ≤ '9' := by
  simp [Text.isDigit]

/-- The code points of the ten digits. -/
theorem Text.isDigit_iff {c : Char} : Text.isDigit c = true ↔ 48 ≤ c.toNat ∧ c.toNat ≤ 57 := by
  simp only [Text.isDigit, Bool.and_eq_true, decide_eq_true_eq, Char.le_def,
    UInt32.le_iff_toNat_le]
  exact Iff.rfl

namespace Numeral

/-- The digits without leading zeros; of zeros alone the last one is kept. -/
def trimZeros : List Char → List Char
  | '0' :: c :: cs => trimZeros (c :: cs)
  | cs => cs

theorem trimZeros_of_ne {c : Char} (h : c ≠ '0') (cs : List Char) :
    trimZeros (c :: cs) = c :: cs := by
  unfold trimZeros
  split
  case h_1 heq => exact absurd (List.cons.inj heq).1 h
  case h_2 => rfl

theorem length_trimZeros_le (cs : List Char) : (trimZeros cs).length ≤ cs.length := by
  induction cs using trimZeros.induct with
  | case1 c cs ih => exact Nat.le_succ_of_le ih
  | case2 cs other => exact Nat.le_of_eq (congrArg List.length (trimZeros.eq_2 cs other))

/-- The digit of the value of a digit is the digit. -/
theorem digitChar_of_isDigit {c : Char} (h : Text.isDigit c = true) :
    Nat.digitChar (c.toNat - 48) = c := by
  have range := Text.isDigit_iff.mp h
  apply Char.toNat_inj.mp
  rw [Nat.toNat_digitChar_of_lt_ten (by omega)]
  omega

/-- The digits of a natural number are decimal digits. -/
theorem isDigit_of_mem_toDigits {n : Nat} {c : Char} (h : c ∈ Nat.toDigits 10 n) :
    Text.isDigit c = true := by
  have digit : c.isDigit = true := Nat.isDigit_of_mem_toDigits (by decide) (by decide) h
  rw [Char.isDigit_iff_toNat] at digit
  exact Text.isDigit_iff.mpr digit

/-- Decimal digits stand for what the standard library reads in them. -/
theorem valueOf_eq_ofDigitChars {cs : List Char} (h : ∀ c ∈ cs, Text.isDigit c = true) :
    valueOf 10 cs = Nat.ofDigitChars 10 cs 0 := by
  have from_start : ∀ start : Nat,
      cs.foldl (fun n c => n * 10 + (digit? c).getD 0) start = Nat.ofDigitChars 10 cs start := by
    induction cs with
    | nil => exact fun _ => rfl
    | cons c cs ih =>
      intro start
      have digit : (digit? c).getD 0 = c.toNat - 48 := by
        rw [digit?, if_pos (h c List.mem_cons_self)]
        rfl
      rw [List.foldl_cons, ih fun d hd => h d (List.mem_cons_of_mem _ hd), Nat.ofDigitChars_cons,
        digit, Nat.mul_comm]
      rfl
  exact from_start 0

theorem readDecimal_toDigits {n : Nat} (h : (Nat.toDigits 10 n).length ≤ digitLimit) :
    readDecimal (Nat.toDigits 10 n) = .ok n := by
  rw [readDecimal, if_neg (Nat.not_lt.mpr h),
    valueOf_eq_ofDigitChars fun _ => isDigit_of_mem_toDigits, Nat.ofDigitChars_ten_toDigits]

/-- Digits that do not begin with a zero are those of the number they stand for. -/
theorem toDigits_ofDigitChars {c : Char} (hc : Text.isDigit c = true) (nonzero : c ≠ '0')
    {cs : List Char} (h : ∀ d ∈ cs, Text.isDigit d = true) :
    0 < Nat.ofDigitChars 10 (c :: cs) 0 ∧
      Nat.toDigits 10 (Nat.ofDigitChars 10 (c :: cs) 0) = c :: cs := by
  -- The last digit is the last one written, so the digits are taken off from the right.
  induction cs using List.reverseRecOn with
  | nil =>
    have range := Text.isDigit_iff.mp hc
    have value : Nat.ofDigitChars 10 [c] 0 = c.toNat - 48 := by
      rw [Nat.ofDigitChars_cons, Nat.ofDigitChars_nil]
      simp
    have positive : c.toNat ≠ 48 := fun zero => nonzero (Char.toNat_inj.mp zero)
    rw [value]
    refine ⟨by omega, ?_⟩
    rw [Nat.toDigits_of_lt_base (by omega), digitChar_of_isDigit hc]
  | append_singleton cs d ih =>
    have range := Text.isDigit_iff.mp (h d (by simp))
    obtain ⟨positive, digits⟩ := ih fun e he => h e (List.mem_append_left _ he)
    have value : Nat.ofDigitChars 10 (c :: (cs ++ [d])) 0 =
        10 * Nat.ofDigitChars 10 (c :: cs) 0 + (d.toNat - 48) := by
      rw [← List.cons_append, Nat.ofDigitChars_append, Nat.ofDigitChars_cons, Nat.ofDigitChars_nil]
      rfl
    rw [value]
    refine ⟨by omega, ?_⟩
    rw [← Nat.toDigits_append_toDigits (by decide) positive (by omega), digits,
      Nat.toDigits_of_lt_base (by omega), digitChar_of_isDigit (h d (by simp)), List.cons_append]

theorem toDigits_valueOf {cs : List Char} (h : ∀ c ∈ cs, Text.isDigit c = true) (ne : cs ≠ []) :
    Nat.toDigits 10 (valueOf 10 cs) = trimZeros cs := by
  rw [valueOf_eq_ofDigitChars h]
  induction cs with
  | nil => exact absurd rfl ne
  | cons c cs ih =>
    have later : ∀ d ∈ cs, Text.isDigit d = true := fun d hd => h d (List.mem_cons_of_mem _ hd)
    by_cases hc : c = '0'
    · subst hc
      cases cs with
      | nil => decide
      | cons d cs => exact ih later (List.cons_ne_nil d cs)
    · rw [trimZeros_of_ne hc]
      exact (toDigits_ofDigitChars (h c List.mem_cons_self) hc later).2

end Numeral

end Reckoner
