import Reckoner.Proofs.Numeral.Real
import Reckoner.Value.Literal

/-!
# What numerals give

Digits without a sign stand for a natural number, and natural numbers find their home among the orders
without a sign: `IsUnsigned` names the narrower one, and above the wider one there is none at all
(`narrow?_of_le`, `narrow?_of_lt`).  A numeral in a marked base that finds no home cannot be read
(`readsMarked_ofRadix`).  A decimal one becomes a double, and so does every number with a point or an
exponent (`readsDecimal_ofDecimal`).
-/

namespace Reckoner

open Numeral (IsNumeral IsWhole Parts valueOf)

namespace Value

/-- The value is the natural number at the narrower order without a sign that holds it. -/
def IsUnsigned (n : Nat) (v : Value) : Prop :=
  ∃ fits, v = .int (if (n : Int) ≤ IntOrder.u64.high then .u64 else .u128) n fits

/-- The result is what digits in a marked base stand for, or the refusal of a number that is too large. -/
structure ReadsMarked (b : Base) (digits : List Char) (result : Except Fault Value) : Prop where
  numeral : IsNumeral b.radix digits
  small : (valueOf b.radix digits : Int) ≤ IntOrder.u128.high →
    ∃ v, result = .ok v ∧ v.IsUnsigned (valueOf b.radix digits)
  large : IntOrder.u128.high < (valueOf b.radix digits : Int) →
    result = .error (.calculation (.unreadable (String.ofList digits) (some b.radix)))

/-- The result is the integer that a decimal number is, or the double that the text freely stands for. -/
structure ReadsDecimal (text : List Char) (result : Except Fault Value) : Prop where
  integer : IsWhole text → (valueOf 10 text : Int) ≤ IntOrder.u128.high →
    IsNumeral 10 text ∧ ∃ v, result = .ok v ∧ v.IsUnsigned (valueOf 10 text)
  real : ¬ IsWhole text ∨ IntOrder.u128.high < (valueOf 10 text : Int) →
    ∃ x, Numeral.readLoosely text = some x ∧ result = .ok (.double x)

section Narrow

variable {n : Nat}

theorem narrow?_of_le (within : (n : Int) ≤ IntOrder.u128.high) :
    ∃ v, narrow? n = some v ∧ v.IsUnsigned n := by
  have least : (0 : Int) ≤ n := Int.natCast_nonneg n
  unfold narrow? IsUnsigned
  by_cases narrow : (n : Int) ≤ IntOrder.u64.high
  · have fits : IntOrder.u64.Fits n := ⟨least, narrow⟩
    rw [if_pos narrow]
    exact ⟨.int .u64 n fits, by simp [IntOrder.all, fits], fits, rfl⟩
  · have fits : IntOrder.u128.Fits n := ⟨least, within⟩
    have other : ¬ IntOrder.u64.Fits n := fun h => narrow h.2
    rw [if_neg narrow]
    exact ⟨.int .u128 n fits, by simp [IntOrder.all, fits, other], fits, rfl⟩

/-- The signed orders hold no more than the unsigned ones. -/
theorem narrow?_of_lt (beyond : IntOrder.u128.high < (n : Int)) : narrow? n = none := by
  have none (o : IntOrder) : ¬ o.Fits n := by
    intro fits
    have widest : o.high ≤ IntOrder.u128.high := by cases o <;> decide
    exact absurd (Int.le_trans fits.2 widest) (Int.not_le.mpr beyond)
  exact List.findSome?_eq_none_iff.mpr fun o _ => dif_neg (none o)

end Narrow

/-- A literal that begins with its marker is bare without it and the underscores behind it. -/
theorem bare_marked (b : Base) (run : List Char) :
    bare b ('0' :: b.marker :: run) = run.filter (· ≠ '_') := by
  have letter : b.marker ≠ '_' := by cases b <;> decide
  have kept : ('0' :: b.marker :: run).filter (· ≠ '_') = '0' :: b.marker :: run.filter (· ≠ '_') := by
    rw [List.filter_cons_of_pos (by decide), List.filter_cons_of_pos (by simpa using letter)]
  unfold bare
  rw [kept]
  exact if_pos rfl

/-- A literal without its marker keeps everything but underscores. -/
theorem bare_of_not_mem {b : Base} {text : List Char} (none : b.marker ∉ text) :
    bare b text = text.filter (· ≠ '_') := by
  unfold bare
  split
  case h_1 c rest kept =>
    rw [kept, if_neg]
    rintro rfl
    have mem : b.marker ∈ text.filter (· ≠ '_') := by
      rw [kept]
      exact List.mem_cons_of_mem _ List.mem_cons_self
    exact none (List.mem_filter.mp mem).1
  case h_2 => rfl

theorem readInteger?_of_isNumeral {b : Base} {digits : List Char} (h : IsNumeral b.radix digits)
    (short : digits.length ≤ Numeral.digitLimit ∨ Numeral.isPowerOfTwo b.radix = true) :
    readInteger? digits b.radix = .ok (narrow? (valueOf b.radix digits)) := by
  rw [readInteger?, Numeral.readInteger_of_isNumeral b.one_lt_radix (Nat.le_trans b.radix_le (by decide)) h
    short]
  rfl

theorem readsMarked_ofRadix {b : Base} {digits : List Char} (h : IsNumeral b.radix digits)
    (power : Numeral.isPowerOfTwo b.radix = true) : ReadsMarked b digits (ofRadix digits b.radix) := by
  have read := readInteger?_of_isNumeral h (.inr power)
  refine ⟨h, fun within => ?_, fun beyond => ?_⟩
  · obtain ⟨v, narrowed, unsigned⟩ := narrow?_of_le within
    refine ⟨v, ?_, unsigned⟩
    rw [ofRadix, read, narrowed]
    rfl
  · rw [ofRadix, read, narrow?_of_lt beyond]
    rfl

section Decimal

variable {whole point ending : List Char}

/-- What is no integer of an order is read as a real number. -/
theorem real_of_parts (h : Parts Text.isDigit whole point ending)
    (none : readInteger? (whole ++ (point ++ ending)) 10 = .ok none) :
    ∃ x, Numeral.readLoosely (whole ++ (point ++ ending)) = some x ∧
      ofDecimal (whole ++ (point ++ ending)) = .ok (.double x) := by
  obtain ⟨k, -, real⟩ := h.exists_readReal
  refine ⟨.ofDecimal false (valueOf 10 (whole ++ point.drop 1)) (k - (point.drop 1).length), ?_, ?_⟩
  · rw [Numeral.readLoosely_of_plain h.isPlain, real]
    rfl
  · unfold ofDecimal
    rw [none]
    simp only [bind, Except.bind, real]
    rfl

theorem readsDecimal_ofDecimal (h : Parts Text.isDigit whole point ending)
    (short : (whole ++ (point ++ ending)).countP Text.isDigit ≤ Numeral.digitLimit) :
    ReadsDecimal (whole ++ (point ++ ending)) (ofDecimal (whole ++ (point ++ ending))) := by
  have read (all : IsWhole (whole ++ (point ++ ending))) :
      readInteger? (whole ++ (point ++ ending)) 10 =
        .ok (narrow? (valueOf 10 (whole ++ (point ++ ending)))) := by
    obtain ⟨rfl, rfl⟩ := h.isWhole_iff.mp all
    rw [List.append_nil, List.append_nil] at short
    rw [List.countP_eq_length.mpr h.inWhole] at short
    refine readInteger?_of_isNumeral (b := .decimal) (h.isNumeral all) (.inl ?_)
    rwa [List.append_nil, List.append_nil]
  refine ⟨fun all within => ⟨h.isNumeral all, ?_⟩, fun other => real_of_parts h ?_⟩
  · obtain ⟨v, narrowed, unsigned⟩ := narrow?_of_le within
    refine ⟨v, ?_, unsigned⟩
    rw [ofDecimal, read all, narrowed]
    rfl
  · by_cases all : IsWhole (whole ++ (point ++ ending))
    · rw [read all, narrow?_of_lt (other.resolve_left (not_not_intro all))]
    · rw [readInteger?, h.readInteger_of_not_isWhole all]
      rfl

end Decimal

end Value

end Reckoner
