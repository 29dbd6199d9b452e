import Reckoner.Proofs.Numeral.Real
import Reckoner.Proofs.Token.Digits

/-!
# How numbers are written

`IsNumber` is the language of number tokens: a zero, a base marker and a run of digits of that base and
underscores; or a mantissa with an optional exponent, with underscores among the digits of the mantissa.  The
lengths by which the scanner measures a number cut one off the text (`isNumber_take`), wherever the text begins
with a digit, or with a point and a digit (`numberLength_pos_iff`).

`Shape` holds the parts of a decimal number, and forgets which digit comes first.  Leaving out the underscores
keeps the parts (`Parts.filter`).
-/

namespace Reckoner

open Numeral (IsPoint IsExponent Parts)

theorem Text.ascii_of_isDigit {c : Char} (h : Text.isDigit c = true) : c.toNat < 128 := by
  have := Text.isDigit_iff.mp h
  omega

namespace Number

/-! ## The language -/

/-- A digit with a run, a point and another run behind it; or a point, a digit and a run. -/
inductive IsMantissa : List Char → Prop where
  | whole {c : Char} {run point : List Char} (digit : Text.isDigit c = true)
      (own : ∀ d ∈ run, inRun d = true) (isPoint : IsPoint inRun point) : IsMantissa (c :: run ++ point)
  | places {c : Char} {run : List Char} (digit : Text.isDigit c = true)
      (own : ∀ d ∈ run, inRun d = true) : IsMantissa ('.' :: c :: run)

/-- The number tokens. -/
inductive IsNumber : List Char → Prop where
  | marked {marker : Char} {run : List Char} (goes : ∀ c ∈ run, goesOn marker c = true)
      (digit : ∃ c ∈ run, isDigitIn marker c = true) : IsNumber ('0' :: marker :: run)
  | decimal {mantissa ending : List Char} (first : IsMantissa mantissa) (last : IsExponent ending) :
      IsNumber (mantissa ++ ending)

/-- The text begins with a decimal digit, or with a point and a decimal digit. -/
def Begins (cs : List Char) : Prop :=
  ∃ c rest, Text.isDigit c = true ∧ (cs = c :: rest ∨ cs = '.' :: c :: rest)

/-- The two ways to write a number. -/
inductive Shape : List Char → Prop where
  | marked {marker : Char} {run : List Char} (goes : ∀ c ∈ run, goesOn marker c = true)
      (digit : ∃ c ∈ run, isDigitIn marker c = true) : Shape ('0' :: marker :: run)
  | decimal {whole point ending : List Char} (parts : Parts inRun whole point ending) :
      Shape (whole ++ (point ++ ending))

section Characters

variable {run : List Char} {c : Char}

theorem inRun_of_isDigit (digit : Text.isDigit c = true) : inRun c = true := by
  rw [inRun, digit, Bool.or_true]

theorem inRun_cons (digit : Text.isDigit c = true) (own : ∀ d ∈ run, inRun d = true) :
    ∀ d ∈ c :: run, inRun d = true := by
  intro d hd
  rcases List.mem_cons.mp hd with rfl | hd
  · exact inRun_of_isDigit digit
  · exact own d hd

/-- Numbers have one of the shapes. -/
theorem IsNumber.shape {cs : List Char} (h : IsNumber cs) : Shape cs := by
  cases h with
  | marked goes digit => exact .marked goes digit
  | @decimal mantissa ending first last =>
    cases first with
    | @whole c run point digit own isPoint =>
      rw [List.append_assoc]
      exact .decimal ⟨inRun_cons digit own, isPoint, last, c, List.mem_cons_self, digit⟩
    | @places c run digit own =>
      have parts : Parts inRun [] ('.' :: c :: run) ending :=
        ⟨fun _ mem => absurd mem List.not_mem_nil, .present (inRun_cons digit own), last, c, by simp, digit⟩
      exact .decimal parts

/-- Digits of a marked base are ASCII characters, and so are the markers of bases that have digits. -/
theorem ascii_of_isDigitIn {marker c : Char} (h : isDigitIn marker c = true) :
    marker.toNat < 128 ∧ c.toNat < 128 := by
  have below : ∀ {d : Char}, c ≤ d → d.toNat < 128 → c.toNat < 128 :=
    fun le lt => Nat.lt_of_le_of_lt le lt
  unfold isDigitIn at h
  split at h
  case h_1 =>
    simp only [Bool.or_eq_true, Bool.and_eq_true, decide_eq_true_eq] at h
    refine ⟨by decide, ?_⟩
    rcases h with (digit | small) | large
    · exact Text.ascii_of_isDigit digit
    · exact below small.2 (by decide)
    · exact below large.2 (by decide)
  case h_2 =>
    simp only [Bool.and_eq_true, decide_eq_true_eq] at h
    exact ⟨by decide, below h.2 (by decide)⟩
  case h_3 =>
    simp only [Bool.or_eq_true, decide_eq_true_eq] at h
    refine ⟨by decide, ?_⟩
    rcases h with rfl | rfl <;> decide
  case h_4 => exact ⟨by decide, Text.ascii_of_isDigit h⟩
  case h_5 => cases h

/-- Of whatever shape they are, numbers are made of ASCII characters. -/
theorem Shape.ascii {cs : List Char} (h : Shape cs) : Text.Ascii cs := by
  have underscore : '_'.toNat < 128 := by decide
  intro c hc
  cases h with
  | @marked marker run goes digit =>
    obtain ⟨d, -, known⟩ := digit
    rcases List.mem_cons.mp hc with rfl | hc
    · decide
    rcases List.mem_cons.mp hc with rfl | hc
    · exact (ascii_of_isDigitIn known).1
    · have own := goes c hc
      rw [goesOn, Bool.or_eq_true, decide_eq_true_eq] at own
      rcases own with rfl | own
      · exact underscore
      · exact (ascii_of_isDigitIn own).2
  | decimal parts =>
    rcases parts.isPlain_or c hc with own | plain
    · rw [inRun, Bool.or_eq_true, decide_eq_true_eq] at own
      rcases own with rfl | digit
      · exact underscore
      · exact Text.ascii_of_isDigit digit
    · exact plain.ascii

end Characters

/-! ## The parts that the lengths measure -/

theorem take_runLength (cs : List Char) : cs.take (runLength cs) = cs.takeWhile inRun :=
  (List.prefix_iff_eq_take.mp (List.takeWhile_prefix inRun)).symm

theorem isPoint_take (cs : List Char) : IsPoint inRun (cs.take (pointLength cs)) := by
  unfold pointLength
  split
  case h_1 rest =>
    rw [Nat.add_comm, List.take_succ_cons, take_runLength]
    exact .present fun c hc => List.mem_takeWhile_imp hc
  case h_2 => exact .absent

theorem take_signLength (cs : List Char) :
    cs.take (signLength cs) = [] ∨ cs.take (signLength cs) = ['+'] ∨ cs.take (signLength cs) = ['-'] := by
  unfold signLength
  split
  case h_1 c cs =>
    split
    case isTrue sign =>
      rw [Bool.or_eq_true, decide_eq_true_eq, decide_eq_true_eq] at sign
      rcases sign with rfl | rfl
      · exact .inr (.inl rfl)
      · exact .inr (.inr rfl)
    case isFalse => exact .inl rfl
  case h_2 => exact .inl rfl

/-- What is measured as an exponent to its end is one. -/
theorem isExponent_of_length {cs : List Char} (h : exponentLength cs = cs.length) : IsExponent cs := by
  cases cs with
  | nil => exact .absent
  | cons c cs =>
    rw [exponentLength_cons, List.length_cons] at h
    split at h
    case isFalse => exact absurd h (Nat.succ_ne_zero _).symm
    case isTrue found =>
      rw [Bool.and_eq_true, Bool.or_eq_true, decide_eq_true_eq, decide_eq_true_eq, decide_eq_true_eq] at found
      have sign := signLength_le_length cs
      have rest : (cs.drop (signLength cs)).length = cs.length - signLength cs := List.length_drop
      have whole : (cs.drop (signLength cs)).takeWhile Text.isDigit = cs.drop (signLength cs) := by
        refine (List.takeWhile_prefix _).eq_of_length ?_
        have digits : digitLength (cs.drop (signLength cs)) =
          ((cs.drop (signLength cs)).takeWhile Text.isDigit).length := rfl
        omega
      have filled : cs.drop (signLength cs) ≠ [] := by
        intro none
        rw [none] at found
        exact found.2 rfl
      rw [← List.take_append_drop (signLength cs) cs]
      exact .present found.1 (take_signLength cs) filled (List.takeWhile_eq_self_iff.mp whole)

section Measured

variable {cs : List Char}

/-- The characters that a mantissa measures are one. -/
theorem isMantissa_take (begins : Begins cs) :
    0 < mantissaLength cs ∧ IsMantissa (cs.take (mantissaLength cs)) := by
  obtain ⟨c, rest, digit, rfl | rfl⟩ := begins
  · have first : beginsWithDigit (c :: rest) = true := digit
    have some := runLength_pos first
    rw [mantissaLength_of_digit first]
    refine ⟨by omega, ?_⟩
    rw [List.take_add, take_runLength, List.takeWhile_cons_of_pos (inRun_of_isDigit digit)]
    exact .whole digit (fun d hd => List.mem_takeWhile_imp hd) (isPoint_take _)
  · have first : beginsWithDigit ('.' :: c :: rest) = false := rfl
    have behind : beginsWithDigit (('.' :: c :: rest).drop 1) = true := digit
    have length : pointLength ('.' :: c :: rest) = runLength (c :: rest) + 1 := Nat.add_comm ..
    rw [mantissaLength_of_not_digit first, if_pos behind, length]
    refine ⟨Nat.succ_pos _, ?_⟩
    rw [List.take_succ_cons, take_runLength, List.takeWhile_cons_of_pos (inRun_of_isDigit digit)]
    exact .places digit fun d hd => List.mem_takeWhile_imp hd

/-- The characters that an exponent measures are one. -/
theorem isExponent_take (cs : List Char) : IsExponent (cs.take (exponentLength cs)) := by
  refine isExponent_of_length ?_
  rw [exponentLength_take (Nat.le_refl _), List.length_take_of_le (exponentLength_le_length cs)]

theorem isNumber_take (begins : Begins cs) :
    0 < numberLength cs ∧ IsNumber (cs.take (numberLength cs)) := by
  cases marked : markedLength? cs with
  | some n =>
    rw [numberLength_of_marked marked]
    obtain ⟨marker, ds, rfl, digit, rfl⟩ := markedLength?_eq_some marked
    refine ⟨by omega, ?_⟩
    rw [Nat.add_comm, List.take_succ_cons, List.take_succ_cons,
      ← List.prefix_iff_eq_take.mp (List.takeWhile_prefix (goesOn marker))]
    exact .marked (fun c hc => List.mem_takeWhile_imp hc) (List.any_eq_true.mp digit)
  | none =>
    obtain ⟨some, mantissa⟩ := isMantissa_take begins
    rw [numberLength_of_unmarked marked, if_neg (Nat.ne_of_gt some), List.take_add]
    exact ⟨by omega, .decimal mantissa (isExponent_take _)⟩

/-- Only a text that begins with a digit, or with a point and a digit, begins with a number. -/
theorem numberLength_pos_iff : 0 < numberLength cs ↔ Begins cs := by
  constructor
  · intro some
    cases marked : markedLength? cs with
    | some n =>
      obtain ⟨marker, ds, rfl, -, -⟩ := markedLength?_eq_some marked
      exact ⟨'0', marker :: ds, rfl, Or.inl rfl⟩
    | none =>
      have mantissa : mantissaLength cs ≠ 0 := by
        intro none
        rw [numberLength_of_unmarked marked, if_pos none] at some
        cases some
      match cs with
      | [] => exact absurd rfl mantissa
      | c :: rest =>
        cases digit : Text.isDigit c with
        | true => exact ⟨c, rest, digit, Or.inl rfl⟩
        | false =>
          have begins : beginsWithDigit (c :: rest) = false := digit
          rw [mantissaLength_of_not_digit begins, List.drop_succ_cons, List.drop_zero] at mantissa
          split at mantissa
          case isFalse => exact absurd rfl mantissa
          case isTrue behind =>
            obtain rfl : c = '.' := by
              by_contra other
              exact mantissa (pointLength_of_ne other rest)
            obtain ⟨d, ds, rfl⟩ : ∃ d ds, rest = d :: ds := by
              refine List.exists_cons_of_ne_nil ?_
              rintro rfl
              cases behind
            exact ⟨d, ds, behind, Or.inr rfl⟩
  · intro begins
    exact (isNumber_take begins).1

/-- No other text begins with a number. -/
theorem numberLength_eq_zero (h : ¬ Begins cs) : numberLength cs = 0 :=
  Nat.eq_zero_of_not_pos fun some => h (numberLength_pos_iff.mp some)

end Measured

/-! ## Leaving out underscores -/

/-- Without its underscores a run is made of digits. -/
theorem isDigit_of_mem_filter {run : List Char} (own : ∀ c ∈ run, inRun c = true) :
    ∀ c ∈ run.filter (· ≠ '_'), Text.isDigit c = true := by
  intro c hc
  obtain ⟨mem, other⟩ := List.mem_filter.mp hc
  have inside := own c mem
  rw [inRun, Bool.or_eq_true, decide_eq_true_eq] at inside
  exact inside.resolve_left (of_decide_eq_true other)

/-- Digits stay when underscores are left out. -/
theorem mem_filter_of_isDigit {c : Char} {cs : List Char} (mem : c ∈ cs) (digit : Text.isDigit c = true) :
    c ∈ cs.filter (· ≠ '_') := by
  refine List.mem_filter.mpr ⟨mem, decide_eq_true ?_⟩
  rintro rfl
  exact absurd digit (by decide)

end Number

/-- The parts of a number without their underscores are parts; the exponent has none. -/
theorem Numeral.Parts.filter {whole point ending : List Char} (h : Parts Number.inRun whole point ending) :
    Parts Text.isDigit (whole.filter (· ≠ '_')) (point.filter (· ≠ '_')) ending ∧
      (whole ++ (point ++ ending)).filter (· ≠ '_') =
        whole.filter (· ≠ '_') ++ (point.filter (· ≠ '_') ++ ending) := by
  have kept : ending.filter (· ≠ '_') = ending := List.filter_eq_self.mpr fun c hc => by
    have plain := h.isExponent.isPlain c hc
    refine decide_eq_true ?_
    rintro rfl
    exact absurd plain (by decide)
  refine ⟨⟨Number.isDigit_of_mem_filter h.inWhole, ?_, h.isExponent, ?_⟩, ?_⟩
  · cases h.isPoint with
    | absent => exact .absent
    | present own =>
      rw [List.filter_cons_of_pos (by decide)]
      exact .present (Number.isDigit_of_mem_filter own)
  · obtain ⟨c, hc, digit⟩ := h.digit
    rw [← List.filter_append]
    exact ⟨c, Number.mem_filter_of_isDigit hc digit, digit⟩
  · rw [List.filter_append, List.filter_append, kept]

end Reckoner
