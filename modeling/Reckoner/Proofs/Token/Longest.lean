import Reckoner.Proofs.Token.Shapes

/-!
# The longest number

The lengths by which the scanner measures a number cut one off the text, and no beginning of the text that is a
number is longer (`longest_numberLength`).  The first choice of the scanner is the longest one for two reasons.
A marker is no character of a mantissa and begins no exponent, so that a marked numeral leaves only its zero to
the other form (`length_eq_one_of_marked`); and the letter of an exponent is no character of a mantissa, so that
a mantissa before an exponent is measured in full (`mantissaLength_append`).

So a text is a number just if it is one from its first character to its last (`isNumber_iff`).
-/

namespace Reckoner

open Numeral (IsPoint IsExponent)

namespace Number

/-- The beginning of the text of this length is a number, and none of its beginnings that are is longer. -/
structure Longest (cs : List Char) (k : Nat) : Prop where
  pos : 0 < k
  within : k ≤ cs.length
  isNumber : IsNumber (cs.take k)
  longest : ∀ p, p <+: cs → IsNumber p → p.length ≤ k

section Parts

variable {cs rest run point ending mantissa : List Char}

/-- The text does not go on with a character of a mantissa. -/
def Stops (cs : List Char) : Prop := ∀ c ∈ cs.head?, inRun c = false ∧ c ≠ '.'

theorem runLength_append (own : ∀ c ∈ run, inRun c = true) (rest : List Char) :
    runLength (run ++ rest) = run.length + runLength rest := by
  have whole : (run ++ rest).takeWhile inRun = run ++ rest.takeWhile inRun :=
    List.takeWhile_append_of_pos own
  exact (congrArg List.length whole).trans List.length_append

theorem Stops.runLength_eq (h : Stops rest) : runLength rest = 0 := by
  cases rest with
  | nil => rfl
  | cons c cs =>
    have outside : ¬ inRun c = true := by simp [(h c rfl).1]
    exact congrArg List.length (List.takeWhile_cons_of_neg outside)

theorem Stops.pointLength_eq (h : Stops rest) : pointLength rest = 0 := by
  cases rest with
  | nil => rfl
  | cons c cs => exact pointLength_of_ne (h c rfl).2 cs

/-- A mantissa at the beginning of a text is measured, in full and no further if no character of a mantissa
follows. -/
theorem mantissaLength_append (h : IsMantissa mantissa) (rest : List Char) :
    mantissa.length ≤ mantissaLength (mantissa ++ rest) ∧
      (Stops rest → mantissaLength (mantissa ++ rest) = mantissa.length) := by
  cases h with
  | @whole c run point digit own isPoint =>
    have begins : beginsWithDigit (c :: run ++ point ++ rest) = true := digit
    rw [mantissaLength_of_digit begins, List.append_assoc, runLength_append (inRun_cons digit own)]
    cases isPoint with
    | absent =>
      rw [List.nil_append, List.append_nil]
      refine ⟨by omega, ?_⟩
      intro stops
      rw [stops.runLength_eq, Nat.add_zero, List.drop_left, stops.pointLength_eq, Nat.add_zero]
    | @present places inside =>
      have none : runLength ('.' :: places ++ rest) = 0 := rfl
      have length : pointLength ('.' :: places ++ rest) = 1 + (places.length + runLength rest) :=
        congrArg (1 + ·) (runLength_append inside rest)
      rw [none, Nat.add_zero, List.drop_left, length, List.length_append, List.length_cons (a := '.')]
      refine ⟨by omega, ?_⟩
      intro stops
      rw [stops.runLength_eq]
      omega
  | @places c run digit own =>
    have begins : beginsWithDigit ('.' :: c :: run ++ rest) = false := rfl
    have behind : beginsWithDigit (('.' :: c :: run ++ rest).drop 1) = true := digit
    have length : pointLength ('.' :: c :: run ++ rest) = 1 + ((c :: run).length + runLength rest) :=
      congrArg (1 + ·) (runLength_append (inRun_cons digit own) rest)
    rw [mantissaLength_of_not_digit begins, if_pos behind, length, List.length_cons (a := '.')]
    refine ⟨by omega, ?_⟩
    intro stops
    rw [stops.runLength_eq]
    omega

/-- An exponent at the beginning of a text is measured. -/
theorem exponentLength_append (h : IsExponent ending) (rest : List Char) :
    ending.length ≤ exponentLength (ending ++ rest) := by
  cases h with
  | absent => exact Nat.zero_le _
  | @present letter sign digits mark signs ne decimal =>
    have signed : signLength (sign ++ (digits ++ rest)) = sign.length := by
      rcases signs with rfl | rfl | rfl
      · obtain ⟨d, ds, rfl⟩ := List.exists_cons_of_ne_nil ne
        have digit := decimal d List.mem_cons_self
        have other : ¬ (d = '+' || d = '-') = true := by
          rw [Bool.or_eq_true, decide_eq_true_eq, decide_eq_true_eq]
          rintro (rfl | rfl) <;> exact absurd digit (by decide)
        exact if_neg other
      · rfl
      · rfl
    have length : digitLength (digits ++ rest) = digits.length + digitLength rest :=
      (congrArg List.length (List.takeWhile_append_of_pos decimal)).trans List.length_append
    have some : 0 < digits.length := List.length_pos_iff.mpr ne
    have found : ((letter = 'e' || letter = 'E') && digits.length + digitLength rest ≠ 0) = true := by
      rw [Bool.and_eq_true, Bool.or_eq_true, decide_eq_true_eq, decide_eq_true_eq, decide_eq_true_eq]
      exact ⟨mark, by omega⟩
    rw [List.cons_append, List.append_assoc, exponentLength_cons, signed, List.drop_left, length, if_pos found,
      List.length_cons, List.length_append]
    omega

theorem IsMantissa.length_pos (h : IsMantissa mantissa) : 0 < mantissa.length := by
  cases h with
  | whole => exact Nat.succ_pos _
  | places => exact Nat.succ_pos _

theorem IsNumber.length_pos (h : IsNumber cs) : 0 < cs.length := by
  cases h with
  | marked => exact Nat.succ_pos _
  | decimal first =>
    rw [List.length_append]
    exact Nat.add_pos_left first.length_pos _

/-- No mantissa goes on with an exponent. -/
theorem stops_of_isExponent (h : IsExponent ending) (ne : ending ≠ []) (rest : List Char) :
    Stops (ending ++ rest) := by
  intro c hc
  cases h with
  | absent => exact absurd rfl ne
  | present mark =>
    obtain rfl := Option.some.inj hc
    rcases mark with rfl | rfl <;> decide

/-- No character of a run is a base marker. -/
theorem isDigitIn_of_inRun {marker : Char} (h : inRun marker = true) (c : Char) :
    isDigitIn marker c = false := by
  unfold isDigitIn
  split
  case h_5 => rfl
  all_goals exact absurd h (by decide)

/-- A base marker is no character of a mantissa and begins no exponent. -/
theorem not_marker {marker d : Char} (known : isDigitIn marker d = true) :
    inRun marker = false ∧ marker ≠ '.' ∧ ¬ (marker = 'e' ∨ marker = 'E') := by
  refine ⟨?_, ?_, ?_⟩
  · by_contra inside
    rw [Bool.not_eq_false] at inside
    rw [isDigitIn_of_inRun inside] at known
    cases known
  · rintro rfl
    cases known
  · rintro (rfl | rfl) <;> cases known

/-- Of a text with a base marker only the zero is a number without one. -/
theorem length_eq_one_of_marked {marker d : Char} {ds : List Char} (first : IsMantissa mantissa)
    (last : IsExponent ending) (known : isDigitIn marker d = true)
    (cut : mantissa ++ ending ++ rest = '0' :: marker :: ds) : (mantissa ++ ending).length = 1 := by
  obtain ⟨outside, point, letter⟩ := not_marker known
  cases first with
  | places => cases cut
  | @whole c run point' digit own isPoint =>
    have behind : run ++ (point' ++ (ending ++ rest)) = marker :: ds := by
      simpa using congrArg List.tail cut
    cases run with
    | cons r run =>
      obtain rfl := (List.cons.inj behind).1
      rw [own r List.mem_cons_self] at outside
      cases outside
    | nil =>
      cases isPoint with
      | present => exact absurd (List.cons.inj behind).1.symm point
      | absent =>
        cases last with
        | absent => rfl
        | present mark => exact absurd ((List.cons.inj behind).1 ▸ mark) letter

/-- A number at the beginning of a text is not longer than what is measured. -/
theorem le_numberLength {p : List Char} (h : IsNumber p) (rest : List Char) :
    p.length ≤ numberLength (p ++ rest) := by
  cases h with
  | @marked marker run goes digit =>
    have run' : (run ++ rest).takeWhile (goesOn marker) = run ++ rest.takeWhile (goesOn marker) :=
      List.takeWhile_append_of_pos goes
    have found : ((run ++ rest).takeWhile (goesOn marker)).any (isDigitIn marker) = true := by
      rw [run', List.any_append, List.any_eq_true.mpr digit, Bool.true_or]
    have length : markedLength? ('0' :: marker :: run ++ rest) =
        some (2 + (run.length + (rest.takeWhile (goesOn marker)).length)) := by
      rw [List.cons_append, List.cons_append, markedLength?_zero_cons, if_pos found, run', List.length_append]
    rw [numberLength_of_marked length, List.length_cons, List.length_cons]
    omega
  | @decimal mantissa ending first last =>
    cases marked : markedLength? (mantissa ++ ending ++ rest) with
    | some n =>
      obtain ⟨marker, ds, cut, digit, rfl⟩ := markedLength?_eq_some marked
      obtain ⟨d, -, known⟩ := List.any_eq_true.mp digit
      rw [numberLength_of_marked marked, length_eq_one_of_marked first last known cut]
      omega
    | none =>
      obtain ⟨least, exact⟩ := mantissaLength_append first (ending ++ rest)
      have some := first.length_pos
      rw [numberLength_of_unmarked marked, List.append_assoc, if_neg (by omega), List.length_append]
      by_cases none : ending = []
      · rw [none, List.length_nil]
        rw [none] at least
        omega
      · have exponent := exponentLength_append last rest
        rw [exact (stops_of_isExponent last none rest), List.drop_left]
        omega

/-- The longest number at the beginning of a text is measured. -/
theorem longest_numberLength (begins : Begins cs) : Longest cs (numberLength cs) := by
  obtain ⟨some, isNumber⟩ := isNumber_take begins
  refine ⟨some, numberLength_le_length cs, isNumber, ?_⟩
  rintro p ⟨rest, rfl⟩ number
  exact le_numberLength number rest

example : ["0x_", "0b12", "1e+", "1._e5"].map (fun text => numberLength text.toList) = [1, 3, 1, 5] := by
  decide +kernel

/-- A text is a number just if it is measured as one to its end. -/
theorem isNumber_iff : IsNumber cs ↔ cs ≠ [] ∧ numberLength cs = cs.length := by
  constructor
  · intro number
    have least := le_numberLength number []
    rw [List.append_nil] at least
    have most := numberLength_le_length cs
    exact ⟨List.length_pos_iff.mp number.length_pos, Nat.le_antisymm most least⟩
  · rintro ⟨ne, whole⟩
    have some : 0 < numberLength cs := by
      rw [whole]
      exact List.length_pos_iff.mpr ne
    have number := (isNumber_take (numberLength_pos_iff.mp some)).2
    rwa [whole, List.take_length] at number

end Parts

end Number

end Reckoner
