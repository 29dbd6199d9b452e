import Mathlib.Data.List.Find
import Reckoner.Proofs.Text.Classes

/-!
# Where tokens end

`lexeme` looks at a text from its beginning and stops of its own accord.  Two facts make the token it
finds independent of what follows.

A blank ends every token: appending a blank and anything after it changes nothing
(`lexeme_append_of_breaks`).  And a token reads as itself when it is cut out: a text whose lexeme ends
within its first `n` characters has the same lexeme when it is cut off there (`lexeme_take`).  The
second fact is not immediate for numbers, where a base marker without digits and an exponent without
digits are given up again: the cut must not turn a given-up beginning into an accepted one.
-/

namespace Reckoner

/-- The text is over or goes on with a blank. -/
def Text.Breaks : List Char → Prop
  | [] => True
  | c :: _ => Text.isBlank c = true

namespace Number

/-! ## The parts of a number -/

/-- The length of a point and the run after it, zero if the text does not begin with a point. -/
def pointLength : List Char → Nat
  | '.' :: rest => 1 + runLength rest
  | _ => 0

/-- The length of the sign of an exponent. -/
def signLength : List Char → Nat
  | c :: _ => if c = '+' || c = '-' then 1 else 0
  | [] => 0

/-- The length of the decimal digits at the beginning of a text. -/
def digitLength (cs : List Char) : Nat := (cs.takeWhile Text.isDigit).length

/-- The characters that may stand after a base marker. -/
def goesOn (marker c : Char) : Bool := c = '_' || isDigitIn marker c

theorem pointLength_of_ne {c : Char} (h : c ≠ '.') (cs : List Char) : pointLength (c :: cs) = 0 := by
  unfold pointLength
  split
  case h_1 heq => exact absurd (List.cons.inj heq).1 h
  case h_2 => rfl

/-- A text that does not begin with a zero has no base marker. -/
theorem markedLength?_of_ne {c : Char} (h : c ≠ '0') (cs : List Char) :
    markedLength? (c :: cs) = none := by
  unfold markedLength?
  split
  case h_1 heq => exact absurd (List.cons.inj heq).1 h
  case h_2 => rfl

theorem markedLength?_zero_cons (marker : Char) (cs : List Char) :
    markedLength? ('0' :: marker :: cs) =
      if (cs.takeWhile (goesOn marker)).any (isDigitIn marker) then
        some (2 + (cs.takeWhile (goesOn marker)).length)
      else none := rfl

theorem numberLength_of_marked {cs : List Char} {n : Nat} (h : markedLength? cs = some n) :
    numberLength cs = n := by
  unfold numberLength
  rw [h]

theorem numberLength_of_unmarked {cs : List Char} (h : markedLength? cs = none) :
    numberLength cs = if mantissaLength cs = 0 then 0
      else mantissaLength cs + exponentLength (cs.drop (mantissaLength cs)) := by
  unfold numberLength
  rw [h]

theorem runLength_le_length (cs : List Char) : runLength cs ≤ cs.length :=
  (List.takeWhile_prefix _).length_le

theorem pointLength_le_length (cs : List Char) : pointLength cs ≤ cs.length := by
  unfold pointLength
  split
  case h_1 rest =>
    have := runLength_le_length rest
    simp only [List.length_cons]
    omega
  case h_2 => exact Nat.zero_le _

theorem signLength_le_length (cs : List Char) : signLength cs ≤ cs.length := by
  cases cs with
  | nil => exact Nat.le_refl _
  | cons c cs =>
    simp only [signLength, List.length_cons]
    split <;> omega

theorem mantissaLength_of_digit {cs : List Char} (h : beginsWithDigit cs = true) :
    mantissaLength cs = runLength cs + pointLength (cs.drop (runLength cs)) := by
  simp only [mantissaLength, h, if_true]
  split
  case h_1 heq => rw [heq]; exact Nat.add_assoc ..
  case h_2 hne =>
    cases hd : cs.drop (runLength cs) with
    | nil => rfl
    | cons c ds => rw [pointLength_of_ne (fun hc => hne ds (by rw [hd, hc]))]; rfl

theorem mantissaLength_of_not_digit {cs : List Char} (h : beginsWithDigit cs = false) :
    mantissaLength cs = if beginsWithDigit (cs.drop 1) then pointLength cs else 0 := by
  unfold mantissaLength
  rw [if_neg (by rw [h]; exact Bool.false_ne_true)]
  cases cs with
  | nil => rfl
  | cons c ds =>
    by_cases hc : c = '.'
    · subst hc; rfl
    · rw [pointLength_of_ne hc, ite_self]
      split
      case h_1 heq => exact absurd (List.cons.inj heq).1 hc
      case h_2 => rfl

theorem mantissaLength_le_length (cs : List Char) : mantissaLength cs ≤ cs.length := by
  cases hd : beginsWithDigit cs with
  | true =>
    have run := runLength_le_length cs
    have point := pointLength_le_length (cs.drop (runLength cs))
    rw [mantissaLength_of_digit hd]
    rw [List.length_drop] at point
    omega
  | false =>
    have point := pointLength_le_length cs
    rw [mantissaLength_of_not_digit hd]
    split <;> omega

theorem exponentLength_cons (c : Char) (cs : List Char) :
    exponentLength (c :: cs) =
      if (c = 'e' || c = 'E') && digitLength (cs.drop (signLength cs)) ≠ 0 then
        1 + signLength cs + digitLength (cs.drop (signLength cs))
      else 0 := by
  have nested : exponentLength (c :: cs) =
      if c = 'e' || c = 'E' then
        if digitLength (cs.drop (signLength cs)) = 0 then 0
        else 1 + signLength cs + digitLength (cs.drop (signLength cs))
      else 0 := by
    cases cs <;> rfl
  rw [nested]
  by_cases digits : digitLength (cs.drop (signLength cs)) = 0 <;> simp [digits]

end Number

/-! ## A blank ends every token -/

section Append

variable {rest : List Char}

/-- A run of characters among which there is no blank ends before a blank. -/
theorem takeWhile_append_of_breaks {p : Char → Bool}
    (hp : ∀ c, Text.isBlank c = true → p c = false) (hr : Text.Breaks rest) (cs : List Char) :
    (cs ++ rest).takeWhile p = cs.takeWhile p := by
  have none : rest.takeWhile p = [] := by
    cases rest with
    | nil => rfl
    | cons c _ => simp [hp c hr]
  rw [List.takeWhile_append, none]
  split
  case isTrue whole => rw [List.append_nil, (List.takeWhile_prefix p).eq_of_length whole]
  case isFalse => rfl

namespace Number

theorem beginsWithDigit_append_of_breaks (hr : Text.Breaks rest) (cs : List Char) :
    beginsWithDigit (cs ++ rest) = beginsWithDigit cs := by
  cases cs with
  | cons => rfl
  | nil =>
    cases rest with
    | nil => rfl
    | cons c _ => exact Text.isDigit_of_isBlank hr

theorem runLength_append_of_breaks (hr : Text.Breaks rest) (cs : List Char) :
    runLength (cs ++ rest) = runLength cs := by
  unfold runLength
  rw [takeWhile_append_of_breaks _ hr]
  intro c hc
  simp [Text.ne_of_isBlank hc (show Text.isBlank '_' = false by decide), Text.isDigit_of_isBlank hc]

/-- A blank is no base marker. -/
theorem isDigitIn_blank {marker : Char} (h : Text.isBlank marker = true) (c : Char) :
    isDigitIn marker c = false := by
  unfold isDigitIn
  split
  case h_5 => rfl
  all_goals exact absurd h (by decide)

theorem signLength_append_of_breaks (hr : Text.Breaks rest) (cs : List Char) :
    signLength (cs ++ rest) = signLength cs := by
  cases cs with
  | cons => rfl
  | nil =>
    cases rest with
    | nil => rfl
    | cons b bs =>
      have plus : b ≠ '+' := Text.ne_of_isBlank hr (by decide)
      have minus : b ≠ '-' := Text.ne_of_isBlank hr (by decide)
      simp [signLength, plus, minus]

theorem markedLength?_append_of_breaks (hr : Text.Breaks rest) (cs : List Char) :
    markedLength? (cs ++ rest) = markedLength? cs := by
  match cs with
  | [] =>
    cases rest with
    | nil => rfl
    | cons c _ => exact markedLength?_of_ne (Text.ne_of_isBlank hr (by decide)) _
  | [c] =>
    by_cases hc : c = '0'
    · subst hc
      cases rest with
      | nil => rfl
      | cons b bs =>
        change markedLength? ('0' :: b :: bs) = none
        simp [markedLength?_zero_cons, isDigitIn_blank hr]
    · exact (markedLength?_of_ne hc _).trans (markedLength?_of_ne hc _).symm
  | c :: m :: cs =>
    by_cases hc : c = '0'
    · subst hc
      have digits : (cs ++ rest).takeWhile (fun d => d = '_' || isDigitIn m d) =
          cs.takeWhile (fun d => d = '_' || isDigitIn m d) := by
        refine takeWhile_append_of_breaks (fun d hd => ?_) hr cs
        simp [Text.ne_of_isBlank hd (show Text.isBlank '_' = false by decide),
          isDigitIn_of_isBlank m hd]
      simp only [List.cons_append, markedLength?, digits]
    · exact (markedLength?_of_ne hc _).trans (markedLength?_of_ne hc _).symm

theorem pointLength_append_of_breaks (hr : Text.Breaks rest) (cs : List Char) :
    pointLength (cs ++ rest) = pointLength cs := by
  cases cs with
  | nil =>
    cases rest with
    | nil => rfl
    | cons c _ => exact pointLength_of_ne (Text.ne_of_isBlank hr (by decide)) _
  | cons c cs =>
    by_cases hc : c = '.'
    · subst hc
      exact congrArg (1 + ·) (runLength_append_of_breaks hr cs)
    · exact (pointLength_of_ne hc _).trans (pointLength_of_ne hc _).symm

theorem mantissaLength_append_of_breaks (hr : Text.Breaks rest) (cs : List Char) :
    mantissaLength (cs ++ rest) = mantissaLength cs := by
  have begins := beginsWithDigit_append_of_breaks hr cs
  cases hd : beginsWithDigit cs with
  | true =>
    rw [mantissaLength_of_digit hd, mantissaLength_of_digit (begins.trans hd),
      runLength_append_of_breaks hr, List.drop_append_of_le_length (runLength_le_length cs),
      pointLength_append_of_breaks hr]
  | false =>
    rw [mantissaLength_of_not_digit hd, mantissaLength_of_not_digit (begins.trans hd),
      pointLength_append_of_breaks hr]
    cases cs with
    | nil => simp [pointLength]
    | cons c cs =>
      rw [List.cons_append, List.drop_succ_cons, List.drop_succ_cons, List.drop_zero, List.drop_zero,
        beginsWithDigit_append_of_breaks hr]

theorem exponentLength_append_of_breaks (hr : Text.Breaks rest) (cs : List Char) :
    exponentLength (cs ++ rest) = exponentLength cs := by
  cases cs with
  | nil =>
    cases rest with
    | nil => rfl
    | cons b bs =>
      have small : b ≠ 'e' := Text.ne_of_isBlank hr (by decide)
      have large : b ≠ 'E' := Text.ne_of_isBlank hr (by decide)
      simp [exponentLength, small, large]
  | cons c cs =>
    have digits : digitLength ((cs ++ rest).drop (signLength cs)) =
        digitLength (cs.drop (signLength cs)) := by
      rw [List.drop_append_of_le_length (signLength_le_length cs), digitLength, digitLength,
        takeWhile_append_of_breaks (fun _ => Text.isDigit_of_isBlank) hr]
    rw [List.cons_append, exponentLength_cons, exponentLength_cons,
      signLength_append_of_breaks hr, digits]

theorem numberLength_append_of_breaks (hr : Text.Breaks rest) (cs : List Char) :
    numberLength (cs ++ rest) = numberLength cs := by
  unfold numberLength
  rw [markedLength?_append_of_breaks hr, mantissaLength_append_of_breaks hr]
  cases markedLength? cs with
  | some n => rfl
  | none =>
    have whole : mantissaLength cs ≤ cs.length := mantissaLength_le_length cs
    simp only [List.drop_append_of_le_length whole, exponentLength_append_of_breaks hr]

end Number

namespace Token

/-- A word without blanks is the beginning of a text just if it is the beginning of what stands before
the first blank. -/
theorem isPrefixOf_append_of_breaks (hr : Text.Breaks rest) {word : List Char}
    (visible : ∀ c ∈ word, Text.isBlank c = false) (cs : List Char) :
    word.isPrefixOf (cs ++ rest) = word.isPrefixOf cs := by
  induction word generalizing cs with
  | nil => simp
  | cons w word ih =>
    cases cs with
    | cons c cs =>
      have later := ih (fun d hd => visible d (List.mem_cons_of_mem _ hd)) cs
      simp only [List.cons_append, List.isPrefixOf, later]
    | nil =>
      cases rest with
      | nil => rfl
      | cons b bs =>
        have differs : b ≠ w := Text.ne_of_isBlank hr (visible w List.mem_cons_self)
        simp [List.isPrefixOf, differs.symm]

theorem operatorLength_append_of_breaks (hr : Text.Breaks rest) (cs : List Char) :
    operatorLength (cs ++ rest) = operatorLength cs := by
  have visible : ∀ spelling ∈ operators, spelling.toList.all (!Text.isBlank ·) = true := by
    decide
  have found : (operators.find? fun spelling => spelling.toList.isPrefixOf (cs ++ rest)) =
      operators.find? fun spelling => spelling.toList.isPrefixOf cs :=
    List.find?_congr fun spelling hs => isPrefixOf_append_of_breaks hr (fun c hc => by
      simpa using List.all_eq_true.mp (visible spelling hs) c hc) cs
  unfold operatorLength
  rw [found]

theorem referenceLength_append_of_breaks (hr : Text.Breaks rest) (cs : List Char) :
    referenceLength (cs ++ rest) = referenceLength cs := by
  have digits := takeWhile_append_of_breaks (fun _ => Text.isDigit_of_isBlank) hr cs
  have signs := takeWhile_append_of_breaks (p := (· = '@'))
    (fun c hc => by simp [Text.ne_of_isBlank hc (show Text.isBlank '@' = false by decide)]) hr cs
  unfold referenceLength
  rw [Number.beginsWithDigit_append_of_breaks hr, digits, signs]

/-- What follows a blank, and the blank itself, has no part in the token before it. -/
theorem lexeme_append_of_breaks (hr : Text.Breaks rest) {cs : List Char} (hcs : cs ≠ []) :
    lexeme (cs ++ rest) = lexeme cs := by
  cases cs with
  | nil => exact absurd rfl hcs
  | cons c cs =>
    have number := Number.numberLength_append_of_breaks hr (c :: cs)
    have operator := operatorLength_append_of_breaks hr (c :: cs)
    have name := takeWhile_append_of_breaks (fun _ => continuesName_of_isBlank) hr cs
    rw [List.cons_append] at number operator ⊢
    simp only [lexeme, number, operator, name, referenceLength_append_of_breaks hr]

end Token

end Append

/-! ## A token that is cut out -/

/-- A run that is cut out of its text is the same run. -/
theorem takeWhile_take_of_le {p : Char → Bool} {cs : List Char} {n : Nat}
    (h : (cs.takeWhile p).length ≤ n) : (cs.take n).takeWhile p = cs.takeWhile p := by
  rw [← List.take_takeWhile, List.take_of_length_le h]

namespace Number

theorem beginsWithDigit_take_succ (cs : List Char) (n : Nat) :
    beginsWithDigit (cs.take (n + 1)) = beginsWithDigit cs := by
  cases cs <;> rfl

theorem beginsWithDigit_take_of_false {cs : List Char} (h : beginsWithDigit cs = false) (n : Nat) :
    beginsWithDigit (cs.take n) = false := by
  cases n with
  | zero => rfl
  | succ n => rwa [beginsWithDigit_take_succ]

theorem runLength_take {cs : List Char} {n : Nat} (h : runLength cs ≤ n) :
    runLength (cs.take n) = runLength cs := by
  unfold runLength at h ⊢
  rw [takeWhile_take_of_le h]

theorem pointLength_take {cs : List Char} {n : Nat} (h : pointLength cs ≤ n) :
    pointLength (cs.take n) = pointLength cs := by
  cases cs with
  | nil => rw [List.take_nil]
  | cons c cs =>
    cases n with
    | zero => exact (Nat.le_zero.mp h).symm
    | succ n =>
      by_cases hc : c = '.'
      · subst hc
        have run : runLength cs ≤ n := by
          have : 1 + runLength cs ≤ n + 1 := h
          omega
        exact congrArg (1 + ·) (runLength_take run)
      · exact (pointLength_of_ne hc _).trans (pointLength_of_ne hc _).symm

/-- A run begins with every digit. -/
theorem runLength_pos {cs : List Char} (h : beginsWithDigit cs = true) : 0 < runLength cs := by
  cases cs with
  | nil => exact absurd h (by decide)
  | cons c cs =>
    have digit : Text.isDigit c = true := h
    simp [runLength, digit]

/-- A point before a digit is counted with that digit. -/
theorem pointLength_eq_zero_or {cs : List Char} (h : beginsWithDigit (cs.drop 1) = true) :
    pointLength cs = 0 ∨ 2 ≤ pointLength cs := by
  cases cs with
  | nil => exact .inl rfl
  | cons c cs =>
    by_cases hc : c = '.'
    · subst hc
      have run : 0 < runLength cs := runLength_pos h
      have length : pointLength ('.' :: cs) = 1 + runLength cs := rfl
      omega
    · exact .inl (pointLength_of_ne hc _)

theorem mantissaLength_take {cs : List Char} {n : Nat} (h : mantissaLength cs ≤ n) :
    mantissaLength (cs.take n) = mantissaLength cs := by
  cases hd : beginsWithDigit cs with
  | true =>
    rw [mantissaLength_of_digit hd] at h ⊢
    have first := runLength_pos hd
    obtain ⟨k, rfl⟩ : ∃ k, n = k + 1 := ⟨n - 1, by omega⟩
    have run : runLength (cs.take (k + 1)) = runLength cs := runLength_take (by omega)
    have point : pointLength ((cs.drop (runLength cs)).take (k + 1 - runLength cs)) =
        pointLength (cs.drop (runLength cs)) := pointLength_take (by omega)
    rw [mantissaLength_of_digit ((beginsWithDigit_take_succ cs k).trans hd), run, List.drop_take,
      point]
  | false =>
    rw [mantissaLength_of_not_digit hd] at h ⊢
    rw [mantissaLength_of_not_digit (beginsWithDigit_take_of_false hd n), List.drop_take]
    cases hp : beginsWithDigit (cs.drop 1) with
    | false => rw [beginsWithDigit_take_of_false hp]; rfl
    | true =>
      rw [if_pos hp] at h
      rw [pointLength_take h, if_pos rfl]
      rcases pointLength_eq_zero_or hp with none | two
      · rw [none, ite_self]
      · obtain ⟨k, rfl⟩ : ∃ k, n = k + 2 := ⟨n - 2, by omega⟩
        exact if_pos ((beginsWithDigit_take_succ _ _).trans hp)

theorem markedLength?_take_of_none {cs : List Char} (h : markedLength? cs = none) (n : Nat) :
    markedLength? (cs.take n) = none := by
  match cs, n with
  | [], _ => rw [List.take_nil]; rfl
  | _ :: _, 0 => rfl
  | [c], n + 1 => rwa [List.take_succ_cons, List.take_nil]
  | c :: m :: cs, 1 =>
    by_cases hc : c = '0'
    · subst hc; rfl
    · exact markedLength?_of_ne hc _
  | c :: m :: cs, n + 2 =>
    by_cases hc : c = '0'
    · subst hc
      rw [List.take_succ_cons, List.take_succ_cons, markedLength?_zero_cons, ← List.take_takeWhile]
      rw [markedLength?_zero_cons] at h
      have none : (cs.takeWhile (goesOn m)).any (isDigitIn m) = false := by
        by_contra some
        rw [if_pos (by simpa using some)] at h
        exact absurd h (by simp)
      have none' : ((cs.takeWhile (goesOn m)).take n).any (isDigitIn m) = false := by
        rw [List.any_eq_false] at none ⊢
        exact fun d hd => none d (List.mem_of_mem_take hd)
      rw [none']
      rfl
    · exact markedLength?_of_ne hc _

/-- A base marker stands between a zero and a run with a digit. -/
theorem markedLength?_eq_some {cs : List Char} {n : Nat} (h : markedLength? cs = some n) :
    ∃ m ds, cs = '0' :: m :: ds ∧ (ds.takeWhile (goesOn m)).any (isDigitIn m) = true ∧
      n = 2 + (ds.takeWhile (goesOn m)).length := by
  unfold markedLength? at h
  split at h
  case h_1 m ds =>
    rw [← markedLength?, markedLength?_zero_cons] at h
    split at h
    case isTrue digit => exact ⟨m, ds, rfl, digit, (Option.some.inj h).symm⟩
    case isFalse => exact absurd h (by simp)
  case h_2 => exact absurd h (by simp)

theorem markedLength?_take_of_some {cs : List Char} {k n : Nat} (h : markedLength? cs = some k)
    (hn : k ≤ n) : markedLength? (cs.take n) = some k := by
  obtain ⟨m, ds, rfl, digit, rfl⟩ := markedLength?_eq_some h
  obtain ⟨n, rfl⟩ : ∃ j, n = j + 2 := ⟨n - 2, by omega⟩
  have run : (ds.take n).takeWhile (goesOn m) = ds.takeWhile (goesOn m) :=
    takeWhile_take_of_le (by omega)
  rw [List.take_succ_cons, List.take_succ_cons, markedLength?_zero_cons, run, if_pos digit]

theorem digitLength_take {cs : List Char} {n : Nat} (h : digitLength cs ≤ n) :
    digitLength (cs.take n) = digitLength cs :=
  congrArg List.length (takeWhile_take_of_le h)

theorem exponentLength_take {cs : List Char} {n : Nat} (h : exponentLength cs ≤ n) :
    exponentLength (cs.take n) = exponentLength cs := by
  match cs, n with
  | [], _ => rw [List.take_nil]
  | _ :: _, 0 => exact (Nat.le_zero.mp h).symm
  | c :: cs, 1 =>
    -- Nothing is left after the letter, and one letter is no exponent.
    have alone : exponentLength [c] = 0 := by simp [exponentLength_cons, digitLength, signLength]
    rw [exponentLength_cons] at h ⊢
    rw [List.take_succ_cons, List.take_zero, alone]
    split at h
    case isTrue digits =>
      simp only [Bool.and_eq_true, decide_eq_true_eq] at digits
      omega
    case isFalse none => rw [if_neg none]
  | c :: cs, n + 2 =>
    have sign : signLength (cs.take (n + 1)) = signLength cs := by
      cases cs <;> rfl
    rw [exponentLength_cons] at h
    rw [List.take_succ_cons, exponentLength_cons, exponentLength_cons, sign]
    by_cases letter : (c = 'e' || c = 'E') = true
    · have digits : digitLength ((cs.take (n + 1)).drop (signLength cs)) =
          digitLength (cs.drop (signLength cs)) := by
        rw [List.drop_take]
        refine digitLength_take ?_
        rw [letter, Bool.true_and] at h
        split at h
        case isTrue => omega
        case isFalse none => simp only [decide_eq_true_eq, not_not] at none; omega
      rw [digits]
    · simp [letter]

theorem exponentLength_le_length (cs : List Char) : exponentLength cs ≤ cs.length := by
  cases cs with
  | nil => exact Nat.le_refl _
  | cons c cs =>
    have sign := signLength_le_length cs
    have digits : digitLength (cs.drop (signLength cs)) ≤ (cs.drop (signLength cs)).length :=
      (List.takeWhile_prefix _).length_le
    rw [List.length_drop] at digits
    rw [exponentLength_cons, List.length_cons]
    split <;> omega

theorem numberLength_le_length (cs : List Char) : numberLength cs ≤ cs.length := by
  cases hm : markedLength? cs with
  | some n =>
    obtain ⟨m, ds, rfl, -, rfl⟩ := markedLength?_eq_some hm
    have run : (ds.takeWhile (goesOn m)).length ≤ ds.length := (List.takeWhile_prefix _).length_le
    rw [numberLength_of_marked hm, List.length_cons, List.length_cons]
    omega
  | none =>
    have mantissa := mantissaLength_le_length cs
    have exponent := exponentLength_le_length (cs.drop (mantissaLength cs))
    rw [List.length_drop] at exponent
    rw [numberLength_of_unmarked hm]
    split <;> omega

/-- A number cut out of its text has the same length, and where no number begins none begins in a shorter
text either. -/
theorem numberLength_take {cs : List Char} {n : Nat} (h : numberLength cs ≤ n) :
    numberLength (cs.take n) = numberLength cs := by
  cases hm : markedLength? cs with
  | some k =>
    rw [numberLength_of_marked hm] at h ⊢
    exact numberLength_of_marked (markedLength?_take_of_some hm h)
  | none =>
    rw [numberLength_of_unmarked hm] at h ⊢
    have cut : mantissaLength (cs.take n) = mantissaLength cs := by
      refine mantissaLength_take ?_
      split at h <;> omega
    rw [numberLength_of_unmarked (markedLength?_take_of_none hm n), cut]
    split
    case isTrue => rfl
    case isFalse mantissa =>
      rw [if_neg mantissa] at h
      rw [List.drop_take, exponentLength_take (by omega)]

end Number

namespace Token

/-- An operator length measures an operator at the beginning of the text. -/
theorem operatorLength_eq_succ {cs : List Char} {n : Nat} (h : operatorLength cs = n + 1) :
    ∃ spelling ∈ operators, spelling.toList <+: cs ∧ spelling.toList.length = n + 1 := by
  unfold operatorLength at h
  split at h
  case h_1 spelling found =>
    have start := List.find?_some (p := fun s : String => s.toList.isPrefixOf cs) found
    exact ⟨spelling, List.mem_of_find?_eq_some found, List.isPrefixOf_iff_prefix.mp start,
      by rw [String.length_toList, h]⟩
  case h_2 => exact absurd h (by omega)

/-- An operator cut out of its text has the same length, and where no operator begins none begins in a
shorter text either. -/
theorem operatorLength_take {cs : List Char} {n : Nat} (h : operatorLength cs ≤ n) :
    operatorLength (cs.take n) = operatorLength cs := by
  have shorter : ∀ spelling : String, spelling.toList.isPrefixOf (cs.take n) = true →
      spelling.toList.isPrefixOf cs = true := fun spelling start =>
    List.isPrefixOf_iff_prefix.mpr
      ((List.isPrefixOf_iff_prefix.mp start).trans (List.take_prefix n cs))
  have found : (operators.find? fun spelling => spelling.toList.isPrefixOf (cs.take n)) =
      operators.find? fun spelling => spelling.toList.isPrefixOf cs := by
    unfold operatorLength at h
    cases found : operators.find? fun spelling => spelling.toList.isPrefixOf cs with
    | none =>
      rw [List.find?_eq_none] at found ⊢
      exact fun spelling hs start => found spelling hs (shorter spelling start)
    | some spelling =>
      rw [found] at h
      obtain ⟨start, before, after, all, none⟩ := List.find?_eq_some_iff_append.mp found
      refine List.find?_eq_some_iff_append.mpr ⟨?_, before, after, all, fun other ho => ?_⟩
      · rw [List.isPrefixOf_iff_prefix] at start ⊢
        exact List.prefix_take_iff.mpr ⟨start, by rw [String.length_toList]; exact h⟩
      · have other' := none other ho
        simp only [Bool.not_eq_true', Bool.eq_false_iff, ne_eq] at other' ⊢
        exact fun start => other' (shorter other start)
  unfold operatorLength
  rw [found]

theorem referenceLength_le_length (cs : List Char) : referenceLength cs ≤ cs.length := by
  unfold referenceLength
  split <;> exact (List.takeWhile_prefix _).length_le

theorem referenceLength_take {cs : List Char} {n : Nat} (h : referenceLength cs ≤ n) :
    referenceLength (cs.take n) = referenceLength cs := by
  cases hd : Number.beginsWithDigit cs with
  | true =>
    have length : referenceLength cs = (cs.takeWhile Text.isDigit).length := by
      rw [referenceLength, if_pos hd]
    rw [length] at h ⊢
    have begins : Number.beginsWithDigit (cs.take n) = true := by
      match cs, n with
      | [], _ => exact absurd hd (by decide)
      | c :: cs, 0 =>
        have digit : Text.isDigit c = true := hd
        rw [List.takeWhile_cons_of_pos digit] at h
        exact absurd h (Nat.not_succ_le_zero _)
      | c :: cs, n + 1 => exact (Number.beginsWithDigit_take_succ _ _).trans hd
    rw [referenceLength, if_pos begins, takeWhile_take_of_le h]
  | false =>
    have signs {ds : List Char} (hds : Number.beginsWithDigit ds = false) :
        referenceLength ds = (ds.takeWhile (· = '@')).length := by
      simp [referenceLength, hds]
    rw [signs hd] at h ⊢
    rw [signs (Number.beginsWithDigit_take_of_false hd n), takeWhile_take_of_le h]

/-- A token lies within its text. -/
theorem lexeme_lt_length {cs : List Char} {kind : TokenKind} {n : Nat}
    (h : lexeme cs = some (kind, n)) : n < cs.length := by
  cases cs with
  | nil => exact absurd h (by simp [lexeme])
  | cons c cs =>
    have number := Number.numberLength_le_length (c :: cs)
    have reference := referenceLength_le_length cs
    have name : (cs.takeWhile continuesName).length ≤ cs.length :=
      (List.takeWhile_prefix _).length_le
    have operator : operatorLength (c :: cs) ≤ (c :: cs).length := by
      cases ho : operatorLength (c :: cs) with
      | zero => exact Nat.zero_le _
      | succ k =>
        obtain ⟨spelling, -, start, length⟩ := operatorLength_eq_succ ho
        rw [← length]
        exact start.length_le
    rw [List.length_cons] at number operator ⊢
    unfold lexeme at h
    grind

/-- A token reads as itself when it is cut out of its text. -/
theorem lexeme_take {cs : List Char} {kind : TokenKind} {k n : Nat}
    (h : lexeme cs = some (kind, k)) (hn : k < n) : lexeme (cs.take n) = some (kind, k) := by
  cases cs with
  | nil => exact absurd h (by simp [lexeme])
  | cons c cs =>
    obtain ⟨n, rfl⟩ : ∃ j, n = j + 1 := ⟨n - 1, by omega⟩
    rw [List.take_succ_cons]
    by_cases opening : c = '('
    · subst opening
      exact h
    by_cases closing : c = ')'
    · subst closing
      exact h
    by_cases sign : c = '@'
    · subst sign
      have read : ∀ ds, lexeme ('@' :: ds) = some (.history, referenceLength ds) := fun _ => rfl
      rw [read] at h ⊢
      simp only [Option.some.injEq, Prod.mk.injEq] at h
      obtain ⟨rfl, rfl⟩ := h
      rw [referenceLength_take (by omega)]
    simp only [lexeme, opening, closing, sign, if_false] at h ⊢
    cases hn' : Number.numberLength (c :: cs) with
    | succ k =>
      simp only [hn', Option.some.injEq, Prod.mk.injEq] at h
      obtain ⟨rfl, rfl⟩ := h
      have number : Number.numberLength ((c :: cs).take (n + 1)) = Number.numberLength (c :: cs) :=
        Number.numberLength_take (by omega)
      rw [List.take_succ_cons] at number
      rw [number, hn']
    | zero =>
      have number : Number.numberLength ((c :: cs).take (n + 1)) = Number.numberLength (c :: cs) :=
        Number.numberLength_take (by omega)
      rw [List.take_succ_cons] at number
      rw [number, hn']
      cases ho : operatorLength (c :: cs) with
      | succ k =>
        simp only [hn', ho, Option.some.injEq, Prod.mk.injEq] at h
        obtain ⟨rfl, rfl⟩ := h
        have operator : operatorLength ((c :: cs).take (n + 1)) = operatorLength (c :: cs) :=
          operatorLength_take (by omega)
        rw [List.take_succ_cons] at operator
        rw [operator, ho]
      | zero =>
        have operator : operatorLength ((c :: cs).take (n + 1)) = operatorLength (c :: cs) :=
          operatorLength_take (by omega)
        rw [List.take_succ_cons] at operator
        rw [operator, ho]
        simp only [hn', ho] at h ⊢
        split at h
        case isTrue begins =>
          simp only [Option.some.injEq, Prod.mk.injEq] at h
          obtain ⟨rfl, rfl⟩ := h
          rw [if_pos begins, takeWhile_take_of_le (by omega)]
        case isFalse => exact absurd h (by simp)

end Token

end Reckoner
