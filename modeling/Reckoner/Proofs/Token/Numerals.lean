import Reckoner.Proofs.Token.Longest

/-!
# Number tokens

The number tokens are the numbers (`isWord_number_iff`): base markers with digits of the base, and decimal
numbers.  So their characters are ASCII characters (`IsWord.ascii`); the letters that merely look like digits
are not among them.  A sign in front of a text is a token of its own (`Scans.minus`), since no number begins
with it.
-/

namespace Reckoner

namespace Token

/-- Where a number begins with a digit or a point, a number is the next token. -/
theorem lexeme_of_numberLength {c : Char} {cs : List Char} {n : Nat}
    (own : Text.isDigit c = true ∨ c = '.') (length : Number.numberLength (c :: cs) = n + 1) :
    Text.isBlank c = false ∧ lexeme (c :: cs) = some (.number, n) := by
  have visible : Text.isBlank c = false := by
    by_contra blank
    rw [Bool.not_eq_false] at blank
    rcases own with digit | rfl
    · rw [Text.isDigit_of_isBlank blank] at digit
      cases digit
    · cases blank
  have other : c ≠ '(' ∧ c ≠ ')' ∧ c ≠ '@' := by
    refine ⟨?_, ?_, ?_⟩ <;>
    · rintro rfl
      exact absurd own (by decide)
  refine ⟨visible, ?_⟩
  simp only [lexeme, if_neg other.1, if_neg other.2.1, if_neg other.2.2, length]

/-- Where a text begins with a digit, or with a point and a digit, the next token is a number of the length
that is measured. -/
theorem lexeme_of_begins {cs : List Char} (h : Number.Begins cs) :
    ∃ c rest n, cs = c :: rest ∧ Text.isBlank c = false ∧ Number.numberLength cs = n + 1 ∧
      lexeme cs = some (.number, n) := by
  obtain ⟨n, length⟩ := Nat.exists_eq_succ_of_ne_zero (Nat.ne_of_gt (Number.isNumber_take h).1)
  obtain ⟨c, rest, digit, rfl | rfl⟩ := h
  · obtain ⟨visible, read⟩ := lexeme_of_numberLength (Or.inl digit) length
    exact ⟨c, rest, n, rfl, visible, length, read⟩
  · obtain ⟨visible, read⟩ := lexeme_of_numberLength (Or.inr rfl) length
    exact ⟨'.', c :: rest, n, rfl, visible, length, read⟩

/-- Numbers are the number tokens. -/
theorem isWord_number_iff {text : String} : IsWord .number text ↔ Number.IsNumber text.toList := by
  constructor
  · intro word
    obtain ⟨c, cs, hcs, -, read⟩ := isWord_iff.mp word
    rw [hcs, Number.isNumber_iff]
    exact ⟨List.cons_ne_nil c cs, numberLength_of_lexeme read⟩
  · intro number
    obtain ⟨ne, whole⟩ := Number.isNumber_iff.mp number
    have begins : Number.Begins text.toList := by
      rw [← Number.numberLength_pos_iff, whole]
      exact List.length_pos_iff.mpr ne
    obtain ⟨c, rest, n, hcs, visible, length, read⟩ := lexeme_of_begins begins
    have same : n = rest.length := by
      rw [length, hcs, List.length_cons] at whole
      omega
    rw [hcs, same] at read
    exact isWord_iff.mpr ⟨c, rest, hcs, visible, read⟩

/-- Number tokens have one of the shapes. -/
theorem IsWord.shape {text : String} (h : IsWord .number text) : Number.Shape text.toList :=
  (isWord_number_iff.mp h).shape

/-- Number tokens are of ASCII characters. -/
theorem IsWord.ascii {text : String} (h : IsWord .number text) : Text.Ascii text.toList := h.shape.ascii

theorem isWord_marked {marker : Char} {run : List Char}
    (goes : ∀ c ∈ run, Number.goesOn marker c = true)
    (digit : ∃ c ∈ run, Number.isDigitIn marker c = true) :
    IsWord .number (String.ofList ('0' :: marker :: run)) := by
  rw [isWord_number_iff, String.toList_ofList]
  exact .marked goes digit

theorem isWord_run {c : Char} {run : List Char} (digit : Text.isDigit c = true)
    (goes : ∀ d ∈ run, Number.inRun d = true) : IsWord .number (String.ofList (c :: run)) := by
  have number := Number.IsNumber.decimal (.whole digit goes .absent) .absent
  rw [List.append_nil, List.append_nil] at number
  rwa [isWord_number_iff, String.toList_ofList]

/-- A word that is the whole text is its only token. -/
theorem IsWord.scans {kind : TokenKind} {text : String} (h : IsWord kind text) (place : Nat) :
    Scans place text.toList [⟨kind, text, place, place + text.length⟩] := by
  have ended : Text.Breaks [] := trivial
  have scanned := h.scans_append ended (.nil (place + text.length))
  rwa [List.append_nil] at scanned

/-- A minus is a token, whatever follows it. -/
theorem Scans.minus {place : Nat} {cs : List Char} {tokens : List Token}
    (h : Scans (place + 1) cs tokens) :
    Scans place ('-' :: cs) (⟨.operator, "-", place, place + 1⟩ :: tokens) := by
  have number : Number.numberLength ('-' :: cs) = 0 := by
    refine Number.numberLength_eq_zero ?_
    rintro ⟨d, rest, digit, begins | begins⟩
    · obtain rfl := (List.cons.inj begins).1
      cases digit
    · cases begins
  have operator : operatorLength ('-' :: cs) = 1 := by
    have found : (operators.find? fun spelling => spelling.toList.isPrefixOf ('-' :: cs)) = some "-" := by
      simp [operators, List.find?, List.isPrefixOf]
    rw [operatorLength, found]
    rfl
  have read : lexeme ('-' :: cs) = some (.operator, 0) := by
    simp [lexeme, number, operator]
  exact Scans.token (n := 0) (by decide) read h

end Token

end Reckoner
