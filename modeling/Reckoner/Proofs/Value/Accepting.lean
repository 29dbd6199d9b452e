import Reckoner.Proofs.Value.Literals
import Reckoner.Proofs.Value.Narrowing
import Reckoner.Proofs.Value.Numerals
import Reckoner.Value.Text

/-!
# Which texts are numbers

`IsInteger` and `IsReal` say how integers and real numbers are written, and not how they are read.  Of ASCII
texts the readers accept these and no others: integers by `IsInteger.readInteger` and
`readInteger_of_not_isInteger`, real numbers by `IsReal.exists_readReal` and `isReal_of_readReal`.  A real
number has nothing in it that may be left out, so that it stands for the double of the freely written number
(`IsReal.exists_readLoosely`).

What is read becomes a value if it is an integer that some order holds, or else, in decimal, a real number
(`numeric_text_accepted`).
-/

namespace Reckoner

namespace Numeral

/-! ## Signs -/

/-- A sign, or none. -/
def IsSign (sign : List Char) : Prop := sign = [] ∨ sign = ['+'] ∨ sign = ['-']

theorem splitSign_append {sign body : List Char} (h : IsSign sign) (own : splitSign body = (false, body)) :
    splitSign (sign ++ body) = (decide (sign = ['-']), body) := by
  rcases h with rfl | rfl | rfl
  · exact own
  · rfl
  · rfl

/-- What is split off a text is a sign. -/
theorem exists_sign (text : List Char) : ∃ sign, IsSign sign ∧ text = sign ++ (splitSign text).2 := by
  unfold splitSign
  split
  · exact ⟨['-'], .inr (.inr rfl), rfl⟩
  · exact ⟨['+'], .inr (.inl rfl), rfl⟩
  · exact ⟨[], .inl rfl, rfl⟩

/-! ## Integers -/

/-- Is the character a digit below the radix, letters being digits in either case? -/
def isDigitOf (radix : Nat) (c : Char) : Bool := (digit? c).any (· < radix)

/-- The text is an optional sign and digits of the radix, and stands for the integer. -/
def IsInteger (radix : Nat) (text : List Char) (n : Int) : Prop :=
  ∃ sign digits, text = sign ++ digits ∧ IsSign sign ∧ IsNumeral radix digits ∧
    n = if sign = ['-'] then -(valueOf radix digits : Int) else valueOf radix digits

section Integers

variable {radix : Nat} {text digits : List Char} {n : Int}

theorem IsNumeral.length_le_countP (h : IsNumeral radix digits) :
    digits.length ≤ digits.countP (isDigitOf radix) := by
  refine Nat.le_of_eq (List.countP_eq_length.mpr fun c hc => ?_).symm
  obtain ⟨d, below, read⟩ := h.own c hc
  rw [isDigitOf, read]
  exact decide_eq_true below

/-- An integer is read, if it has not too many digits. -/
theorem IsInteger.readInteger (hr : 1 < radix) (small : radix ≤ 36) (h : IsInteger radix text n)
    (short : text.countP (isDigitOf radix) ≤ digitLimit) : readInteger text radix = .ok (some n) := by
  obtain ⟨sign, digits, rfl, signs, numeral, rfl⟩ := h
  have length : digits.length ≤ digitLimit := by
    refine Nat.le_trans numeral.length_le_countP (Nat.le_trans ?_ short)
    exact (List.suffix_append sign digits).countP_le
  have read := readInteger_of_splitSign hr small (splitSign_append signs numeral.splitSign) numeral (.inl length)
  rw [read]
  simp only [decide_eq_true_eq]

/-- Of ASCII characters those pass for digits that are. -/
theorem isNumeral_of_passes (small : radix ≤ 36) (ascii : Text.Ascii digits) (ne : digits ≠ [])
    (passing : ∀ c ∈ digits, passes radix c = true) : IsNumeral radix digits := by
  refine ⟨ne, ?_⟩
  intro c hc
  obtain ⟨d, read, below⟩ := exists_digit?_of_passes (ascii c hc) (passing c hc)
  refine ⟨d, ?_, read⟩
  rw [admitted, if_neg (by omega), Int.toNat_natCast, Nat.min_eq_left small] at below
  exact below

/-- Nothing else is read as an integer. -/
theorem readInteger_of_not_isInteger (small : radix ≤ 36) (ascii : Text.Ascii text)
    (other : ¬ ∃ n, IsInteger radix text n) : readInteger text radix = .ok none := by
  have failing : ((splitSign text).2.isEmpty || !(splitSign text).2.all (passes radix)) = true := by
    by_contra valid
    rw [Bool.or_eq_true, not_or, List.isEmpty_iff, Bool.not_eq_true', Bool.not_eq_false,
      List.all_eq_true] at valid
    obtain ⟨sign, signs, split⟩ := exists_sign text
    have numeral := isNumeral_of_passes small (ascii.of_isSuffix (splitSign_isSuffix text)) valid.1 valid.2
    exact other ⟨_, sign, _, split, signs, numeral, rfl⟩
  simp only [Numeral.readInteger, failing, if_true]

end Integers

/-! ## Real numbers -/

/-- The text is an optional sign and either digits with an optional point and an optional exponent, or a word
for infinity or not-a-number in any case. -/
inductive IsReal : List Char → Prop where
  | decimal {sign whole point ending : List Char} (signs : IsSign sign)
      (parts : Parts Text.isDigit whole point ending) : IsReal (sign ++ (whole ++ (point ++ ending)))
  | word {sign word : List Char} (signs : IsSign sign)
      (named : word.map Char.toLower ∈ ["inf".toList, "infinity".toList, "nan".toList]) :
      IsReal (sign ++ word)

section Words

variable {word : List Char} (ascii : Text.Ascii word)
  (named : word.map Char.toLower ∈ ["inf".toList, "infinity".toList, "nan".toList])

include ascii named

/-- The characters of words are neither digits nor any of the marks in and around numbers. -/
theorem isLetter_of_mem_word {c : Char} (hc : c ∈ word) :
    Text.isDigit c = false ∧ Text.isSpace c = false ∧ c ∉ ['.', '+', '-', '_'] := by
  have all : ∀ n < 128, (Char.ofNat n).toLower ∈ "infinitynan".toList →
      Text.isDigit (Char.ofNat n) = false ∧ Text.isSpace (Char.ofNat n) = false ∧
        Char.ofNat n ∉ ['.', '+', '-', '_'] := by decide
  have letters : ∀ word ∈ ["inf".toList, "infinity".toList, "nan".toList],
      word.all (· ∈ "infinitynan".toList) = true := by decide
  have own := all c.toNat (ascii c hc)
  rw [Char.ofNat_toNat] at own
  exact own (of_decide_eq_true (List.all_eq_true.mp (letters _ named) _ (List.mem_map_of_mem hc)))

theorem splitSign_word : splitSign word = (false, word) := by
  cases word with
  | nil => rfl
  | cons c cs =>
    have other := (isLetter_of_mem_word ascii named List.mem_cons_self).2.2
    refine splitSign_of_ne ?_ ?_ cs
    · rintro rfl
      exact other (by decide)
    · rintro rfl
      exact other (by decide)

/-- A word does not begin like a number in digits. -/
theorem spanMantissa_word : spanMantissa word = none := by
  cases word with
  | nil => rfl
  | cons c cs =>
    obtain ⟨digit, -, other⟩ := isLetter_of_mem_word ascii named List.mem_cons_self
    have point : c ≠ '.' := by
      rintro rfl
      exact other (by decide)
    have none : spanDigits (c :: cs) = ([], c :: cs) := by simp [spanDigits, digit]
    simp only [spanMantissa, none]
    split
    case h_1 same => exact absurd (List.cons.inj same).1 point
    case h_2 => rfl

end Words

/-- An ASCII character in a word is recognised as its small letter. -/
theorem map_wordLetter {word : List Char} (ascii : Text.Ascii word) :
    word.map wordLetter = word.map Char.toLower := by
  refine List.map_congr_left fun c hc => ?_
  have code := ascii c hc
  exact if_neg (by omega)

theorem readWord_of_ascii {word : List Char} (ascii : Text.Ascii word) :
    (∃ body, readWord word = some body) ↔
      word.map Char.toLower ∈ ["inf".toList, "infinity".toList, "nan".toList] := by
  have plain : word.all (fun c => c.toNat < 128) = true :=
    List.all_eq_true.mpr fun c hc => decide_eq_true (ascii c hc)
  have spelled (cs : List Char) : String.ofList (word.map Char.toLower) = String.ofList cs ↔
      word.map Char.toLower = cs := String.ofList_inj
  have infinite := spelled "inf".toList
  have infinity := spelled "infinity".toList
  have number := spelled "nan".toList
  rw [String.ofList_toList] at infinite infinity number
  simp only [readWord, plain, if_true, map_wordLetter ascii, infinite, infinity, number,
    List.mem_cons, List.not_mem_nil, or_false]
  by_cases endless : word.map Char.toLower = "inf".toList ∨ word.map Char.toLower = "infinity".toList
  · rw [if_pos endless]
    exact iff_of_true ⟨_, rfl⟩ (endless.imp_right .inl)
  · by_cases none : word.map Char.toLower = "nan".toList
    · rw [if_neg endless, if_pos none]
      exact iff_of_true ⟨_, rfl⟩ (.inr (.inr none))
    · rw [if_neg endless, if_neg none]
      refine iff_of_false (fun found => nomatch found.choose_spec) ?_
      rintro (inf | infinity | nan)
      · exact endless (.inl inf)
      · exact endless (.inr infinity)
      · exact none nan

section Reals

variable {text : List Char}

/-- Real numbers are read. -/
theorem IsReal.exists_readReal (h : IsReal text) (ascii : Text.Ascii text) :
    ∃ negative body, readReal text = some (negative, body) := by
  cases h with
  | decimal signs parts =>
    obtain ⟨k, exponent⟩ := parts.isExponent.exists_readExponent
    simp only [readReal, splitSign_append signs parts.splitSign, readBody, parts.spanMantissa, exponent,
      Option.map_some]
    exact ⟨_, _, rfl⟩
  | @word sign word signs named =>
    have own : Text.Ascii word := ascii.of_isSuffix (List.suffix_append sign word)
    obtain ⟨body, read⟩ := (readWord_of_ascii own).mpr named
    simp only [readReal, splitSign_append signs (splitSign_word own named), readBody,
      spanMantissa_word own named, read, Option.map_some]
    exact ⟨_, _, rfl⟩

/-- What is measured off is made of the parts of a number. -/
theorem exists_parts_of_spanMantissa {cs digits rest : List Char} {places : Nat}
    (h : spanMantissa cs = some (digits, places, rest)) :
    ∃ whole point, cs = whole ++ (point ++ rest) ∧ (∀ c ∈ whole, Text.isDigit c = true) ∧
      IsPoint Text.isDigit point ∧ ∃ c ∈ whole ++ point, Text.isDigit c = true := by
  have own (ds : List Char) : ∀ c ∈ ds.takeWhile Text.isDigit, Text.isDigit c = true :=
    fun c hc => List.mem_takeWhile_imp hc
  have joined (ds : List Char) : ds.takeWhile Text.isDigit ++ ds.dropWhile Text.isDigit = ds :=
    List.takeWhile_append_dropWhile
  have first {ds : List Char} (ne : ds.takeWhile Text.isDigit ≠ []) :
      ∃ c ∈ ds.takeWhile Text.isDigit, Text.isDigit c = true := by
    obtain ⟨c, hc⟩ := List.exists_mem_of_ne_nil _ ne
    exact ⟨c, hc, own ds c hc⟩
  simp only [spanMantissa, spanDigits] at h
  split at h
  case h_1 behind after =>
    obtain ⟨filled, same⟩ := Option.ite_none_left_eq_some.mp h
    simp only [Option.some.injEq, Prod.mk.injEq] at same
    obtain ⟨-, -, rfl⟩ := same
    refine ⟨cs.takeWhile Text.isDigit, '.' :: behind.takeWhile Text.isDigit, ?_, own cs,
      .present (own behind), ?_⟩
    · rw [List.cons_append, joined, ← after, joined]
    · rw [Bool.and_eq_true, List.isEmpty_iff, List.isEmpty_iff, not_and_or] at filled
      rcases filled with before | later
      · obtain ⟨c, hc, digit⟩ := first before
        exact ⟨c, List.mem_append_left _ hc, digit⟩
      · obtain ⟨c, hc, digit⟩ := first later
        exact ⟨c, List.mem_append_right _ (List.mem_cons_of_mem _ hc), digit⟩
  case h_2 =>
    obtain ⟨filled, same⟩ := Option.ite_none_left_eq_some.mp h
    simp only [Option.some.injEq, Prod.mk.injEq] at same
    obtain ⟨-, -, rfl⟩ := same
    rw [List.isEmpty_iff] at filled
    obtain ⟨c, hc, digit⟩ := first filled
    refine ⟨cs.takeWhile Text.isDigit, [], ?_, own cs, .absent, c, ?_, digit⟩
    · rw [List.nil_append, joined]
    · rw [List.append_nil]
      exact hc

theorem isExponent_of_readExponent {cs : List Char} {k : Int} (h : readExponent cs = some k) :
    IsExponent cs := by
  cases cs with
  | nil => exact .absent
  | cons c rest =>
    obtain ⟨mark, read⟩ := Option.ite_none_right_eq_some.mp h
    obtain ⟨valid, -⟩ := Option.ite_none_left_eq_some.mp read
    rw [Bool.or_eq_true, not_or, List.isEmpty_iff, Bool.not_eq_true', Bool.not_eq_false,
      List.all_eq_true] at valid
    obtain ⟨sign, signs, split⟩ := exists_sign rest
    rw [split]
    exact .present mark signs valid.1 valid.2

/-- Nothing else is read as a real number. -/
theorem isReal_of_readReal (ascii : Text.Ascii text) {negative : Bool} {body : RealBody}
    (h : readReal text = some (negative, body)) : IsReal text := by
  obtain ⟨found, read, -⟩ := Option.map_eq_some_iff.mp h
  replace read : readBody (splitSign text).2 = some found := read
  obtain ⟨sign, signs, split⟩ := exists_sign text
  rw [split]
  unfold readBody at read
  split at read
  case h_1 digits places rest span =>
    obtain ⟨k, exponent, -⟩ := Option.map_eq_some_iff.mp read
    obtain ⟨whole, point, parts, inWhole, isPoint, digit⟩ := exists_parts_of_spanMantissa span
    rw [parts]
    exact .decimal signs ⟨inWhole, isPoint, isExponent_of_readExponent exponent, digit⟩
  case h_2 =>
    have own := ascii.of_isSuffix (splitSign_isSuffix text)
    exact .word signs ((readWord_of_ascii own).mp ⟨found, read⟩)

/-- Nothing in a real number can be left out. -/
theorem IsReal.visible (h : IsReal text) (ascii : Text.Ascii text) :
    ∀ c ∈ text, Text.isSpace c = false ∧ c ≠ '_' := by
  have sign {sign : List Char} (signs : IsSign sign) : ∀ c ∈ sign, Text.isSpace c = false ∧ c ≠ '_' := by
    rcases signs with rfl | rfl | rfl
    · nofun
    · exact List.forall_mem_singleton.mpr (by decide)
    · exact List.forall_mem_singleton.mpr (by decide)
  intro c hc
  cases h with
  | decimal signs parts =>
    rcases List.mem_append.mp hc with front | behind
    · exact sign signs c front
    · have plain := parts.isPlain c behind
      refine ⟨isSpace_of_isPlain plain, ?_⟩
      rintro rfl
      exact absurd plain (by decide)
  | @word first word signs named =>
    rcases List.mem_append.mp hc with front | behind
    · exact sign signs c front
    · have own := ascii.of_isSuffix (List.suffix_append first word)
      obtain ⟨-, space, other⟩ := isLetter_of_mem_word own named behind
      refine ⟨space, ?_⟩
      rintro rfl
      exact other (by decide)

/-- A real number stands for the double that it stands for when it is freely written. -/
theorem IsReal.exists_readLoosely (h : IsReal text) (ascii : Text.Ascii text) :
    ∃ negative body x, readReal text = some (negative, body) ∧ body.toDouble? negative = some x ∧
      readLoosely text = some x := by
  obtain ⟨negative, body, read⟩ := h.exists_readReal ascii
  obtain ⟨x, valued⟩ := exists_toDouble?_of_readReal ascii read
  have visible := h.visible ascii
  refine ⟨negative, body, x, read, valued, ?_⟩
  rw [readLoosely_of_visible ascii (fun c hc => (visible c hc).1) fun mem => (visible '_' mem).2 rfl, read]
  exact valued

end Reals

end Numeral

/-! ## Values -/

namespace Value

open Numeral (IsInteger IsReal isDigitOf)

/-- The result of reading an integer in a radix: the integer at the first order that holds it, or the refusal
of the text. -/
structure ReadsInteger (radix : Nat) (text : List Char) (result : Except Fault Value) : Prop where
  accepted : ∀ n, IsInteger radix text n → IntOrder.i128.low ≤ n → n ≤ IntOrder.u128.high →
    ∃ v, result = .ok v ∧ v.IsNarrowest n
  refused : (¬ ∃ n, IsInteger radix text n ∧ IntOrder.i128.low ≤ n ∧ n ≤ IntOrder.u128.high) →
    result = .error (.calculation (.unreadable (String.ofList text) (some radix)))

/-- The result of reading a number in decimal: the integer that the text is, else the double that it freely
stands for if it is a real number, and the refusal of all other texts. -/
structure ReadsNumber (text : List Char) (result : Except Fault Value) : Prop where
  integer : ∀ v, ofRadix text 10 = .ok v → result = .ok v
  real : (∀ v, ofRadix text 10 ≠ .ok v) → IsReal text →
    ∃ x, Numeral.readLoosely text = some x ∧ result = .ok (.double x)
  refused : (∀ v, ofRadix text 10 ≠ .ok v) → ¬ IsReal text →
    result = .error (.calculation (.unreadable (String.ofList text) none))

section Reading

variable {radix : Nat} {text : List Char} {n : Int}

theorem readInteger?_of_isInteger (hr : 1 < radix) (small : radix ≤ 36) (h : IsInteger radix text n)
    (short : text.countP (isDigitOf radix) ≤ Numeral.digitLimit) :
    readInteger? text radix = .ok (narrow? n) := by
  rw [readInteger?, h.readInteger hr small short]
  rfl

theorem readInteger?_of_not_isInteger (small : radix ≤ 36) (ascii : Text.Ascii text)
    (other : ¬ ∃ n, IsInteger radix text n) : readInteger? text radix = .ok none := by
  rw [readInteger?, Numeral.readInteger_of_not_isInteger small ascii other]
  rfl

theorem ofRadix_of_none (none : readInteger? text radix = .ok none) :
    ofRadix text radix = .error (.calculation (.unreadable (String.ofList text) (some radix))) := by
  rw [ofRadix, none]
  rfl

theorem ofRadix_of_some {v : Value} (some : readInteger? text radix = .ok (some v)) :
    ofRadix text radix = .ok v := by
  rw [ofRadix, some]
  rfl

theorem readsInteger_ofRadix (hr : 1 < radix) (small : radix ≤ 36) (ascii : Text.Ascii text)
    (short : text.countP (isDigitOf radix) ≤ Numeral.digitLimit) :
    ReadsInteger radix text (ofRadix text radix) := by
  constructor
  · intro n integer least most
    obtain ⟨v, narrowed, narrowest⟩ := exists_isNarrowest least most
    refine ⟨v, ofRadix_of_some ?_, narrowest⟩
    rw [readInteger?_of_isInteger hr small integer short, narrowed]
  · intro none
    by_cases integer : ∃ n, IsInteger radix text n
    · obtain ⟨n, integer⟩ := integer
      have beyond : ¬ (IntOrder.i128.low ≤ n ∧ n ≤ IntOrder.u128.high) :=
        fun within => none ⟨n, integer, within⟩
      exact ofRadix_of_none (by
        rw [readInteger?_of_isInteger hr small integer short, narrow?_of_beyond beyond])
    · exact ofRadix_of_none (readInteger?_of_not_isInteger small ascii integer)

/-- What is no integer at an order is tried as a real number. -/
theorem readsNumber_ofDecimal (ascii : Text.Ascii text) {found : Option Value}
    (read : readInteger? text 10 = .ok found) : ReadsNumber text (ofDecimal text) := by
  cases found with
  | some v =>
    have integer : ofRadix text 10 = .ok v := @ofRadix_of_some 10 text v read
    have decimal : ofDecimal text = .ok v := by
      rw [ofDecimal, read]
      rfl
    refine ⟨?_, fun other => absurd integer (other v), fun other => absurd integer (other v)⟩
    intro w same
    rw [decimal, ← integer, same]
  | none =>
    have refused := @ofRadix_of_none 10 text read
    refine ⟨?_, fun _ real => ?_, fun _ other => ?_⟩
    · intro w same
      rw [show (10 : Int) = (10 : Nat) from rfl, refused] at same
      cases same
    · obtain ⟨negative, body, x, own, valued, loosely⟩ := real.exists_readLoosely ascii
      refine ⟨x, loosely, ?_⟩
      unfold ofDecimal
      rw [read]
      simp only [bind, Except.bind, own, valued]
    · have unread : Numeral.readReal text = none := by
        refine Option.eq_none_iff_forall_ne_some.mpr ?_
        rintro ⟨negative, body⟩ own
        exact other (Numeral.isReal_of_readReal ascii own)
      unfold ofDecimal
      rw [read]
      simp only [bind, Except.bind, unread]

end Reading

/-- Numbers are read from the texts in which numbers are written, and from no others: integers in a radix if an
order holds them, and in decimal all that are not read as such integers as real numbers. -/
theorem numeric_text_accepted {text : List Char} (ascii : Text.Ascii text) :
    (∀ radix : Nat, 2 ≤ radix → radix ≤ 36 → text.countP (isDigitOf radix) ≤ Numeral.digitLimit →
      ReadsInteger radix text (ofRadix text radix)) ∧
    (text.countP Text.isDigit ≤ Numeral.digitLimit → ReadsNumber text (ofDecimal text)) := by
  constructor
  · intro radix least most short
    exact readsInteger_ofRadix least most ascii short
  · intro short
    obtain ⟨found, read⟩ : ∃ found, readInteger? text 10 = .ok found := by
      refine readInteger?_ok ascii (by decide) fun _ passing => Nat.le_trans ?_ short
      have suffix := Numeral.splitSign_isSuffix text
      have digits : ∀ c ∈ (Numeral.splitSign text).2, Text.isDigit c = true := fun c hc =>
        Numeral.isDigit_of_passes (ascii.of_isSuffix suffix c hc) (passing c hc)
      rw [← List.countP_eq_length.mpr digits]
      exact suffix.countP_le
    exact readsNumber_ofDecimal ascii read

/-- A text that is an integer where its letter is a digit, and a real number in decimal. -/
theorem numeric_text_accepted_exponent :
    let text := "-1E5".toList
    ofRadix text 36 = .ok (int .i64 (-1805) (by decide)) ∧
    (ofDecimal text).map Value.shown = .ok "-100000" ∧
    ReadsInteger 36 text (ofRadix text 36) ∧ ReadsNumber text (ofDecimal text) := by
  intro text
  have ascii : Text.Ascii text := fun c hc =>
    of_decide_eq_true (List.all_eq_true.mp (show text.all (·.toNat < 128) = true by decide) c hc)
  obtain ⟨integers, numbers⟩ := @numeric_text_accepted text ascii
  exact ⟨by decide +kernel, by decide +kernel, integers 36 (by decide) (by decide) (by decide),
    numbers (by decide)⟩

end Value

end Reckoner
