import Reckoner.Proofs.Token.Digits
import Reckoner.Proofs.Value.Range

/-!
# Reading literals

A literal of ASCII characters is read, or it is unreadable: numeral reading never breaks off
(`onlyUnreadable_ofLiteral`).  The ways to break off are closed one by one.  The bases of literals are
admissible radixes.  Only letters outside the ASCII characters pass for digits or words without having a
value.  And a text of more digits than the limit is refused only in decimal, where all of it are digits;
leaving out underscores and the base marker leaves a row of digits that the source holds too, with its
underscores (`exists_run_of_isSuffix`).
-/

namespace Reckoner

theorem Text.Ascii.of_isSuffix {cs part : List Char} (h : Text.Ascii cs) (suffix : part <:+ cs) :
    Text.Ascii part := fun c hc => h c (suffix.subset hc)

namespace Numeral

theorem splitSign_isSuffix (text : List Char) : (splitSign text).2 <:+ text := by
  unfold splitSign
  split
  · exact List.suffix_cons _ _
  · exact List.suffix_cons _ _
  · exact List.suffix_rfl

/-- An ASCII character that passes for a digit has a value. -/
theorem exists_digit?_of_passes {radix : Int} {c : Char} (ascii : c.toNat < 128)
    (h : passes radix c = true) : ∃ d, digit? c = some d ∧ d < admitted radix := by
  have other : c ≠ kelvinSign := by
    rintro rfl
    exact absurd ascii (by decide)
  rw [passes, if_neg other] at h
  cases read : digit? c with
  | none => rw [read] at h; cases h
  | some d => rw [read] at h; exact ⟨d, rfl, of_decide_eq_true h⟩

/-- The digits below ten are the decimal ones. -/
theorem isDigit_of_passes {c : Char} (ascii : c.toNat < 128) (h : passes 10 c = true) :
    Text.isDigit c = true := by
  obtain ⟨d, read, below⟩ := exists_digit?_of_passes ascii h
  replace below : d < 10 := below
  by_contra other
  rw [digit?, if_neg other] at read
  -- The letters have values from ten on.
  split at read
  case isTrue letter =>
    have code : 'a'.toNat ≤ c.toNat := by
      simp only [Bool.and_eq_true, decide_eq_true_eq] at letter
      exact letter.1
    have code' : 97 ≤ c.toNat := code
    obtain rfl := Option.some.inj read
    omega
  case isFalse =>
    split at read
    case isTrue letter =>
      have code : 'A'.toNat ≤ c.toNat := by
        simp only [Bool.and_eq_true, decide_eq_true_eq] at letter
        exact letter.1
      have code' : 65 ≤ c.toNat := code
      obtain rfl := Option.some.inj read
      omega
    case isFalse => cases read

/-- Of ASCII characters, a row of digits that is too long is all that integers are not read from. -/
theorem tooLong_of_readInteger {text : List Char} {radix : Int} {cause : Unreadable}
    (ascii : Text.Ascii text) (admissible : 2 ≤ radix ∧ radix ≤ 36)
    (h : readInteger text radix = .error cause) :
    isPowerOfTwo radix = false ∧ (∀ c ∈ (splitSign text).2, passes radix c = true) ∧
      digitLimit < (splitSign text).2.length := by
  unfold readInteger at h
  simp only at h
  split at h
  · cases h
  case isFalse digits =>
    rw [Bool.or_eq_true, not_or, Bool.not_eq_true, Bool.not_eq_true', Bool.not_eq_false] at digits
    have passing := List.all_eq_true.mp digits.2
    have valued : (splitSign text).2.takeWhile (fun c => (digit? c).isSome) = (splitSign text).2 := by
      refine List.takeWhile_eq_self_iff.mpr fun c hc => ?_
      have own := ascii.of_isSuffix (splitSign_isSuffix text) c hc
      obtain ⟨d, read, -⟩ := exists_digit?_of_passes own (passing c hc)
      rw [read]
      rfl
    rw [if_neg (by omega), valued] at h
    split at h
    case isTrue long =>
      rw [Bool.and_eq_true, decide_eq_true_eq, Bool.not_eq_true'] at long
      exact ⟨long.2, passing, long.1⟩
    case isFalse =>
      rw [if_neg (Nat.lt_irrefl _)] at h
      cases h

/-- A word of ASCII characters has a value if it is recognised. -/
theorem readWord_ne_valueless {cs : List Char} (ascii : Text.Ascii cs) :
    readWord cs ≠ some .valueless := by
  have plain : cs.all (fun c => c.toNat < 128) = true :=
    List.all_eq_true.mpr fun c hc => decide_eq_true (ascii c hc)
  unfold readWord
  simp only [plain, if_true]
  split
  · exact fun h => nomatch h
  · split <;> exact fun h => nomatch h

theorem readBody_ne_valueless {cs : List Char} (ascii : Text.Ascii cs) :
    readBody cs ≠ some .valueless := by
  unfold readBody
  split
  case h_1 digits places rest _ =>
    cases readExponent rest with
    | none => exact fun h => nomatch h
    | some e => exact fun h => nomatch h
  case h_2 => exact readWord_ne_valueless ascii

/-- A real number of ASCII characters is a double. -/
theorem exists_toDouble?_of_readReal {text : List Char} (ascii : Text.Ascii text) {negative : Bool}
    {body : RealBody} (h : readReal text = some (negative, body)) :
    ∃ x, body.toDouble? negative = some x := by
  unfold readReal at h
  obtain ⟨own, read, same⟩ := Option.map_eq_some_iff.mp h
  obtain rfl : own = body := (Prod.mk.inj same).2
  cases own with
  | decimal m e => exact ⟨_, rfl⟩
  | infinity => exact ⟨_, rfl⟩
  | nan => exact ⟨_, rfl⟩
  | valueless =>
    exact absurd read (readBody_ne_valueless (ascii.of_isSuffix (splitSign_isSuffix text)))

end Numeral

/-! ## Runs in a literal -/

/-- Digits at the end of a text without its underscores are those of a run at the end of the text. -/
theorem exists_run_of_isSuffix {text digits : List Char} (suffix : digits <:+ text.filter (· ≠ '_'))
    (decimal : ∀ c ∈ digits, Text.isDigit c = true) :
    ∃ run, run <:+ text ∧ (∀ c ∈ run, Number.inRun c = true) ∧
      run.countP Text.isDigit = digits.length := by
  obtain ⟨before, split⟩ := suffix
  obtain ⟨first, run, rfl, -, kept⟩ := List.filter_eq_append_iff.mp split.symm
  refine ⟨run, List.suffix_append _ _, fun c hc => ?_, ?_⟩
  · rw [Number.inRun, Bool.or_eq_true, decide_eq_true_eq]
    by_cases underscore : c = '_'
    · exact Or.inl underscore
    · exact Or.inr (decimal c (kept ▸ List.mem_filter.mpr ⟨hc, decide_eq_true underscore⟩))
  · -- No digit is an underscore, so none is left out.
    have digit : ∀ c, Text.isDigit c = true → c ≠ '_' := by
      rintro _ own rfl
      exact absurd own (by decide)
    have all : digits.countP Text.isDigit = digits.length := List.countP_eq_length.mpr decimal
    rw [← all, ← kept, List.countP_filter]
    refine List.countP_congr fun c _ => ?_
    simp only [Bool.and_eq_true, decide_eq_true_eq]
    exact ⟨fun own => ⟨own, digit c own⟩, And.left⟩

namespace Value

theorem bare_isSuffix (base : Base) (text : List Char) : bare base text <:+ text.filter (· ≠ '_') := by
  unfold bare
  split
  case h_1 c rest kept =>
    rw [kept]
    split
    · exact (List.suffix_cons c rest).trans (List.suffix_cons '0' _)
    · exact List.suffix_rfl
  case h_2 => exact List.suffix_rfl

/-! ## Literals fail as unreadable only -/

/-- The computation fails only because a text cannot be read as a value. -/
abbrev OnlyUnreadable {α : Type} (r : Except Fault α) : Prop :=
  FailsOnly (fun fault => fault.kind = .unreadable) r

/-- An integer is read or not, if its digits are not too many. -/
theorem readInteger?_ok {text : List Char} {radix : Int} (ascii : Text.Ascii text)
    (admissible : 2 ≤ radix ∧ radix ≤ 36)
    (short : Numeral.isPowerOfTwo radix = false →
      (∀ c ∈ (Numeral.splitSign text).2, Numeral.passes radix c = true) →
        (Numeral.splitSign text).2.length ≤ Numeral.digitLimit) :
    ∃ found, readInteger? text radix = .ok found := by
  unfold readInteger?
  cases read : Numeral.readInteger text radix with
  | ok n => exact ⟨_, rfl⟩
  | error cause =>
    obtain ⟨other, passing, long⟩ := Numeral.tooLong_of_readInteger ascii admissible read
    exact absurd (short other passing) (Nat.not_le.mpr long)

theorem onlyUnreadable_ofRadix {text : List Char} {radix : Int} (ascii : Text.Ascii text)
    (admissible : 2 ≤ radix ∧ radix ≤ 36) (power : Numeral.isPowerOfTwo radix = true) :
    OnlyUnreadable (ofRadix text radix) := by
  obtain ⟨found, read⟩ := readInteger?_ok ascii admissible fun other => by rw [power] at other; cases other
  unfold ofRadix
  rw [read]
  cases found with
  | some v => exact failsOnly_ok v
  | none => exact failsOnly_error.mpr rfl

theorem onlyUnreadable_ofDecimal {text : List Char} (ascii : Text.Ascii text)
    (short : (∀ c ∈ (Numeral.splitSign text).2, Text.isDigit c = true) →
      (Numeral.splitSign text).2.length ≤ Numeral.digitLimit) : OnlyUnreadable (ofDecimal text) := by
  have digits (passing : ∀ c ∈ (Numeral.splitSign text).2, Numeral.passes 10 c = true) :
      ∀ c ∈ (Numeral.splitSign text).2, Text.isDigit c = true := fun c hc =>
    Numeral.isDigit_of_passes (ascii.of_isSuffix (Numeral.splitSign_isSuffix text) c hc) (passing c hc)
  obtain ⟨found, read⟩ := readInteger?_ok ascii (by decide) fun _ passing => short (digits passing)
  unfold ofDecimal
  rw [read]
  cases found with
  | some v => exact failsOnly_ok v
  | none =>
    cases real : Numeral.readReal text with
    | none => exact failsOnly_error.mpr rfl
    | some parts =>
      obtain ⟨negative, body⟩ := parts
      obtain ⟨x, valued⟩ := Numeral.exists_toDouble?_of_readReal ascii real
      simp only [bind, Except.bind, valued]
      exact failsOnly_ok _

/-- A literal of ASCII characters whose runs of digits are not too long is read, or it is unreadable. -/
theorem onlyUnreadable_ofLiteral {text : List Char} (ascii : Text.Ascii text)
    (short : Number.RunsWithin Numeral.digitLimit text) (base : Base) : OnlyUnreadable (ofLiteral base text) := by
  have kept : Text.Ascii (text.filter (· ≠ '_')) := fun c hc => ascii c (List.mem_of_mem_filter hc)
  have bareAscii := kept.of_isSuffix (bare_isSuffix base text)
  have limited (decimal : ∀ c ∈ (Numeral.splitSign (bare base text)).2, Text.isDigit c = true) :
      (Numeral.splitSign (bare base text)).2.length ≤ Numeral.digitLimit := by
    have suffix := (Numeral.splitSign_isSuffix (bare base text)).trans (bare_isSuffix base text)
    obtain ⟨run, inside, characters, count⟩ := exists_run_of_isSuffix suffix decimal
    rw [← count]
    exact short.countP_le inside.isInfix characters
  cases base with
  | decimal => exact onlyUnreadable_ofDecimal bareAscii limited
  | binary | octal | hex => exact onlyUnreadable_ofRadix bareAscii (by decide) (by decide)

end Value

end Reckoner
