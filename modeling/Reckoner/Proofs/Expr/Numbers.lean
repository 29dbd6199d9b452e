import Reckoner.Expr.Evaluation
import Reckoner.Proofs.Expr.Steps
import Reckoner.Proofs.Token.Numerals
import Reckoner.Proofs.Value.Numerals

/-!
# Number tokens as literals

Tokens and literals have grammars of their own: the scanner measures a number off by its marker, its runs and
its exponent, and a literal strips its marker and its underscores and is then tried as an integer and as a
real number.  The two agree on every number token of a scan (`evaluate_number`).

Both shapes of a token come out as numerals.  Behind a marker stand digits of the base, with underscores
among them (`isNumeral_of_goesOn`), and no other number holds a letter that is a marker
(`marker_not_mem`), so that the base that a literal names is the one that the scanner saw.
-/

namespace Reckoner

open Numeral (IsNumeral Parts)
open Value (ReadsMarked ReadsDecimal)

namespace Number

/-- The text of a decimal number without the marker of its base and without underscores. -/
def unmarked : List Char → List Char
  | '0' :: 'd' :: rest => rest.filter (· ≠ '_')
  | cs => cs.filter (· ≠ '_')

/-! ## Digits behind a marker -/

theorem exists_base_of_isDigitIn {marker c : Char} (h : isDigitIn marker c = true) :
    ∃ b : Base, b.marker = marker := by
  unfold isDigitIn at h
  split at h
  case h_1 => exact ⟨.hex, rfl⟩
  case h_2 => exact ⟨.octal, rfl⟩
  case h_3 => exact ⟨.binary, rfl⟩
  case h_4 => exact ⟨.decimal, rfl⟩
  case h_5 => cases h

/-- The digits that the scanner admits behind a marker have values below the radix. -/
theorem exists_digit?_of_isDigitIn {b : Base} {c : Char} (h : isDigitIn b.marker c = true) :
    ∃ d < b.radix, Numeral.digit? c = some d := by
  cases b with
  | binary =>
    have own : c = '0' ∨ c = '1' := by simpa [isDigitIn, Base.marker] using h
    rcases own with rfl | rfl
    · exact ⟨0, by decide, by decide⟩
    · exact ⟨1, by decide, by decide⟩
  | octal =>
    have own : '0' ≤ c ∧ c ≤ '7' := by simpa [isDigitIn, Base.marker] using h
    have digit : Text.isDigit c = true :=
      Text.isDigit_iff_le.mpr ⟨own.1, Char.le_trans own.2 (by decide)⟩
    exact ⟨_, Numeral.sub_lt_of_le own.2 (by decide), Numeral.digit?_of_isDigit digit⟩
  | decimal =>
    exact ⟨_, Numeral.sub_lt_of_le (Text.isDigit_iff_le.mp h).2 (by decide), Numeral.digit?_of_isDigit h⟩
  | hex =>
    have own : (Text.isDigit c = true ∨ ('a' ≤ c ∧ c ≤ 'f')) ∨ ('A' ≤ c ∧ c ≤ 'F') := by
      simpa [isDigitIn, Base.marker] using h
    rcases own with (digit | ⟨first, last⟩) | ⟨first, last⟩
    · exact ⟨_, Numeral.sub_lt_of_le (Text.isDigit_iff_le.mp digit).2 (by decide),
        Numeral.digit?_of_isDigit digit⟩
    · exact ⟨_, Numeral.sub_lt_of_le last (by decide),
        Numeral.digit?_of_small first (Char.le_trans last (by decide))⟩
    · exact ⟨_, Numeral.sub_lt_of_le last (by decide),
        Numeral.digit?_of_large first (Char.le_trans last (by decide))⟩

/-- A run behind a marker is a numeral of the base when its underscores are left out. -/
theorem isNumeral_of_goesOn {b : Base} {run : List Char} (goes : ∀ c ∈ run, goesOn b.marker c = true)
    (digit : ∃ c ∈ run, isDigitIn b.marker c = true) :
    IsNumeral b.radix (run.filter (· ≠ '_')) := by
  have underscore : isDigitIn b.marker '_' = false := by cases b <;> decide
  refine ⟨?_, fun c hc => ?_⟩
  · obtain ⟨c, mem, own⟩ := digit
    refine List.ne_nil_of_mem (List.mem_filter.mpr ⟨mem, decide_eq_true ?_⟩)
    rintro rfl
    rw [underscore] at own
    cases own
  · obtain ⟨mem, other⟩ := List.mem_filter.mp hc
    have inside := goes c mem
    rw [goesOn, Bool.or_eq_true, decide_eq_true_eq] at inside
    exact exists_digit?_of_isDigitIn (inside.resolve_left (of_decide_eq_true other))

/-- No letter that marks a base occurs in a number without a marker. -/
theorem marker_not_mem {whole point ending : List Char} (h : Parts inRun whole point ending) (b : Base) :
    b.marker ∉ whole ++ (point ++ ending) := by
  intro mem
  have other : ¬ (inRun b.marker = true ∨ Numeral.IsPlain b.marker) := by cases b <;> decide
  exact other (h.isPlain_or _ mem)

theorem unmarked_of_not_mem {text : List Char} (none : 'd' ∉ text) :
    unmarked text = text.filter (· ≠ '_') := by
  unfold unmarked
  split
  case h_1 => exact absurd none (by simp)
  case h_2 => rfl

end Number

/-! ## The literals of the two shapes -/

section Shapes

open Number (Shape)

theorem readsMarked_ofLiteral {b : Base} (other : b ≠ .decimal) {run : List Char}
    (shape : Shape ('0' :: b.marker :: run)) :
    ReadsMarked b (run.filter (· ≠ '_')) (Value.ofLiteral b ('0' :: b.marker :: run)) := by
  have numeral : IsNumeral b.radix (run.filter (· ≠ '_')) := by
    generalize written : '0' :: b.marker :: run = text at shape
    cases shape with
    | marked goes digit =>
      obtain ⟨-, rest⟩ := List.cons.inj written
      obtain ⟨rfl, rfl⟩ := List.cons.inj rest
      exact Number.isNumeral_of_goesOn goes digit
    | decimal parts =>
      refine absurd ?_ (Number.marker_not_mem parts b)
      rw [← written]
      exact List.mem_cons_of_mem _ List.mem_cons_self
  have literal : Value.ofLiteral b ('0' :: b.marker :: run) =
      Value.ofRadix (run.filter (· ≠ '_')) b.radix := by
    rw [← Value.bare_marked b run]
    cases b with
    | decimal => exact absurd rfl other
    | binary | octal | hex => rfl
  rw [literal]
  refine Value.readsMarked_ofRadix numeral ?_
  cases b with
  | decimal => exact absurd rfl other
  | binary | octal | hex => rfl

theorem readsDecimal_ofLiteral {text : List Char} (shape : Shape text)
    (other : ∀ b : Base, b ≠ .decimal → ¬ ['0', b.marker] <+: text)
    (short : (Number.unmarked text).countP Text.isDigit ≤ Numeral.digitLimit) :
    ReadsDecimal (Number.unmarked text) (Value.ofLiteral .decimal text) := by
  change ReadsDecimal _ (Value.ofDecimal (Value.bare .decimal text))
  cases shape with
  | @marked marker run goes digit =>
    obtain ⟨c, mem, digit⟩ := digit
    obtain ⟨b, rfl⟩ := Number.exists_base_of_isDigitIn digit
    obtain rfl : b = .decimal := by
      by_contra ne
      exact other b ne (List.prefix_append ['0', b.marker] run)
    have parts : Parts Text.isDigit (run.filter (· ≠ '_')) [] [] := by
      refine ⟨Number.isDigit_of_mem_filter goes, .absent, .absent, c, ?_, digit⟩
      rw [List.append_nil]
      exact Number.mem_filter_of_isDigit mem digit
    have read := Value.readsDecimal_ofDecimal parts
    rw [List.append_nil, List.append_nil] at read
    rw [Value.bare_marked]
    exact read short
  | decimal parts =>
    have none := Number.marker_not_mem parts .decimal
    obtain ⟨parts, left⟩ := parts.filter
    rw [Number.unmarked_of_not_mem none, left] at short ⊢
    rw [Value.bare_of_not_mem none, left]
    exact Value.readsDecimal_ofDecimal parts short

end Shapes

namespace Expr

/-- Every number token of a scan, as the parser takes it, gives the number that it writes.  Behind a marker
of base two, eight or sixteen it gives the number of its digits, or cannot be read if that is too large.
Else, with not too many digits to be read, it always gives a value: an integer if it has neither point nor
exponent and an unsigned order holds it, and otherwise the double that its text freely stands for. -/
theorem evaluate_number {source : List Char} {tokens : List Token}
    (scanned : Token.scan source = .ok tokens) {t : Token} (mem : t ∈ tokens) (number : t.kind = .number)
    (history : History) :
    (∀ b : Base, b ≠ .decimal → ∀ run, t.text.toList = '0' :: b.marker :: run →
      ReadsMarked b (run.filter (· ≠ '_')) ((ParseState.literalOf t.text).evaluate history).outcome) ∧
    ((∀ b : Base, b ≠ .decimal → ¬ ['0', b.marker] <+: t.text.toList) →
      (Number.unmarked t.text.toList).countP Text.isDigit ≤ Numeral.digitLimit →
        ReadsDecimal (Number.unmarked t.text.toList)
          ((ParseState.literalOf t.text).evaluate history).outcome) := by
  obtain ⟨words, rfl, steps⟩ := Token.scan_eq_ok_iff.mp scanned
  have own : t ∈ words := by
    rcases List.mem_append.mp mem with own | last
    · exact own
    · obtain rfl := List.mem_singleton.mp last
      cases number
  have word : Token.IsWord .number t.text := number ▸ steps.isWord t own
  have literal : ((ParseState.literalOf t.text).evaluate history).outcome =
      Value.ofLiteral (Base.named t.text.toList) t.text.toList := by
    rw [ParseState.literalOf_eq]
    rfl
  rw [literal]
  refine ⟨fun b other run written => ?_, fun unmarked short => ?_⟩
  · have shape := word.shape
    rw [written] at shape ⊢
    rw [Base.named_marked]
    exact readsMarked_ofLiteral other shape
  · rw [Base.named_of_unmarked unmarked]
    exact readsDecimal_ofLiteral word.shape unmarked short

theorem evaluate_number_thirty_one :
    ∃ tokens, Token.scan "0x1_F*1_.5_".toList = .ok tokens ∧
      (∃ t ∈ tokens, t.kind = .number ∧ t.text = "0x1_F" ∧
        ((ParseState.literalOf t.text).evaluate #[]).outcome = .ok (.int .u64 31 (by decide))) ∧
      (∃ t ∈ tokens, t.kind = .number ∧ t.text = "1_.5_" ∧
        ∃ x, Numeral.readLoosely "1.5".toList = some x ∧
          ((ParseState.literalOf t.text).evaluate #[]).outcome = .ok (.double x)) := by
  have scanned : Token.scan "0x1_F*1_.5_".toList = .ok [⟨.number, "0x1_F", 0, 5⟩,
      ⟨.operator, "*", 5, 6⟩, ⟨.number, "1_.5_", 6, 11⟩, Token.finishAt 11] := by decide +kernel
  refine ⟨_, scanned, ⟨⟨.number, "0x1_F", 0, 5⟩, by decide, rfl, rfl, ?_⟩,
    ⟨⟨.number, "1_.5_", 6, 11⟩, by decide, rfl, rfl, ?_⟩⟩
  · have marked := (evaluate_number scanned (t := ⟨.number, "0x1_F", 0, 5⟩) (by decide) rfl #[]).1
      .hex (by decide) "1_F".toList (by decide)
    obtain ⟨v, read, fits, rfl⟩ := marked.small (by decide)
    exact read
  · have decimal := (evaluate_number scanned (t := ⟨.number, "1_.5_", 6, 11⟩) (by decide) rfl #[]).2
      (by intro b; cases b <;> decide) (by decide)
    exact decimal.real (.inl (by decide))

end Expr

end Reckoner
