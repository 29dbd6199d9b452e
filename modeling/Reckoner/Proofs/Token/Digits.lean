import Mathlib.Data.List.Infix
import Reckoner.Proofs.Numeral.Decimal
import Reckoner.Proofs.Token.Coverage

/-!
# Runs of digits

How many digits a source holds in a row decides whether its numbers and indices can be read.  `RunsWithin`
bounds the digits of every run of digits and underscores of a text.  A run within a part of the text is
within a run of the text, so the bound passes on from a source to its tokens (`RunsWithin.of_isInfix`,
`Scans.text_isInfix`).
-/

namespace Reckoner

/-- All characters of the text are below code point 128. -/
def Text.Ascii (cs : List Char) : Prop := ∀ c ∈ cs, c.toNat < 128

instance (cs : List Char) : Decidable (Text.Ascii cs) := inferInstanceAs (Decidable (∀ c ∈ cs, _))

namespace Number

/-- The characters of runs. -/
def inRun (c : Char) : Bool := c = '_' || Text.isDigit c

/-- How many digits stand in the run at the beginning of a text. -/
def leadingDigits (cs : List Char) : Nat := (cs.takeWhile inRun).countP Text.isDigit

/-- No run of digits and underscores holds more digits than the limit, wherever in the text it begins. -/
def RunsWithin (limit : Nat) (cs : List Char) : Prop := ∀ rest ∈ cs.tails, leadingDigits rest ≤ limit

instance (limit : Nat) (cs : List Char) : Decidable (RunsWithin limit cs) :=
  inferInstanceAs (Decidable (∀ rest ∈ cs.tails, _))

section Runs

variable {limit : Nat} {cs part : List Char}

/-- A run anywhere in the text holds no more digits than the limit. -/
theorem RunsWithin.countP_le (h : RunsWithin limit cs) (inside : part <:+: cs)
    (run : ∀ c ∈ part, inRun c = true) : part.countP Text.isDigit ≤ limit := by
  obtain ⟨before, after, rfl⟩ := inside
  have begins : part ++ after ∈ (before ++ part ++ after).tails := by
    rw [List.mem_tails, List.append_assoc]
    exact List.suffix_append _ _
  have whole := h _ begins
  rw [leadingDigits, List.takeWhile_append_of_pos run, List.countP_append] at whole
  exact Nat.le_of_add_right_le whole

theorem RunsWithin.of_isInfix (h : RunsWithin limit cs) (inside : part <:+: cs) :
    RunsWithin limit part := by
  intro rest begins
  have first : rest.takeWhile inRun <:+: rest := (List.takeWhile_prefix _).isInfix
  have last : rest <:+: part := ((List.mem_tails _ _).mp begins).isInfix
  exact h.countP_le ((first.trans last).trans inside) fun c hc => List.mem_takeWhile_imp hc

end Runs

end Number

namespace Token

/-- A lexeme that is a number is as long as that number. -/
theorem numberLength_of_lexeme {c : Char} {cs : List Char} {n : Nat}
    (read : lexeme (c :: cs) = some (.number, n)) : Number.numberLength (c :: cs) = n + 1 := by
  unfold lexeme at read
  grind

/-- The text of a token is a part of the source. -/
theorem Scans.text_isInfix {place : Nat} {cs : List Char} {tokens : List Token}
    (h : Scans place cs tokens) {t : Token} (ht : t ∈ tokens) : t.text.toList <:+: cs := by
  rw [h.covers.text t ht]
  exact (List.take_prefix _ _).isInfix.trans (List.drop_suffix _ _).isInfix

end Token

end Reckoner
