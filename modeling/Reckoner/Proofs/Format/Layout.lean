import Mathlib.Tactic.Common
import Reckoner.Format.Render
import Reckoner.Proofs.Numeral.Radix

/-!
# The layout of integers

A rendered integer is blanks, a sign and its digits in groups (`textOf_int`), and zeros are digits for that
matter.  Grouping digits only adds separators: the digits are still there in their order, the first of them
in front (`grouped_cons`), and leaving the separators out gives the digits back (`filter_grouped`).
-/

namespace Reckoner

/-- Digits look like none of the characters that stand around and between them. -/
theorem Base.not_mem_of_isDigitBelow {b : Base} {c : Char} (h : Numeral.IsDigitBelow b.radix c) :
    c ∉ ['_', ',', ' ', '-'] := by
  have all : ∀ d < 16, Nat.digitChar d ∉ ['_', ',', ' ', '-'] := by decide
  obtain ⟨d, below, rfl⟩ := h
  exact all d (Nat.lt_of_lt_of_le below b.radix_le)

namespace Format

/-! ## Groups -/

section Grouped

variable (separator : List Char) (size : Nat)

/-- The groups of the digits behind a digit, and how many digits these are. -/
def groupStep (c : Char) (later : Nat × List Char) : Nat × List Char :=
  (later.1 + 1, c :: if size ≠ 0 ∧ later.1 ≠ 0 ∧ later.1 % size = 0 then separator ++ later.2 else later.2)

theorem grouped_eq_foldr (digits : List Char) :
    grouped separator size digits = (digits.foldr (groupStep separator size) (0, [])).2 := rfl

theorem foldr_groupStep_fst (digits : List Char) :
    (digits.foldr (groupStep separator size) (0, [])).1 = digits.length := by
  induction digits with
  | nil => rfl
  | cons c cs ih => exact congrArg (· + 1) ih

/-- A digit is followed by the groups of the digits after it, behind a separator if these are groups of full
size. -/
theorem grouped_cons (c : Char) (cs : List Char) :
    grouped separator size (c :: cs) =
      c :: if size ≠ 0 ∧ cs.length ≠ 0 ∧ cs.length % size = 0 then
        separator ++ grouped separator size cs
      else grouped separator size cs := by
  rw [grouped_eq_foldr, grouped_eq_foldr, List.foldr_cons, groupStep, foldr_groupStep_fst]

/-- Groups without their separators are the digits, if no digit looks like a separator. -/
theorem filter_grouped {digits : List Char} {keeps : Char → Bool}
    (separators : ∀ c ∈ separator, keeps c = false) (kept : ∀ c ∈ digits, keeps c = true) :
    (grouped separator size digits).filter keeps = digits := by
  induction digits with
  | nil => rfl
  | cons c cs ih =>
    have later := ih fun d hd => kept d (List.mem_cons_of_mem c hd)
    have none : separator.filter keeps = [] :=
      List.filter_eq_nil_iff.mpr fun d hd => by simp [separators d hd]
    rw [grouped_cons, List.filter_cons_of_pos (kept c List.mem_cons_self)]
    split
    · rw [List.filter_append, none, List.nil_append, later]
    · rw [later]

end Grouped

/-! ## Filling -/

/-- The parts one after the other. -/
def Parts.text (parts : Parts) : List Char := parts.sign ++ (parts.whole ++ parts.tail)

/-- Zeros are filled in as many as the number lacks of the width. -/
theorem exists_filledWhole (format : Format) (parts : Parts) :
    ∃ zeros, format.filledWhole parts = List.replicate zeros '0' ++ parts.whole ∧
      zeros = if format.zeroPad then format.width - parts.text.length else 0 := by
  unfold filledWhole
  split
  case isTrue =>
    refine ⟨_, rfl, ?_⟩
    simp only [Parts.text, List.length_append]
    omega
  case isFalse => exact ⟨0, rfl, rfl⟩

/-! ## Integers -/

/-- Blanks in front of a text that begins with none are dropped. -/
theorem dropWhile_padLeft {width : Nat} {c : Char} (visible : c ≠ ' ') (cs : List Char) :
    (padLeft ' ' width (c :: cs)).dropWhile (· = ' ') = c :: cs := by
  have blanks : ∀ d ∈ List.replicate (width - (c :: cs).length) ' ', decide (d = ' ') = true :=
    fun d hd => decide_eq_true (List.eq_of_mem_replicate hd)
  rw [padLeft, List.dropWhile_append_of_pos blanks, List.dropWhile_cons_of_neg (by simpa using visible)]

section Integers

variable {format : Format} {o : IntOrder} {n : Int} {h : o.Fits n}

/-- The text of an integer is blanks, a sign and the groups of its digits, filled up with zeros. -/
theorem textOf_int (format : Format) (h : o.Fits n) :
    format.textOf (.int o n h) = padLeft ' ' format.width ((if n < 0 then ['-'] else []) ++
      grouped format.separator.text format.groupSize
        (format.filledWhole (Parts.ofInt format.base n))) := by
  change layOut format (Parts.ofInt format.base n) = _
  rw [layOut, Parts.ofInt, List.append_nil]

/-- The zeros that are filled in have room in the width. -/
theorem filledWhole_ofInt (format : Format) (n : Int) :
    ∃ zeros, zeros + (Nat.toDigits format.base.radix n.natAbs).length ≤
        max format.width (Nat.toDigits format.base.radix n.natAbs).length ∧
      format.filledWhole (Parts.ofInt format.base n) =
        List.replicate zeros '0' ++ Nat.toDigits format.base.radix n.natAbs := by
  obtain ⟨zeros, same, room⟩ := format.exists_filledWhole (Parts.ofInt format.base n)
  refine ⟨zeros, ?_, same⟩
  simp only [Parts.text, Parts.ofInt, List.length_append] at room
  split at room <;> omega

/-- A value is rendered in every format whose width can be filled, a double in base ten only. -/
theorem render_eq_ok {v : Value} (decimal : v.order = .double → format.base = .decimal)
    (narrow : format.width ≤ widthLimit) :
    format.render v = .ok (String.ofList (format.textOf v)) := by
  unfold render
  rw [if_neg fun other => other.2 (decimal other.1), if_neg (Nat.not_lt.mpr narrow)]

/-- An integer is rendered in every format whose width can be filled. -/
theorem render_int (narrow : format.width ≤ widthLimit) :
    format.render (.int o n h) = .ok (String.ofList (format.textOf (.int o n h))) :=
  render_eq_ok nofun narrow

end Integers

end Format

end Reckoner
