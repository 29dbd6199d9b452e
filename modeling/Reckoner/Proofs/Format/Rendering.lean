import Mathlib.Data.List.Basic
import Reckoner.Proofs.Double.Writing
import Reckoner.Proofs.Format.Layout

/-!
# The layout of values

A value that is no number is a word, and the word is only brought to the width.  A number is written as its
sign, its whole part and what follows it (`Parts.Written`), and `LaidOut` says what a format makes of these:
zeros in front of the whole part or blanks in front of everything, and the whole part in groups
(`IsGrouped`), from the right and each of full size but the first.

Every value has exactly one text that is laid out in this way (`render_laidOut`).  The groups are told by their
lengths: digits can be cut into full groups behind a first one (`exists_groups`), and grouping puts
separators at the cuts (`grouped_flatten`).
-/

namespace Reckoner

theorem Separator.text_subset (s : Separator) : s.text ⊆ ['_', ',', ' ', '-'] := by
  cases s <;> decide

namespace Format

open Numeral (IsPoint IsDigitBelow)

/-! ## Groups -/

/-- The digits in groups of a size, counted from the right, with the separator between them. -/
structure IsGrouped (separator : Separator) (size : Nat) (digits groups : List Char) : Prop where
  /-- Without separators the digits are left. -/
  deleted : groups.filter (· ∉ separator.text) = digits
  /-- All groups but the first are full. -/
  split : separator ≠ .none → 1 ≤ size → ∃ first rest,
    groups = List.intercalate separator.text (first :: rest) ∧ (first :: rest).flatten = digits ∧
      1 ≤ first.length ∧ first.length ≤ size ∧ ∀ group ∈ rest, group.length = size
  /-- No separator is in front of the digits. -/
  front : ∀ c ∈ groups.head?, c ∉ separator.text
  /-- No separator is behind the digits. -/
  behind : ∀ c ∈ groups.getLast?, c ∉ separator.text
  /-- There may be no groups at all. -/
  plain : separator = .none ∨ size = 0 → groups = digits

section Grouped

variable {separator : List Char} {size : Nat} {digits : List Char}

theorem grouped_none (size : Nat) (digits : List Char) : grouped [] size digits = digits := by
  induction digits with
  | nil => rfl
  | cons c cs ih => rw [grouped_cons, List.nil_append, ite_self, ih]

theorem grouped_zero (separator digits : List Char) : grouped separator 0 digits = digits := by
  induction digits with
  | nil => rfl
  | cons c cs ih => rw [grouped_cons, if_neg fun full => full.1 rfl, ih]

theorem grouped_ne_nil (ne : digits ≠ []) : grouped separator size digits ≠ [] := by
  cases digits with
  | nil => exact absurd rfl ne
  | cons c cs =>
    rw [grouped_cons]
    exact List.cons_ne_nil _ _

theorem head?_grouped : (grouped separator size digits).head? = digits.head? := by
  cases digits with
  | nil => rfl
  | cons c cs => rw [grouped_cons, List.head?_cons, List.head?_cons]

theorem getLast?_grouped : (grouped separator size digits).getLast? = digits.getLast? := by
  induction digits with
  | nil => rfl
  | cons c cs ih =>
    cases cs with
    | nil => rw [grouped_cons, if_neg fun full => full.2.1 rfl]; rfl
    | cons d ds =>
      have later : grouped separator size (d :: ds) ≠ [] := grouped_ne_nil (List.cons_ne_nil d ds)
      rw [grouped_cons, List.getLast?_cons_of_ne_nil (List.cons_ne_nil d ds), ← ih]
      split
      · rw [← List.cons_append, List.getLast?_append_of_ne_nil _ later]
      · exact List.getLast?_cons_of_ne_nil later

/-- How many digits full groups have. -/
theorem length_flatten_full {groups : List (List Char)} (full : ∀ group ∈ groups, group.length = size) :
    groups.flatten.length = size * groups.length := by
  induction groups with
  | nil => rfl
  | cons group groups ih =>
    rw [List.flatten_cons, List.length_append, full group List.mem_cons_self,
      ih fun g hg => full g (List.mem_cons_of_mem _ hg), List.length_cons, Nat.mul_succ, Nat.add_comm]

/-- Digits fall into groups, and all but the first are full. -/
theorem exists_groups (positive : 1 ≤ size) (ne : digits ≠ []) :
    ∃ first rest, (first :: rest).flatten = digits ∧ 1 ≤ first.length ∧ first.length ≤ size ∧
      ∀ group ∈ rest, group.length = size := by
  induction digits with
  | nil => exact absurd rfl ne
  | cons c cs ih =>
    by_cases none : cs = []
    · subst none
      exact ⟨[c], [], rfl, Nat.le_refl 1, positive, nofun⟩
    · obtain ⟨first, rest, whole, nonempty, small, full⟩ := ih none
      -- The digit begins a group of its own if the first group is full, and else it joins that group.
      by_cases filled : first.length = size
      · exact ⟨[c], first :: rest, congrArg (c :: ·) whole, Nat.le_refl 1, positive,
          List.forall_mem_cons.mpr ⟨filled, full⟩⟩
      · refine ⟨c :: first, rest, congrArg (c :: ·) whole, Nat.le_add_left 1 _, ?_, full⟩
        rw [List.length_cons]
        omega

/-- A first group stands in front of full groups, with a separator if there are any. -/
theorem grouped_append {first later : List Char} (nonempty : 1 ≤ first.length) (small : first.length ≤ size)
    (full : later.length % size = 0) :
    grouped separator size (first ++ later) =
      first ++ if later.length ≠ 0 then separator ++ grouped separator size later else [] := by
  induction first with
  | nil => exact absurd nonempty (by decide)
  | cons c cs ih =>
    rw [List.cons_append, grouped_cons]
    by_cases last : cs = []
    · subst last
      cases later with
      | nil => rw [if_neg fun begins => begins.2.1 rfl, if_neg (not_not_intro List.length_nil)]; rfl
      | cons d ds =>
        have begins : (d :: ds).length ≠ 0 := Nat.succ_ne_zero _
        rw [List.nil_append, if_pos ⟨by omega, begins, full⟩, if_pos begins]
        rfl
    · have inside : cs.length ≠ 0 := fun none => last (List.length_eq_zero_iff.mp none)
      rw [List.length_cons] at small
      have joins : (cs ++ later).length % size ≠ 0 := by
        rw [List.length_append, Nat.add_mod, full, Nat.add_zero, Nat.mod_mod, Nat.mod_eq_of_lt small]
        exact inside
      rw [if_neg fun begins => joins begins.2.2, ih (by omega) (by omega), List.cons_append]

/-- Groups of which all but the first are full are what their digits are grouped into. -/
theorem grouped_flatten {first : List Char} {rest : List (List Char)} (nonempty : 1 ≤ first.length)
    (small : first.length ≤ size) (full : ∀ group ∈ rest, group.length = size) :
    grouped separator size (first :: rest).flatten = List.intercalate separator (first :: rest) := by
  induction rest generalizing first with
  | nil =>
    have none : ([] : List (List Char)).flatten.length % size = 0 := Nat.zero_mod size
    rw [List.flatten_cons, grouped_append nonempty small none, List.intercalate_singleton]
    exact List.append_nil first
  | cons group rest ih =>
    have own : group.length = size := full group List.mem_cons_self
    have length : (group :: rest).flatten.length = size * (rest.length + 1) := length_flatten_full full
    have some : (group :: rest).flatten.length ≠ 0 := by
      rw [length]
      exact Nat.mul_ne_zero (by omega) (Nat.succ_ne_zero _)
    rw [List.flatten_cons, grouped_append nonempty small (by rw [length, Nat.mul_mod_right]), if_pos some,
      ih (by omega) (by omega) fun g hg => full g (List.mem_cons_of_mem _ hg), List.intercalate_cons_cons,
      List.append_assoc]

/-- Digits are grouped as they should be, unless one of them is a separator. -/
theorem isGrouped_grouped {separator : Separator} (size : Nat) (ne : digits ≠ [])
    (own : ∀ c ∈ digits, c ∉ separator.text) :
    IsGrouped separator size digits (grouped separator.text size digits) where
  deleted := filter_grouped _ _ (fun c hc => decide_eq_false (not_not_intro hc)) fun c hc =>
    decide_eq_true (own c hc)
  split := by
    intro _ positive
    obtain ⟨first, rest, whole, nonempty, small, full⟩ := exists_groups positive ne
    exact ⟨first, rest, whole ▸ grouped_flatten nonempty small full, whole, nonempty, small, full⟩
  front := fun c hc => own c (List.mem_of_mem_head? (head?_grouped ▸ hc))
  behind := fun c hc => own c (List.mem_of_mem_getLast? (getLast?_grouped ▸ hc))
  plain := by
    rintro (rfl | rfl)
    · exact grouped_none size digits
    · exact grouped_zero _ digits

/-- There is no other way to group them. -/
theorem IsGrouped.eq_grouped {separator : Separator} {groups : List Char}
    (h : IsGrouped separator size digits groups) : groups = grouped separator.text size digits := by
  by_cases plain : separator = .none ∨ size = 0
  · rw [h.plain plain]
    rcases plain with rfl | rfl
    · exact (grouped_none size digits).symm
    · exact (grouped_zero _ digits).symm
  · rw [not_or] at plain
    obtain ⟨first, rest, rfl, rfl, nonempty, small, full⟩ := h.split plain.1 (by omega)
    exact (grouped_flatten nonempty small full).symm

/-- Grouping leaves no digit out. -/
theorem IsGrouped.length_le {separator : Separator} {groups : List Char}
    (h : IsGrouped separator size digits groups) : digits.length ≤ groups.length := by
  rw [← h.deleted]
  exact List.length_filter_le _ groups

end Grouped

/-! ## Parts -/

namespace Parts

/-- The parts of a number: the sign and the digits of an integer in a base, and what the text of a finite
double consists of, its point being the first character after the whole part. -/
inductive Written (base : Base) : Value → Parts → Prop where
  | int {o : IntOrder} {n : Int} {h : o.Fits n} :
    Written base (.int o n h)
      { sign := if n < 0 then ['-'] else [], whole := Nat.toDigits base.radix n.natAbs, tail := [] }
  | double {x : Double} {parts : Parts} (finite : x.isFinite = true)
      (sign : parts.sign = if x.isNegative then ['-'] else []) (ne : parts.whole ≠ [])
      (whole : ∀ c ∈ parts.whole, Text.isDigit c = true) (tail : IsPoint Text.isDigit parts.tail)
      (text : parts.text = (x.write .plain).toList) : Written base (.double x) parts

section Written

variable {base : Base} {v : Value} {parts : Parts}

theorem Written.ne_nil (h : parts.Written base v) : parts.whole ≠ [] := by
  cases h with
  | int => exact Nat.toDigits_ne_nil
  | double _ _ ne => exact ne

/-- Whatever the base, the digits of the whole part are those of the greatest base. -/
theorem Written.isDigitBelow (h : parts.Written base v) :
    ∀ c ∈ parts.whole, IsDigitBelow Base.hex.radix c := by
  intro c hc
  cases h with
  | int =>
    obtain ⟨d, below, same⟩ := Numeral.isDigitBelow_of_mem_toDigits base.one_lt_radix hc
    exact ⟨d, Nat.lt_of_lt_of_le below base.radix_le, same⟩
  | double _ _ _ whole =>
    have decimal := whole c hc
    have range := Text.isDigit_iff.mp decimal
    have small : c.toNat - 48 < Base.hex.radix := by
      change c.toNat - 48 < 16
      omega
    exact ⟨c.toNat - 48, small, (Numeral.digitChar_of_isDigit decimal).symm⟩

end Written

/-- A text is taken apart behind its sign and before its point. -/
theorem ofText_append (negative : Bool) {whole tail : List Char} (ne : whole ≠ [])
    (decimal : ∀ c ∈ whole, Text.isDigit c = true) (point : IsPoint Text.isDigit tail) :
    Parts.ofText ((if negative then ['-'] else []) ++ (whole ++ tail)) =
      ⟨if negative then ['-'] else [], whole, tail⟩ := by
  have plain : ∀ c ∈ whole, decide (c ≠ '.') = true := by
    rintro c hc
    refine decide_eq_true ?_
    rintro rfl
    exact absurd (decimal '.' hc) (by decide)
  have front : (whole ++ tail).takeWhile (· ≠ '.') = whole := by
    rw [List.takeWhile_append_of_pos plain]
    cases point <;> exact List.append_nil whole
  have behind : (whole ++ tail).dropWhile (· ≠ '.') = tail := by
    rw [List.dropWhile_append_of_pos plain]
    cases point <;> rfl
  cases negative with
  | true =>
    change Parts.mk ['-'] ((whole ++ tail).takeWhile (· ≠ '.')) ((whole ++ tail).dropWhile (· ≠ '.')) = _
    rw [front, behind]
    rfl
  | false =>
    cases whole with
    | nil => exact absurd rfl ne
    | cons c cs =>
      have unsigned : c ≠ '-' := by
        rintro rfl
        exact absurd (decimal '-' List.mem_cons_self) (by decide)
      unfold Parts.ofText
      split
      next found =>
        split at found
        case h_1 same => exact absurd (List.cons.inj same).1 unsigned
        case h_2 =>
          obtain ⟨rfl, rfl⟩ := Prod.mk.inj found
          exact congrArg₂ (Parts.mk []) front behind

/-- The parts of a value are those it is written with. -/
theorem partsOf_eq_some_iff {format : Format} {v : Value} {parts : Parts} :
    format.partsOf v = some parts ↔ parts.Written format.base v := by
  constructor
  · intro h
    cases v with
    | int o n fits =>
      obtain rfl := Option.some.inj h
      exact .int
    | double x =>
      obtain ⟨finite, same⟩ := Option.ite_none_right_eq_some.mp h
      obtain ⟨whole, tail, text, ne, decimal, point⟩ := Double.write_plain finite
      rw [text, ofText_append x.isNegative ne decimal point] at same
      obtain rfl := Option.some.inj same
      exact .double finite rfl ne decimal point text.symm
  · intro written
    cases written with
    | int => rfl
    | @double x parts finite sign ne decimal point text =>
      rw [partsOf, if_pos finite, ← text, Parts.text, sign, ofText_append x.isNegative ne decimal point, ← sign]

end Parts

/-! ## Layout -/

/-- How a value stands in a format. -/
inductive LaidOut (format : Format) : Value → List Char → Prop where
  /-- A value that is no finite number is a word behind blanks. -/
  | word {x : Double} {word : List Char} (endless : x.isFinite = false) (own : word = (x.write .plain).toList) :
    LaidOut format (.double x) (List.replicate (format.width - word.length) ' ' ++ word)
  /-- A number is blanks, its sign, its whole part behind zeros and in groups, and the rest.  The format
  fills with zeros or with blanks: zeros as many as the number lacks of the width before it is grouped,
  blanks as many as the text lacks. -/
  | number {v : Value} {parts : Parts} {blanks zeros : Nat} {groups : List Char}
      (written : parts.Written format.base v)
      (grouped : IsGrouped format.separator format.groupSize (List.replicate zeros '0' ++ parts.whole) groups)
      (filled : format.zeroPad = true → blanks = 0 ∧ zeros = format.width - parts.text.length)
      (spaced : format.zeroPad = false → zeros = 0 ∧
        blanks + (parts.sign ++ (groups ++ parts.tail)).length =
          max format.width (parts.sign ++ (groups ++ parts.tail)).length) :
    LaidOut format v (List.replicate blanks ' ' ++ (parts.sign ++ (groups ++ parts.tail)))

section Layout

variable {format : Format} {v : Value}

/-- The text of a value is laid out as the format says. -/
theorem laidOut_textOf (format : Format) (v : Value) : LaidOut format v (format.textOf v) := by
  unfold textOf
  split
  next parts found =>
    have written := Parts.partsOf_eq_some_iff.mp found
    obtain ⟨zeros, filled, room⟩ := format.exists_filledWhole parts
    have own : ∀ c ∈ List.replicate zeros '0' ++ parts.whole, c ∉ format.separator.text := by
      intro c hc
      have digit : IsDigitBelow Base.hex.radix c := by
        rcases List.mem_append.mp hc with zero | digit
        · exact ⟨0, by decide, List.eq_of_mem_replicate zero⟩
        · exact written.isDigitBelow c digit
      exact fun mem => Base.not_mem_of_isDigitBelow digit (Separator.text_subset format.separator mem)
    have grouped := isGrouped_grouped format.groupSize
      (List.append_ne_nil_of_right_ne_nil _ written.ne_nil) own
    rw [layOut, filled, padLeft, List.append_assoc]
    refine .number written grouped ?_ ?_
    · intro zeroPad
      rw [if_pos zeroPad] at room
      have length := grouped.length_le
      refine ⟨?_, room⟩
      simp only [Parts.text, List.length_append, List.length_replicate] at room length ⊢
      omega
    · intro spaced
      rw [if_neg (by rw [spaced]; exact Bool.false_ne_true)] at room
      exact ⟨room, by omega⟩
  next found =>
    cases v with
    | int => cases found
    | double x =>
      have endless : x.isFinite = false := by
        cases finite : x.isFinite with
        | true => rw [partsOf, finite] at found; cases found
        | false => rfl
      exact .word endless rfl

/-- The layout leaves nothing open. -/
theorem LaidOut.eq_textOf {text : List Char} (h : LaidOut format v text) : text = format.textOf v := by
  cases h with
  | @word x word endless own =>
    have none : format.partsOf (.double x) = none := by
      rw [partsOf, endless]
      rfl
    rw [own, textOf, none]
    rfl
  | @number _ parts blanks zeros groups written grouped filled spaced =>
    obtain ⟨zeros', fill, room⟩ := format.exists_filledWhole parts
    have length := grouped.length_le
    simp only [List.length_append, List.length_replicate] at length
    have layout : zeros = zeros' ∧
        blanks = format.width - (parts.sign ++ (groups ++ parts.tail)).length := by
      simp only [Parts.text, List.length_append] at filled spaced room ⊢
      cases zeroPad : format.zeroPad with
      | true =>
        rw [if_pos zeroPad] at room
        have own := filled zeroPad
        omega
      | false =>
        rw [if_neg (by rw [zeroPad]; exact Bool.false_ne_true)] at room
        have own := spaced zeroPad
        omega
    obtain ⟨rfl, blank⟩ := layout
    rw [textOf, Parts.partsOf_eq_some_iff.mpr written]
    simp only [layOut, fill, padLeft]
    rw [← grouped.eq_grouped, List.append_assoc, ← blank]

/-- Every value, a double in base ten only, has exactly one text that is laid out as the format says, and
rendering it gives that text, whatever the width up to the greatest one. -/
theorem render_laidOut (format : Format) (v : Value) (decimal : v.order = .double → format.base = .decimal)
    (narrow : format.width ≤ widthLimit) :
    ∃ text, LaidOut format v text ∧ (∀ other, LaidOut format v other → other = text) ∧
      format.render v = .ok (String.ofList text) :=
  ⟨format.textOf v, laidOut_textOf format v, fun _ laidOut => laidOut.eq_textOf,
    render_eq_ok decimal narrow⟩

/-- Filled with zeros, with the sign counted and the separators not. -/
theorem render_laidOut_filled :
    let format : Format := { zeroPad := true, width := 12, base := .decimal, separator := .comma, groupSize := 3 }
    let v := Value.int .i64 (-1234567) (by decide)
    LaidOut format v "-00,001,234,567".toList ∧ format.render v = .ok "-00,001,234,567" := by
  intro format v
  have rendered : format.render v = .ok "-00,001,234,567" := by decide +kernel
  obtain ⟨text, laidOut, -, same⟩ := render_laidOut format v nofun (by decide)
  rw [rendered] at same
  have own : "-00,001,234,567".toList = text := by
    rw [Except.ok.inj same, String.toList_ofList]
  exact ⟨own ▸ laidOut, rendered⟩

end Layout

end Format

end Reckoner
