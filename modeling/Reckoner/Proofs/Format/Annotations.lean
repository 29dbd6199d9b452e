import Mathlib.Tactic.Common
import Reckoner.Format.Basic
import Reckoner.Proofs.Numeral.Real
import Reckoner.Proofs.Text.Classes

/-!
# Annotations of formats

The parts of an annotation are written one after the other (`Outline.text`), and three of them begin with
digits, so that a text may be written in several ways from parts that are fine by themselves
(`Outline.Admissible`).  Exactly one of them is `Outline.Chosen`: a zero in front is the mark for filling with
zeros, and the digits after it are the width unless they begin with a zero.  Reading finds these parts and no
others (`readOutline_eq_some_iff`).

A format can be spelled with all its parts or without some that are as by default (`Format.Spells`).  Either
way its parts are the chosen ones, and so it is read back.  Numbers of too many digits are no annotation; they
are refused, but as numbers and not as a format (`long_width_not_refused`).
-/

namespace Reckoner

namespace Format

/-! ## Parts -/

namespace Outline

/-- The parts behind the width. -/
def behind (a : Outline) : List Char :=
  (a.base.map Base.marker).toList ++ ((a.separator.map Separator.code).toList ++ a.groupSize)

/-- The parts one after the other. -/
def text (a : Outline) : List Char := (if a.zeroPad then ['0'] else []) ++ (a.width ++ a.behind)

/-- The numbers are digits, and the width does not begin with a zero. -/
structure Admissible (a : Outline) : Prop where
  width : ∀ c ∈ a.width, Text.isDigit c = true
  nonzero : a.width.head? ≠ some '0'
  groupSize : ∀ c ∈ a.groupSize, Text.isDigit c = true

/-- A zero in front is the mark, and the digits after it, unless they begin with a zero, are the width. -/
structure Chosen (a : Outline) : Prop extends a.Admissible where
  mark : a.zeroPad = false → a.text.head? ≠ some '0'
  digits : a.base = none → a.separator = none →
    a.groupSize = [] ∨ a.width = [] ∧ a.groupSize.head? = some '0'

/-- The numbers are not too long to be read. -/
def Short (a : Outline) : Prop :=
  a.width.length ≤ Numeral.digitLimit ∧ a.groupSize.length ≤ Numeral.digitLimit

/-- The format that the parts mean. -/
def meaning (a : Outline) : Format :=
  { zeroPad := a.zeroPad
    width := Numeral.valueOf 10 a.width
    base := a.base.getD .decimal
    separator := a.separator.getD .none
    groupSize := if a.groupSize = [] then 3 else Numeral.valueOf 10 a.groupSize }

end Outline

/-! ## Letters -/

theorem marker_injective : Function.Injective Base.marker := by
  intro b c
  cases b <;> cases c <;> decide

theorem code_injective : Function.Injective Separator.code := by
  intro s t
  cases s <;> cases t <;> decide

/-- The letters of annotations. -/
def letters : List Char := Base.all.map Base.marker ++ Separator.all.map Separator.code

/-- Is the character a letter of an annotation? -/
def isLetter (c : Char) : Bool := c ∈ letters

theorem isLetter_marker (b : Base) : isLetter b.marker = true := by cases b <;> decide

theorem isLetter_code (s : Separator) : isLetter s.code = true := by cases s <;> decide

theorem marker_ne_code (b : Base) (s : Separator) : b.marker ≠ s.code := by
  cases b <;> cases s <;> decide

/-- A letter is no blank. -/
theorem isBlank_of_isLetter {c : Char} (h : isLetter c = true) : Text.isBlank c = false := by
  have all : letters.all (!Text.isBlank ·) = true := by decide
  exact Bool.not_eq_true' _ ▸ List.all_eq_true.mp all c (of_decide_eq_true h)

/-- A letter is no digit. -/
theorem not_isDigit_of_isLetter {c : Char} (h : isLetter c = true) : Text.isDigit c = false := by
  have all : letters.all (!Text.isDigit ·) = true := by decide
  exact Bool.not_eq_true' _ ▸ List.all_eq_true.mp all c (of_decide_eq_true h)

/-- Behind the width a letter comes first, if there is one. -/
theorem Outline.head?_behind {a : Outline} (letter : ¬ (a.base = none ∧ a.separator = none)) :
    ∃ c, a.behind.head? = some c ∧ isLetter c = true := by
  unfold behind
  cases base : a.base with
  | some b => exact ⟨b.marker, rfl, isLetter_marker b⟩
  | none =>
    cases separator : a.separator with
    | some s => exact ⟨s.code, rfl, isLetter_code s⟩
    | none => exact absurd ⟨base, separator⟩ letter

theorem Outline.behind_of_bare {a : Outline} (bare : a.base = none ∧ a.separator = none) :
    a.behind = a.groupSize := by
  rw [behind, bare.1, bare.2]
  rfl

theorem ne_of_isLetter {c d : Char} (letter : isLetter c = true) (digit : Text.isDigit d = true) :
    c ≠ d := by
  rintro rfl
  rw [not_isDigit_of_isLetter letter] at digit
  cases digit

section Coded

variable {α : Type} {letter : α → Char} {things : List α} {found : Option α} {cs rest : List Char}

/-- What is taken was there. -/
theorem eq_of_takeCoded (h : takeCoded letter things cs = (found, rest)) :
    cs = (found.map letter).toList ++ rest := by
  cases cs with
  | nil =>
    obtain ⟨rfl, rfl⟩ := Prod.mk.inj h
    rfl
  | cons c cs =>
    unfold takeCoded at h
    simp only at h
    split at h
    case h_1 thing own =>
      obtain ⟨rfl, rfl⟩ := Prod.mk.inj h
      have same := List.find?_some own
      rw [Option.map_some, Option.toList_some, of_decide_eq_true same, List.singleton_append]
    case h_2 =>
      obtain ⟨rfl, rfl⟩ := Prod.mk.inj h
      rfl

/-- What is there is taken, if the letters tell all things apart and the rest begins with none of them. -/
theorem takeCoded_append (all : ∀ thing, thing ∈ things) (injective : Function.Injective letter)
    (stop : ∀ c ∈ rest.head?, ∀ thing, letter thing ≠ c) :
    takeCoded letter things ((found.map letter).toList ++ rest) = (found, rest) := by
  cases found with
  | some thing =>
    rw [Option.map_some, Option.toList_some, List.singleton_append, takeCoded]
    cases search : things.find? (letter · = letter thing) with
    | some other =>
      have same := List.find?_some search
      rw [injective (of_decide_eq_true same)]
    | none => exact absurd (decide_eq_true rfl) (List.find?_eq_none.mp search thing (all thing))
  | none =>
    rw [Option.map_none, Option.toList_none, List.nil_append]
    cases rest with
    | nil => rfl
    | cons c rest =>
      have search : things.find? (letter · = c) = none :=
        List.find?_eq_none.mpr fun thing _ same => stop c rfl thing (of_decide_eq_true same)
      rw [takeCoded, search]

end Coded

/-! ## Reading parts -/

/-- The digits in front, unless they begin with a zero. -/
def readWidth (cs : List Char) : List Char := if cs.head? ≠ some '0' then cs.takeWhile Text.isDigit else []

section Width

variable {cs rest : List Char}

theorem readWidth_prefix : readWidth cs <+: cs := by
  unfold readWidth
  split
  · exact List.takeWhile_prefix _
  · exact List.nil_prefix

theorem isDigit_of_mem_readWidth {c : Char} (h : c ∈ readWidth cs) : Text.isDigit c = true := by
  unfold readWidth at h
  split at h
  · exact List.mem_takeWhile_imp h
  · cases h

theorem head?_readWidth : (readWidth cs).head? ≠ some '0' := by
  intro first
  unfold readWidth at first
  split at first
  case isTrue nonzero =>
    obtain ⟨behind, whole⟩ := List.takeWhile_prefix (l := cs) Text.isDigit
    rw [← whole, List.head?_append, first] at nonzero
    exact nonzero rfl
  case isFalse => cases first

/-- Digits that are no part of the width begin with a zero, and there is no width. -/
theorem eq_nil_or_of_readWidth (split : cs = readWidth cs ++ rest)
    (digits : ∀ c ∈ rest, Text.isDigit c = true) : rest = [] ∨ readWidth cs = [] ∧ rest.head? = some '0' := by
  by_cases zero : cs.head? = some '0'
  · have none : readWidth cs = [] := if_neg (not_not_intro zero)
    rw [none, List.nil_append] at split
    exact .inr ⟨none, split ▸ zero⟩
  · have width : readWidth cs = cs.takeWhile Text.isDigit := if_pos zero
    have behind : cs.dropWhile Text.isDigit = rest := by
      rw [width] at split
      exact List.append_cancel_left (List.takeWhile_append_dropWhile.trans split)
    cases rest with
    | nil => exact .inl rfl
    | cons c rest =>
      have stop := List.head?_dropWhile_not Text.isDigit cs
      rw [behind, List.head?_cons] at stop
      exact absurd (digits c List.mem_cons_self) (Bool.eq_false_iff.mp stop)

end Width

/-- The parts of an annotation behind the mark for filling with zeros. -/
def readRest (zeroPad : Bool) (cs : List Char) : Option Outline :=
  let (base, behind) := takeCoded Base.marker Base.all (cs.drop (readWidth cs).length)
  let (separator, behind) := takeCoded Separator.code Separator.all behind
  if behind.all Text.isDigit then some ⟨zeroPad, readWidth cs, base, separator, behind⟩ else none

theorem readOutline_mark {zeroPad : Bool} {cs : List Char} (h : zeroPad = false → cs.head? ≠ some '0') :
    readOutline ((if zeroPad then ['0'] else []) ++ cs) = readRest zeroPad cs := by
  cases zeroPad with
  | true => rfl
  | false =>
    simp only [Bool.false_eq_true, if_false, List.nil_append]
    cases cs with
    | nil => rfl
    | cons c cs =>
      have first : c ≠ '0' := fun zero => h rfl (congrArg some zero)
      simp only [readOutline, readRest]
      split
      case h_1 same => exact absurd (List.cons.inj same).1 first
      case h_2 => rfl

theorem exists_mark (cs : List Char) : ∃ zeroPad rest,
    cs = (if zeroPad then ['0'] else []) ++ rest ∧ (zeroPad = false → rest.head? ≠ some '0') := by
  by_cases zero : cs.head? = some '0'
  · obtain ⟨rest, rfl⟩ := List.head?_eq_some_iff.mp zero
    exact ⟨true, rest, rfl, nofun⟩
  · exact ⟨false, cs, rfl, fun _ => zero⟩

section Reading

variable {a : Outline}

/-- The width is all digits that stand there, unless they begin with a zero. -/
theorem Outline.Chosen.readWidth_eq (h : a.Chosen) : readWidth (a.width ++ a.behind) = a.width := by
  unfold readWidth
  by_cases zero : (a.width ++ a.behind).head? = some '0'
  · rw [if_neg (not_not_intro zero)]
    cases width : a.width with
    | nil => rfl
    | cons c cs =>
      rw [width] at zero
      exact absurd (by rw [width]; exact zero) h.nonzero
  · rw [if_pos zero]
    have stop : ∀ c ∈ a.behind.head?, Text.isDigit c = false := by
      intro c hc
      by_cases bare : a.base = none ∧ a.separator = none
      · rw [behind_of_bare bare] at hc zero
        rcases h.digits bare.1 bare.2 with none | ⟨empty, first⟩
        · rw [none] at hc
          cases hc
        · exact absurd (by rw [empty]; exact first) zero
      · obtain ⟨d, first, letter⟩ := head?_behind bare
        obtain rfl := Option.some.inj (first.symm.trans hc)
        exact not_isDigit_of_isLetter letter
    exact congrArg Prod.fst (Numeral.spanDigits_append h.width stop)

/-- The chosen parts are found. -/
theorem readOutline_text (h : a.Chosen) : readOutline a.text = some a := by
  have mark : a.zeroPad = false → (a.width ++ a.behind).head? ≠ some '0' := by
    intro none
    have first := h.mark none
    rwa [Outline.text, none] at first
  have groups : ∀ c ∈ a.groupSize.head?, Text.isDigit c = true :=
    fun c hc => h.groupSize c (List.mem_of_mem_head? hc)
  -- Behind the width the letters tell what stands there.
  have base : takeCoded Base.marker Base.all a.behind =
      (a.base, (a.separator.map Separator.code).toList ++ a.groupSize) := by
    refine takeCoded_append (fun b => by cases b <;> decide) marker_injective ?_
    intro c hc b
    cases separator : a.separator with
    | some s =>
      rw [separator] at hc
      obtain rfl := Option.some.inj hc
      exact marker_ne_code b s
    | none =>
      rw [separator] at hc
      exact ne_of_isLetter (isLetter_marker b) (groups c hc)
  have separator : takeCoded Separator.code Separator.all
      ((a.separator.map Separator.code).toList ++ a.groupSize) = (a.separator, a.groupSize) := by
    refine takeCoded_append (fun s => by cases s <;> decide) code_injective ?_
    intro c hc s
    exact ne_of_isLetter (isLetter_code s) (groups c hc)
  rw [Outline.text, readOutline_mark mark]
  simp only [readRest, h.readWidth_eq, List.drop_left, base, separator,
    List.all_eq_true.mpr h.groupSize, if_true]

/-- Parts whose width is all that can be read in front are the chosen ones. -/
theorem chosen_of_split {zeroPad : Bool} {rest groupSize : List Char} {base : Option Base}
    {separator : Option Separator} (mark : zeroPad = false → rest.head? ≠ some '0')
    (split : rest = readWidth rest ++
      ((base.map Base.marker).toList ++ ((separator.map Separator.code).toList ++ groupSize)))
    (digits : ∀ c ∈ groupSize, Text.isDigit c = true) :
    Outline.Chosen ⟨zeroPad, readWidth rest, base, separator, groupSize⟩ ∧
      Outline.text ⟨zeroPad, readWidth rest, base, separator, groupSize⟩ =
        (if zeroPad then ['0'] else []) ++ rest := by
  have text : Outline.text ⟨zeroPad, readWidth rest, base, separator, groupSize⟩ =
      (if zeroPad then ['0'] else []) ++ rest := congrArg (_ ++ ·) split.symm
  refine ⟨⟨⟨fun c => isDigit_of_mem_readWidth, head?_readWidth, digits⟩, ?_, ?_⟩, text⟩
  · intro none
    rw [text]
    subst none
    exact mark rfl
  · rintro ⟨⟩ ⟨⟩
    exact eq_nil_or_of_readWidth split digits

/-- Nothing but the chosen parts is found. -/
theorem chosen_of_readOutline {cs : List Char} (h : readOutline cs = some a) : a.Chosen ∧ a.text = cs := by
  obtain ⟨zeroPad, rest, rfl, mark⟩ := exists_mark cs
  rw [readOutline_mark mark] at h
  unfold readRest at h
  cases base : takeCoded Base.marker Base.all (rest.drop (readWidth rest).length) with
  | mk b behind =>
  cases separator : takeCoded Separator.code Separator.all behind with
  | mk s groupSize =>
  simp only [base, separator] at h
  obtain ⟨digits, same⟩ := Option.ite_none_right_eq_some.mp h
  obtain rfl := Option.some.inj same
  refine chosen_of_split mark ?_ (List.all_eq_true.mp digits)
  rw [← eq_of_takeCoded separator, ← eq_of_takeCoded base]
  exact (List.prefix_iff_eq_append.mp readWidth_prefix).symm

/-- Reading finds the chosen parts of a text, if there are any. -/
theorem readOutline_eq_some_iff {cs : List Char} : readOutline cs = some a ↔ a.Chosen ∧ a.text = cs := by
  refine ⟨chosen_of_readOutline, ?_⟩
  rintro ⟨chosen, rfl⟩
  exact readOutline_text chosen

/-- With a letter, parts that do not begin with a mark do not begin with a zero either. -/
theorem Outline.Admissible.head?_text (h : a.Admissible) (letter : ¬ (a.base = none ∧ a.separator = none))
    (none : a.zeroPad = false) : a.text.head? ≠ some '0' := by
  intro first
  rw [Outline.text, none] at first
  cases width : a.width with
  | cons c cs =>
    rw [width] at first
    exact h.nonzero (by rw [width]; exact first)
  | nil =>
    obtain ⟨c, same, letter⟩ := head?_behind letter
    rw [width] at first
    exact ne_of_isLetter letter (by decide) (Option.some.inj (same.symm.trans first))

/-- Admissible parts can be taken together so that they are the chosen ones. -/
theorem Outline.Admissible.exists_chosen (h : a.Admissible) : ∃ b : Outline, b.Chosen ∧ b.text = a.text := by
  by_cases bare : a.base = none ∧ a.separator = none
  · -- The text is all digits, and which of them are the width has to be found out anew.
    obtain ⟨zeroPad, rest, same, mark⟩ := exists_mark a.text
    have digits : ∀ c ∈ a.text, Text.isDigit c = true := by
      rw [Outline.text, behind_of_bare bare]
      simp only [List.forall_mem_append]
      refine ⟨fun c hc => ?_, h.width, h.groupSize⟩
      split at hc
      · rw [List.mem_singleton.mp hc]
        decide
      · cases hc
    have later : ∀ c ∈ rest.drop (readWidth rest).length, Text.isDigit c = true := by
      intro c hc
      exact digits c (same ▸ List.mem_append_right _ (List.mem_of_mem_drop hc))
    obtain ⟨chosen, text⟩ := @chosen_of_split zeroPad rest _ none none mark
      (List.prefix_iff_eq_append.mp readWidth_prefix).symm later
    exact ⟨_, chosen, text.trans same.symm⟩
  · exact ⟨a, ⟨h, h.head?_text bare, fun base separator => absurd ⟨base, separator⟩ bare⟩, rfl⟩

/-- Exactly one way of taking admissible parts together is the chosen one. -/
theorem Outline.Admissible.existsUnique_chosen (h : a.Admissible) :
    ∃! b : Outline, b.Chosen ∧ b.text = a.text := by
  obtain ⟨b, chosen, text⟩ := h.exists_chosen
  refine ⟨b, ⟨chosen, text⟩, ?_⟩
  rintro c ⟨other, same⟩
  have found := readOutline_text other
  rw [same, ← text, readOutline_text chosen] at found
  exact (Option.some.inj found).symm

/-- Digits and letters are no blanks, and an annotation consists of them. -/
theorem Outline.Admissible.isBlank_text (h : a.Admissible) : ∀ c ∈ a.text, Text.isBlank c = false := by
  have digit {c : Char} (hc : Text.isDigit c = true) : Text.isBlank c = false :=
    Bool.eq_false_iff.mpr fun blank => by simp [Text.isDigit_of_isBlank blank] at hc
  rw [Outline.text, behind]
  simp only [List.forall_mem_append, Option.mem_toList, Option.map_eq_some_iff]
  refine ⟨fun c hc => ?_, fun c hc => digit (h.width c hc), ?_, ?_, fun c hc => digit (h.groupSize c hc)⟩
  · split at hc
    · rw [List.mem_singleton.mp hc]
      decide
    · cases hc
  · rintro c ⟨b, -, rfl⟩
    exact isBlank_of_isLetter (isLetter_marker b)
  · rintro c ⟨s, -, rfl⟩
    exact isBlank_of_isLetter (isLetter_code s)

/-! ## Reading formats -/

/-- Parts with short numbers mean a format. -/
theorem ofOutline_of_short (h : a.Short) : ofOutline a = .ok a.meaning := by
  have width : Numeral.readDecimal a.width = .ok (Numeral.valueOf 10 a.width) :=
    if_neg (Nat.not_lt.mpr h.1)
  have groupSize : Numeral.readDecimal a.groupSize = .ok (Numeral.valueOf 10 a.groupSize) :=
    if_neg (Nat.not_lt.mpr h.2)
  simp only [ofOutline, width, groupSize, Outline.meaning, List.isEmpty_iff]
  split <;> rfl

/-- The first number that is too long is refused. -/
theorem ofOutline_of_not_short (h : ¬ a.Short) :
    ofOutline a = .error (.length
      (if Numeral.digitLimit < a.width.length then a.width.length else a.groupSize.length)) := by
  unfold Outline.Short at h
  by_cases long : Numeral.digitLimit < a.width.length
  · have width : Numeral.readDecimal a.width = .error (.length a.width.length) := if_pos long
    rw [if_pos long, ofOutline, width]
    rfl
  · have width : Numeral.readDecimal a.width = .ok (Numeral.valueOf 10 a.width) := if_neg long
    have longer : Numeral.digitLimit < a.groupSize.length := by omega
    have groupSize : Numeral.readDecimal a.groupSize = .error (.length a.groupSize.length) :=
      if_pos longer
    have some : a.groupSize.isEmpty = false := by
      rw [List.isEmpty_eq_false_iff]
      rintro empty
      rw [empty] at longer
      cases longer
    rw [if_neg long, ofOutline, width, some, groupSize]
    rfl

end Reading

/-- Annotations are told by their chosen parts. -/
theorem parse_of_chosen {text : String} {a : Outline} (h : a.Chosen)
    (same : a.text = Text.strip text.toList) :
    parse text = (ofOutline a).mapError (.misuse ∘ .numeral) := by
  unfold parse
  rw [readOutline_eq_some_iff.mpr ⟨h, same⟩]
  cases found : ofOutline a <;> simp only [found] <;> rfl

/-- A text that is no annotation is refused. -/
theorem parse_of_not_chosen {text : String}
    (h : ∀ a : Outline, a.Chosen → a.text ≠ Text.strip text.toList) :
    parse text = .error (.calculation (.invalidFormat text)) := by
  cases found : readOutline (Text.strip text.toList) with
  | none => rw [parse, found]
  | some a =>
    obtain ⟨chosen, same⟩ := readOutline_eq_some_iff.mp found
    exact absurd same (h a chosen)

/-! ## Spelling formats -/

/-- The parts spell the format: a width of zero is not written, and where a part is as by default it may be
left out.  A group size needs a letter in front of it, lest it be taken for the width. -/
structure Spells (format : Format) (a : Outline) : Prop where
  zeroPad : a.zeroPad = format.zeroPad
  width : a.width = if format.width = 0 then [] else Nat.toDigits 10 format.width
  base : a.base = some format.base ∨ a.base = none ∧ format.base = .decimal
  separator : a.separator = some format.separator ∨ a.separator = none ∧ format.separator = .none
  groupSize : a.groupSize = Nat.toDigits 10 format.groupSize ∧ (a.base ≠ none ∨ a.separator ≠ none) ∨
    a.groupSize = [] ∧ format.groupSize = 3

/-- All parts of the format. -/
def written (format : Format) : Outline :=
  { zeroPad := format.zeroPad
    width := if format.width = 0 then [] else Nat.toDigits 10 format.width
    base := some format.base
    separator := some format.separator
    groupSize := Nat.toDigits 10 format.groupSize }

theorem spells_written (format : Format) : format.Spells format.written :=
  ⟨rfl, rfl, .inl rfl, .inl rfl, .inl ⟨rfl, .inl nofun⟩⟩

/-- The numbers of the format have no more digits than can be read. -/
def IsShort (format : Format) : Prop :=
  (Nat.toDigits 10 format.width).length ≤ Numeral.digitLimit ∧
    (Nat.toDigits 10 format.groupSize).length ≤ Numeral.digitLimit

section Spelling

variable {format : Format} {a : Outline}

/-- The parts that spell a format are the chosen ones of their text. -/
theorem Spells.chosen (h : format.Spells a) : a.Chosen := by
  have admissible : a.Admissible := by
    refine ⟨fun c hc => ?_, ?_, fun c hc => ?_⟩
    · rw [h.width] at hc
      split at hc
      · cases hc
      · exact Numeral.isDigit_of_mem_toDigits hc
    · rw [h.width]
      split
      · nofun
      · exact Numeral.head?_toDigits (by assumption)
    · rcases h.groupSize with ⟨same, -⟩ | ⟨none, -⟩
      · rw [same] at hc
        exact Numeral.isDigit_of_mem_toDigits hc
      · rw [none] at hc
        cases hc
  -- Without a letter nothing but the width is written.
  have bare : a.base = none → a.separator = none → a.groupSize = [] := by
    intro base separator
    rcases h.groupSize with ⟨-, letter⟩ | ⟨none, -⟩
    · exact absurd letter (not_or_intro (not_not_intro base) (not_not_intro separator))
    · exact none
  refine ⟨admissible, ?_, fun base separator => .inl (bare base separator)⟩
  by_cases letters : a.base = none ∧ a.separator = none
  · intro none
    have text : a.text = a.width := by
      rw [Outline.text, none, Outline.behind_of_bare letters, bare letters.1 letters.2]
      exact List.append_nil a.width
    rw [text]
    exact admissible.nonzero
  · exact admissible.head?_text letters

/-- They mean the format. -/
theorem Spells.meaning (h : format.Spells a) : a.meaning = format := by
  have value (n : Nat) : Numeral.valueOf 10 (Nat.toDigits 10 n) = n :=
    Numeral.valueOf_toDigits (by decide) (by decide) n
  have width : Numeral.valueOf 10 a.width = format.width := by
    rw [h.width]
    split
    case isTrue zero => exact zero.symm
    case isFalse => exact value format.width
  have base : a.base.getD .decimal = format.base := by
    rcases h.base with same | ⟨none, default⟩
    · rw [same]
      rfl
    · rw [none, default]
      rfl
  have separator : a.separator.getD .none = format.separator := by
    rcases h.separator with same | ⟨none, default⟩
    · rw [same]
      rfl
    · rw [none, default]
      rfl
  have groupSize : (if a.groupSize = [] then 3 else Numeral.valueOf 10 a.groupSize) = format.groupSize := by
    rcases h.groupSize with ⟨same, -⟩ | ⟨none, default⟩
    · rw [same, if_neg Nat.toDigits_ne_nil, value]
    · rw [if_pos none, default]
  rw [Outline.meaning, h.zeroPad, width, base, separator, groupSize]

theorem Spells.short (h : format.Spells a) (short : format.IsShort) : a.Short := by
  constructor
  · rw [h.width]
    split
    · exact Nat.zero_le _
    · exact short.1
  · rcases h.groupSize with ⟨same, -⟩ | ⟨none, -⟩
    · exact same ▸ short.2
    · exact none ▸ Nat.zero_le _

end Spelling

/-! ## Annotations -/

/-- The annotation that a text holds between blanks is read without ambiguity. -/
structure ReadsAnnotation (text : String) (result : Except Fault Format) : Prop where
  /-- Every spelling of a format is read as that format, whatever blanks are around it. -/
  back : ∀ (format : Format) (a : Outline) (before after : List Char), format.IsShort → format.Spells a →
    (∀ c ∈ before, Text.isBlank c = true) → (∀ c ∈ after, Text.isBlank c = true) →
      text = String.ofList (before ++ (a.text ++ after)) → result = .ok format
  /-- However the annotation is divided, exactly one division of it is the chosen one. -/
  divided : ∀ a : Outline, a.Admissible → a.text = Text.strip text.toList →
    ∃! b : Outline, b.Chosen ∧ b.text = Text.strip text.toList
  /-- The chosen division says what the annotation means. -/
  accepted : ∀ format : Format, result = .ok format ↔
    ∃ a : Outline, a.Chosen ∧ a.Short ∧ a.text = Text.strip text.toList ∧ a.meaning = format
  /-- A text that cannot be divided is refused as a format, and no other text is. -/
  refused : result = .error (.calculation (.invalidFormat text)) ↔
    ∀ a : Outline, a.Admissible → a.text ≠ Text.strip text.toList
  /-- An annotation with a number of too many digits is not refused as a format but as a number. -/
  tooLong : ∀ a : Outline, a.Chosen → ¬ a.Short → a.text = Text.strip text.toList →
    result = .error (.misuse (.numeral (.length
      (if Numeral.digitLimit < a.width.length then a.width.length else a.groupSize.length))))

/-- Annotations are read without ambiguity. -/
theorem parse_unambiguous (text : String) : ReadsAnnotation text (parse text) where
  back := by
    rintro format a before after short spells front behind rfl
    have stripped : a.text = Text.strip (String.ofList (before ++ (a.text ++ after))).toList := by
      rw [String.toList_ofList]
      exact (Numeral.stripOf_surrounded front behind spells.chosen.isBlank_text).symm
    rw [parse_of_chosen spells.chosen stripped, ofOutline_of_short (spells.short short), spells.meaning]
    rfl
  divided := by
    intro a admissible same
    rw [← same]
    exact admissible.existsUnique_chosen
  accepted := by
    intro format
    constructor
    · intro accepted
      by_cases form : ∃ a : Outline, a.Chosen ∧ a.text = Text.strip text.toList
      · obtain ⟨a, chosen, same⟩ := form
        rw [parse_of_chosen chosen same] at accepted
        by_cases short : a.Short
        · rw [ofOutline_of_short short] at accepted
          exact ⟨a, chosen, short, same, Except.ok.inj accepted⟩
        · rw [ofOutline_of_not_short short] at accepted
          cases accepted
      · rw [parse_of_not_chosen fun a chosen same => form ⟨a, chosen, same⟩] at accepted
        cases accepted
    · rintro ⟨a, chosen, short, same, rfl⟩
      rw [parse_of_chosen chosen same, ofOutline_of_short short]
      rfl
  refused := by
    constructor
    · intro refused a admissible same
      obtain ⟨b, chosen, text⟩ := admissible.exists_chosen
      rw [parse_of_chosen chosen (text.trans same)] at refused
      cases found : ofOutline b <;> rw [found] at refused <;> cases refused
    · exact fun none => parse_of_not_chosen fun a chosen => none a chosen.toAdmissible
  tooLong := by
    intro a chosen long same
    rw [parse_of_chosen chosen same, ofOutline_of_not_short long]
    rfl

/-- The annotation `012x_4` between blanks. -/
theorem parse_unambiguous_spaced :
    written ⟨true, 12, .hex, .underscore, 4⟩ = ⟨true, ['1', '2'], some .hex, some .underscore, ['4']⟩ ∧
      parse (String.ofList ([' ', '\t'] ++
        ((written ⟨true, 12, .hex, .underscore, 4⟩).text ++ ['\n']))) =
          .ok ⟨true, 12, .hex, .underscore, 4⟩ := by
  refine ⟨by decide, (parse_unambiguous _).back _ _ _ _ ?_ (spells_written _) ?_ ?_ rfl⟩
  · exact ⟨by decide, by decide⟩
  · exact List.all_eq_true.mp (by decide)
  · exact List.all_eq_true.mp (by decide)

/-- A width of one digit more than can be read. -/
def tooWide : Outline :=
  { zeroPad := false
    width := List.replicate (Numeral.digitLimit + 1) '1'
    base := none
    separator := none
    groupSize := [] }

theorem chosen_tooWide : tooWide.Chosen := by
  have ones : ∀ c ∈ tooWide.width, c = '1' := fun c hc => List.eq_of_mem_replicate hc
  have first : tooWide.width.head? = some '1' := rfl
  have text : tooWide.text = tooWide.width := List.append_nil tooWide.width
  refine ⟨⟨fun c hc => ?_, ?_, nofun⟩, fun _ => ?_, fun _ _ => .inl rfl⟩
  · rw [ones c hc]
    decide
  · rw [first]
    decide
  · rw [text, first]
    decide

theorem not_short_tooWide : ¬ tooWide.Short := by
  rintro ⟨short, -⟩
  have length : tooWide.width.length = Numeral.digitLimit + 1 := List.length_replicate
  omega

/-- A width of too many digits is nothing that can be accepted, and yet it is not refused as a format. -/
theorem long_width_not_refused :
    ¬ ∀ text : String,
      (∃ a : Outline, a.Chosen ∧ a.Short ∧ a.text = Text.strip text.toList) ∨
        parse text = .error (.calculation (.invalidFormat text)) := by
  intro all
  have stripped : tooWide.text = Text.strip (String.ofList tooWide.text).toList := by
    rw [String.toList_ofList]
    exact (Numeral.stripOf_of_none chosen_tooWide.isBlank_text).symm
  rcases all (String.ofList tooWide.text) with ⟨a, chosen, short, same⟩ | refused
  · -- A text has only one chosen division, and that of this one is too long.
    have found := readOutline_text chosen
    rw [same, ← stripped, readOutline_text chosen_tooWide] at found
    exact not_short_tooWide (Option.some.inj found ▸ short)
  · rw [parse_of_chosen chosen_tooWide stripped, ofOutline_of_not_short not_short_tooWide] at refused
    cases refused

end Format

end Reckoner
