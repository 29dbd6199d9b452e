import Reckoner.Numeral.Real
import Reckoner.Proofs.Numeral.Decimal
import Reckoner.Proofs.Numeral.Radix

/-!
# Decimal numbers in parts

`Parts` cuts a decimal number without a sign into the digits before its point, the point with the digits
after it, and the exponent.  The class of characters that stand for digits is left open, because in a token
underscores stand among them and in the text of a real number they do not.

Real numbers in parts are read: the digits on both sides of the point are the coefficient, and the exponent
counts from behind them (`Parts.exists_readReal`).  Nothing about such a text is free, so that reading it as
a freely written number gives the same double (`readLoosely_of_plain`).  It is an integer just if point and
exponent are missing (`Parts.isWhole_iff`, `Parts.readInteger`).
-/

namespace Reckoner

namespace Numeral

/-! ## The parts -/

/-- Nothing, or a point and characters of a class. -/
inductive IsPoint (inside : Char → Bool) : List Char → Prop where
  | absent : IsPoint inside []
  | present {places : List Char} (own : ∀ c ∈ places, inside c = true) : IsPoint inside ('.' :: places)

/-- Nothing, or a letter, an optional sign and at least one digit. -/
inductive IsExponent : List Char → Prop where
  | absent : IsExponent []
  | present {letter : Char} {sign digits : List Char} (mark : letter = 'e' ∨ letter = 'E')
      (signs : sign = [] ∨ sign = ['+'] ∨ sign = ['-']) (ne : digits ≠ [])
      (decimal : ∀ c ∈ digits, Text.isDigit c = true) : IsExponent (letter :: (sign ++ digits))

/-- The parts of a decimal number, at least one digit being among the first two. -/
structure Parts (inside : Char → Bool) (whole point ending : List Char) : Prop where
  inWhole : ∀ c ∈ whole, inside c = true
  isPoint : IsPoint inside point
  isExponent : IsExponent ending
  digit : ∃ c ∈ whole ++ point, Text.isDigit c = true

/-- The characters of which decimal numbers are made. -/
def IsPlain (c : Char) : Prop := Text.isDigit c = true ∨ c ∈ ['.', 'e', 'E', '+', '-']

instance (c : Char) : Decidable (IsPlain c) :=
  inferInstanceAs (Decidable (Text.isDigit c = true ∨ c ∈ ['.', 'e', 'E', '+', '-']))

/-- The characters with which points and exponents begin. -/
def isMark (c : Char) : Bool := c = '.' || c = 'e' || c = 'E'

/-- The text has neither a point nor an exponent. -/
def IsWhole (text : List Char) : Prop := text.all (!isMark ·) = true

instance (text : List Char) : Decidable (IsWhole text) :=
  inferInstanceAs (Decidable (text.all (!isMark ·) = true))

theorem isMark_iff {c : Char} : isMark c = true ↔ c = '.' ∨ c = 'e' ∨ c = 'E' := by
  simp [isMark, or_assoc]

theorem isWhole_iff_forall {text : List Char} : IsWhole text ↔ ∀ c ∈ text, isMark c = false := by
  simp [IsWhole]

/-- Decimal digits are a numeral of base ten. -/
theorem isNumeral_of_isDigit {digits : List Char} (ne : digits ≠ [])
    (decimal : ∀ c ∈ digits, Text.isDigit c = true) : IsNumeral 10 digits := by
  refine ⟨ne, fun c hc => ⟨c.toNat - 48, ?_, digit?_of_isDigit (decimal c hc)⟩⟩
  exact sub_lt_of_le (Text.isDigit_iff_le.mp (decimal c hc)).2 (by decide)

theorem IsExponent.head {ending : List Char} (h : IsExponent ending) :
    ∀ c ∈ ending.head?, c = 'e' ∨ c = 'E' := by
  intro c hc
  cases h with
  | absent => cases hc
  | present mark =>
    obtain rfl := Option.some.inj hc
    exact mark

theorem IsExponent.isPlain {ending : List Char} (h : IsExponent ending) : ∀ c ∈ ending, IsPlain c := by
  intro c hc
  cases h with
  | absent => cases hc
  | present mark signs _ decimal =>
    rcases List.mem_cons.mp hc with rfl | hc
    · rcases mark with rfl | rfl <;> exact .inr (by decide)
    rcases List.mem_append.mp hc with hc | hc
    · rcases signs with rfl | rfl | rfl
      · cases hc
      all_goals
        obtain rfl := List.mem_singleton.mp hc
        exact .inr (by decide)
    · exact .inl (decimal c hc)

section Parts

variable {whole point ending : List Char}

/-- The characters of a number in parts are plain unless they are of the class. -/
theorem Parts.isPlain_or {inside : Char → Bool} (h : Parts inside whole point ending) :
    ∀ c ∈ whole ++ (point ++ ending), inside c = true ∨ IsPlain c := by
  intro c hc
  rcases List.mem_append.mp hc with hc | hc
  · exact .inl (h.inWhole c hc)
  rcases List.mem_append.mp hc with hc | hc
  · cases h.isPoint with
    | absent => cases hc
    | present own =>
      rcases List.mem_cons.mp hc with rfl | hc
      · exact .inr (.inr (by decide))
      · exact .inl (own c hc)
  · exact .inr (h.isExponent.isPlain c hc)

theorem Parts.isPlain (h : Parts Text.isDigit whole point ending) :
    ∀ c ∈ whole ++ (point ++ ending), IsPlain c :=
  fun c hc => (h.isPlain_or c hc).elim .inl id

/-- Digits are whole, a point or an exponent is not. -/
theorem Parts.isWhole_iff (h : Parts Text.isDigit whole point ending) :
    IsWhole (whole ++ (point ++ ending)) ↔ point = [] ∧ ending = [] := by
  constructor
  · intro all
    rw [isWhole_iff_forall] at all
    refine ⟨?_, ?_⟩
    · cases h.isPoint with
      | absent => rfl
      | present => exact absurd (all '.' (by simp)) (by decide)
    · cases h.isExponent with
      | absent => rfl
      | @present letter _ _ mark =>
        refine absurd (all letter (by simp)) ?_
        rcases mark with rfl | rfl <;> decide
  · rintro ⟨rfl, rfl⟩
    rw [List.append_nil, List.append_nil, isWhole_iff_forall]
    intro c hc
    by_contra mark
    rw [Bool.not_eq_false, isMark_iff] at mark
    have digit := h.inWhole c hc
    rcases mark with rfl | rfl | rfl <;> exact absurd digit (by decide)

/-! ## Reading them as a real number -/

/-- Digits are measured off before anything that does not go on with one. -/
theorem spanDigits_append {digits rest : List Char} (decimal : ∀ c ∈ digits, Text.isDigit c = true)
    (stop : ∀ c ∈ rest.head?, Text.isDigit c = false) : spanDigits (digits ++ rest) = (digits, rest) := by
  have none : rest.takeWhile Text.isDigit = [] ∧ rest.dropWhile Text.isDigit = rest := by
    cases rest with
    | nil => exact ⟨rfl, rfl⟩
    | cons c cs => simp [stop c rfl]
  rw [spanDigits, List.takeWhile_append_of_pos decimal, List.dropWhile_append_of_pos decimal, none.1,
    none.2, List.append_nil]

theorem IsExponent.stop (h : IsExponent ending) : ∀ c ∈ ending.head?, Text.isDigit c = false := by
  intro c hc
  rcases h.head c hc with rfl | rfl <;> decide

/-- The digits of both sides of the point, how many stand behind it, and the exponent. -/
theorem Parts.spanMantissa (h : Parts Text.isDigit whole point ending) :
    Numeral.spanMantissa (whole ++ (point ++ ending)) =
      some (whole ++ point.drop 1, (point.drop 1).length, ending) := by
  obtain ⟨decimal, shape, exponent, c, hc, digit⟩ := h
  cases shape with
  | absent =>
    rw [List.append_nil] at hc
    have filled : whole.isEmpty = false := List.isEmpty_eq_false_iff.mpr (List.ne_nil_of_mem hc)
    simp only [Numeral.spanMantissa, List.nil_append, spanDigits_append decimal exponent.stop]
    split
    case h_1 => exact absurd (exponent.head '.' rfl) (by decide)
    case h_2 => simp [filled]
  | @present places own =>
    have stop : ∀ c ∈ ('.' :: places ++ ending).head?, Text.isDigit c = false := by
      intro c hc
      obtain rfl := Option.some.inj hc
      decide
    have filled : (whole.isEmpty && places.isEmpty) = false := by
      rw [Bool.and_eq_false_iff, List.isEmpty_eq_false_iff, List.isEmpty_eq_false_iff]
      rcases List.mem_append.mp hc with hc | hc
      · exact .inl (List.ne_nil_of_mem hc)
      · rcases List.mem_cons.mp hc with rfl | hc
        · exact absurd digit (by decide)
        · exact .inr (List.ne_nil_of_mem hc)
    simp only [Numeral.spanMantissa, spanDigits_append decimal stop]
    simp only [List.cons_append, spanDigits_append own exponent.stop, filled]
    rfl

theorem IsExponent.exists_readExponent (h : IsExponent ending) : ∃ k, readExponent ending = some k := by
  cases h with
  | absent => exact ⟨0, rfl⟩
  | @present letter sign digits mark signs ne decimal =>
    have split : ∃ negative, splitSign (sign ++ digits) = (negative, digits) := by
      rcases signs with rfl | rfl | rfl
      · exact ⟨false, (isNumeral_of_isDigit ne decimal).splitSign⟩
      · exact ⟨false, rfl⟩
      · exact ⟨true, rfl⟩
    obtain ⟨negative, split⟩ := split
    have filled : digits.isEmpty = false := List.isEmpty_eq_false_iff.mpr ne
    have all : digits.all Text.isDigit = true := List.all_eq_true.mpr decimal
    simp only [readExponent, if_pos mark, split, filled, all, Bool.not_true, Bool.or_self,
      Bool.false_eq_true, if_false]
    exact ⟨_, rfl⟩

theorem Parts.splitSign (h : Parts Text.isDigit whole point ending) :
    Numeral.splitSign (whole ++ (point ++ ending)) = (false, whole ++ (point ++ ending)) := by
  have signs {c : Char} (digit : Text.isDigit c = true) : c ≠ '-' ∧ c ≠ '+' := by
    refine ⟨?_, ?_⟩ <;>
    · rintro rfl
      exact absurd digit (by decide)
  obtain ⟨decimal, shape, -, c, hc, digit⟩ := h
  cases whole with
  | cons d ds =>
    have own := signs (decimal d List.mem_cons_self)
    exact splitSign_of_ne own.1 own.2 _
  | nil =>
    cases shape with
    | absent => cases hc
    | present => exact splitSign_of_ne (by decide) (by decide) _

/-- A decimal number in parts is read. -/
theorem Parts.exists_readReal (h : Parts Text.isDigit whole point ending) :
    ∃ k, readExponent ending = some k ∧
      readReal (whole ++ (point ++ ending)) =
        some (false, .decimal (valueOf 10 (whole ++ point.drop 1)) (k - (point.drop 1).length)) := by
  obtain ⟨k, exponent⟩ := h.isExponent.exists_readExponent
  refine ⟨k, exponent, ?_⟩
  simp only [readReal, h.splitSign, readBody, h.spanMantissa, exponent, Option.map_some]

/-! ## Reading them freely -/

/-- No digit is mistaken for one of another script, and nothing else for a digit. -/
theorem plainDigit_of_ascii {c : Char} (ascii : c.toNat < 128) : plainDigit c = c := by
  by_cases digit : Text.isDigit c = true
  · have range := Text.isDigit_iff.mp digit
    have code : 48 + (c.toNat - 48) = c.toNat := by omega
    rw [plainDigit, Text.decimalDigit?, if_pos digit]
    change Char.ofNat (48 + (c.toNat - 48)) = c
    rw [code, Char.ofNat_toNat]
  · have others : ∀ first ∈ Text.decimalZeros, 128 ≤ first := by decide
    have none : Text.decimalZeros.find? (fun first => first ≤ c.toNat && c.toNat < first + 10) = none := by
      refine List.find?_eq_none.mpr fun first hfirst => ?_
      have beyond := others first hfirst
      simp only [Bool.and_eq_true, decide_eq_true_eq]
      omega
    rw [plainDigit, Text.decimalDigit?, if_neg digit, none]
    rfl

theorem IsPlain.ascii {c : Char} (h : IsPlain c) : c.toNat < 128 := by
  rcases h with digit | other
  · exact Nat.lt_of_le_of_lt (Text.isDigit_iff.mp digit).2 (by decide)
  · simp only [List.mem_cons, List.not_mem_nil, or_false] at other
    rcases other with rfl | rfl | rfl | rfl | rfl <;> decide

theorem isSpace_of_isPlain {c : Char} (h : IsPlain c) : Text.isSpace c = false := by
  rcases h with digit | other
  · have range := Text.isDigit_iff.mp digit
    rw [Text.isSpace, Bool.and_eq_false_iff]
    left
    simp only [Text.isBlank, Bool.or_eq_false_iff, Bool.and_eq_false_iff, decide_eq_false_iff_not]
    omega
  · simp only [List.mem_cons, List.not_mem_nil, or_false] at other
    rcases other with rfl | rfl | rfl | rfl | rfl <;> decide

/-- A text without underscores keeps all its characters. -/
theorem dropUnderscores_of_not_mem {text : List Char} (h : '_' ∉ text) : dropUnderscores text = text := by
  induction text using dropUnderscores.induct with
  | case1 a b rest _ _ => exact absurd h (by simp)
  | case2 a b rest _ _ => exact absurd h (by simp)
  | case3 c rest other ih =>
    rw [dropUnderscores.eq_2 _ _ other, ih fun mem => h (List.mem_cons_of_mem _ mem)]
  | case4 => rfl

/-- What surrounds a text without members of the class is left out. -/
theorem stripOf_surrounded {member : Char → Bool} {before cs after : List Char}
    (front : ∀ c ∈ before, member c = true) (behind : ∀ c ∈ after, member c = true)
    (h : ∀ c ∈ cs, member c = false) : Text.stripOf member (before ++ (cs ++ after)) = cs := by
  have kept {ds : List Char} (none : ∀ c ∈ ds, member c = false) : ds.dropWhile member = ds := by
    cases ds with
    | nil => rfl
    | cons d ds => rw [List.dropWhile_cons_of_neg (by rw [none d List.mem_cons_self]; exact Bool.false_ne_true)]
  have dropped : ∃ rest, (cs ++ after).dropWhile member = cs ++ rest ∧ ∀ c ∈ rest, member c = true := by
    cases cs with
    | nil =>
      refine ⟨[], ?_, nofun⟩
      rw [List.nil_append, List.nil_append, List.dropWhile_eq_nil_iff]
      exact behind
    | cons d ds =>
      refine ⟨after, ?_, behind⟩
      rw [List.cons_append, List.dropWhile_cons_of_neg (by rw [h d List.mem_cons_self]; exact Bool.false_ne_true)]
  obtain ⟨rest, same, members⟩ := dropped
  rw [Text.stripOf, List.dropWhile_append_of_pos front, same, List.reverse_append,
    List.dropWhile_append_of_pos fun c hc => members c (List.mem_reverse.mp hc),
    kept fun c hc => h c (List.mem_reverse.mp hc), List.reverse_reverse]

theorem stripOf_of_none {member : Char → Bool} {cs : List Char} (h : ∀ c ∈ cs, member c = false) :
    Text.stripOf member cs = cs := by
  have bare := @stripOf_surrounded member [] cs [] nofun nofun h
  rwa [List.nil_append, List.append_nil] at bare

/-- A text without anything to leave out is read freely as it is read strictly. -/
theorem readLoosely_of_visible {text : List Char} (ascii : ∀ c ∈ text, c.toNat < 128)
    (visible : ∀ c ∈ text, Text.isSpace c = false) (joined : '_' ∉ text) :
    readLoosely text = (readReal text).bind fun (negative, body) => body.toDouble? negative := by
  have same : text.map plainDigit = text :=
    (List.map_congr_left fun c hc => plainDigit_of_ascii (ascii c hc)).trans (List.map_id text)
  rw [readLoosely, stripOf_of_none visible, same, dropUnderscores_of_not_mem joined]

/-- So is a text of the characters of decimal numbers. -/
theorem readLoosely_of_plain {text : List Char} (plain : ∀ c ∈ text, IsPlain c) :
    readLoosely text = (readReal text).bind fun (negative, body) => body.toDouble? negative :=
  readLoosely_of_visible (fun c hc => (plain c hc).ascii) (fun c hc => isSpace_of_isPlain (plain c hc))
    fun mem => absurd (plain '_' mem) (by decide)

/-! ## Reading them as an integer -/

/-- With a point or an exponent the text is no integer. -/
theorem Parts.readInteger_of_not_isWhole (h : Parts Text.isDigit whole point ending)
    (other : ¬ IsWhole (whole ++ (point ++ ending))) :
    readInteger (whole ++ (point ++ ending)) 10 = .ok none := by
  simp only [isWhole_iff_forall, not_forall, Bool.not_eq_false] at other
  obtain ⟨c, mem, mark⟩ := other
  refine readInteger_of_not_passes (c := c) (by rw [h.splitSign]; exact mem) ?_
  rcases isMark_iff.mp mark with rfl | rfl | rfl <;> decide

/-- Without them it is a numeral. -/
theorem Parts.isNumeral (h : Parts Text.isDigit whole point ending)
    (all : IsWhole (whole ++ (point ++ ending))) : IsNumeral 10 (whole ++ (point ++ ending)) := by
  obtain ⟨rfl, rfl⟩ := h.isWhole_iff.mp all
  obtain ⟨c, hc, -⟩ := h.digit
  rw [List.append_nil] at hc
  rw [List.append_nil, List.append_nil]
  exact isNumeral_of_isDigit (List.ne_nil_of_mem hc) h.inWhole

end Parts

end Numeral

end Reckoner
