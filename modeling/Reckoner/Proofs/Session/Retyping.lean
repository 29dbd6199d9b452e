import Reckoner.Proofs.Format.Layout
import Reckoner.Proofs.Numeral.Radix
import Reckoner.Proofs.Session.History
import Reckoner.Proofs.Session.Safety
import Reckoner.Proofs.Token.Numerals
import Reckoner.Proofs.Value.Comparing
import Reckoner.Proofs.Value.Narrowing
import Reckoner.Proofs.Value.Negation
import Reckoner.Proofs.Value.Numerals

/-!
# Typing results back in

An integer that has been rendered in any format can be typed back in: without the blanks and the commas of
the format, and with the marker of its base behind the sign, the text evaluates to the same number
(`evaluate_retyped`).

What is left of the text is a sign and a numeral, and `Strewn` says what its digits have gone through: zeros
in front, and underscores after the first of them.  The numeral is one number token
(`Strewn.isWord_numeral`) and a literal of the integer's magnitude (`Strewn.ofLiteral_numeral`); the sign
negates it.  The least integer of the widest signed order is the one whose magnitude is at no signed order,
and it comes back as a double.
-/

namespace Reckoner

open Token (IsWord)
open Numeral (IsDigitBelow valueOf)

/-! ## Numerals of a base -/

namespace Base

/-- The numeral with the marker of its base or without it. -/
def numeral (b : Base) (marked : Bool) (text : List Char) : List Char :=
  if marked then '0' :: b.marker :: text else text

section Digits

variable {b : Base} {c : Char}

theorem isDigitIn_of_isDigitBelow (h : IsDigitBelow b.radix c) : Number.isDigitIn b.marker c = true := by
  have all : ∀ d < b.radix, Number.isDigitIn b.marker (Nat.digitChar d) = true := by
    cases b <;> decide
  obtain ⟨d, below, rfl⟩ := h
  exact all d below

theorem isDigit_of_isDigitBelow (h : IsDigitBelow Base.decimal.radix c) : Text.isDigit c = true :=
  isDigitIn_of_isDigitBelow (b := .decimal) h

end Digits

end Base

/-- The text is a row of digits of the base with underscores strewn in after the first one. -/
structure Strewn (b : Base) (digits text : List Char) : Prop where
  kept : text.filter (· ≠ '_') = digits
  own : ∀ c ∈ digits, IsDigitBelow b.radix c
  head : ∃ c rest, text = c :: rest ∧ c ≠ '_'

namespace Strewn

variable {b : Base} {digits text : List Char} {marked : Bool}

theorem isDigitBelow (h : Strewn b digits text) {c : Char} (hc : c ∈ text) (other : c ≠ '_') :
    IsDigitBelow b.radix c :=
  h.own c (h.kept ▸ List.mem_filter.mpr ⟨hc, decide_eq_true other⟩)

theorem ne_nil (h : Strewn b digits text) : digits ≠ [] := by
  obtain ⟨c, rest, rfl, other⟩ := h.head
  rw [← h.kept, List.filter_cons_of_pos (by simpa using other)]
  exact List.cons_ne_nil _ _

section Run

variable (h : Strewn .decimal digits text)

include h

/-- Decimal digits and underscores are a run. -/
theorem inRun : ∀ c ∈ text, Number.inRun c = true := by
  intro c hc
  by_cases underscore : c = '_'
  · rw [Number.inRun, decide_eq_true underscore, Bool.true_or]
  · rw [Number.inRun, Base.isDigit_of_isDigitBelow (h.isDigitBelow hc underscore), Bool.or_true]

theorem marker_not_mem (b : Base) : b.marker ∉ text := by
  intro mem
  have inside := h.inRun _ mem
  cases b <;> exact absurd inside (by decide)

end Run

/-- The numeral is one number token. -/
theorem isWord_numeral (h : Strewn b digits text) (plain : marked = true ∨ b = .decimal) :
    IsWord .number (String.ofList (b.numeral marked text)) := by
  obtain ⟨c, rest, rfl, other⟩ := h.head
  cases marked with
  | true =>
    refine Token.isWord_marked (fun d hd => ?_)
      ⟨c, List.mem_cons_self, Base.isDigitIn_of_isDigitBelow (h.isDigitBelow List.mem_cons_self other)⟩
    by_cases underscore : d = '_'
    · rw [Number.goesOn, decide_eq_true underscore, Bool.true_or]
    · rw [Number.goesOn, Base.isDigitIn_of_isDigitBelow (h.isDigitBelow hd underscore), Bool.or_true]
  | false =>
    obtain rfl : b = .decimal := plain.resolve_left Bool.false_ne_true
    exact Token.isWord_run (Base.isDigit_of_isDigitBelow (h.isDigitBelow List.mem_cons_self other))
      fun d hd => h.inRun d (List.mem_cons_of_mem c hd)

/-- The numeral names its base. -/
theorem named_numeral (h : Strewn b digits text) (plain : marked = true ∨ b = .decimal) :
    b = Base.named (b.numeral marked text) := by
  cases marked with
  | true => exact (Base.named_marked b text).symm
  | false =>
    obtain rfl : b = .decimal := plain.resolve_left Bool.false_ne_true
    refine (Base.named_of_unmarked fun b _ front => ?_).symm
    exact h.marker_not_mem b (front.subset (by simp))

/-- The numeral without its marker and its underscores are the digits. -/
theorem bare_numeral (h : Strewn b digits text) (plain : marked = true ∨ b = .decimal) :
    Value.bare b (b.numeral marked text) = digits := by
  cases marked with
  | true =>
    rw [Base.numeral, if_pos rfl, Value.bare_marked, h.kept]
  | false =>
    obtain rfl : b = .decimal := plain.resolve_left Bool.false_ne_true
    exact (Value.bare_of_not_mem (h.marker_not_mem .decimal)).trans h.kept

/-- The numeral is a literal of the integer that its digits stand for. -/
theorem ofLiteral_numeral (h : Strewn b digits text) (plain : marked = true ∨ b = .decimal)
    (short : digits.length ≤ Numeral.digitLimit ∨ Numeral.isPowerOfTwo b.radix = true) {w : Value}
    (narrowed : Value.narrow? (valueOf b.radix digits) = some w) :
    Value.ofLiteral b (b.numeral marked text) = .ok w := by
  have numeral : Numeral.IsNumeral b.radix digits := ⟨h.ne_nil, fun c hc => (h.own c hc).digit? b.radix_le⟩
  have read : Value.readInteger? digits b.radix = .ok (some w) := by
    rw [Value.readInteger?_of_isNumeral numeral short, narrowed]
  unfold Value.ofLiteral
  rw [h.bare_numeral plain]
  cases b with
  | decimal =>
    change Value.ofDecimal digits = .ok w
    unfold Value.ofDecimal
    rw [show Value.readInteger? digits 10 = .ok (some w) from read]
    rfl
  | binary | octal | hex =>
    change Value.ofRadix digits _ = .ok w
    unfold Value.ofRadix
    rw [read]
    rfl

end Strewn

/-! ## The evaluation of a numeral -/

namespace Session

variable {text : String} {b : Base} {w : Value} (word : IsWord .number text)
  (base : b = Base.named text.toList) (value : Value.ofLiteral b text.toList = .ok w) (s : Session)

include word base value

theorem compute_numeral : (s.compute text).outcome = .ok w := by
  have normal : (Expr.literal text b).Normal := ⟨trivial, word, base⟩
  have low : (Expr.literal text b).height ≤ 2 := Nat.le_succ 1
  rw [compute_of_scans normal (Nat.zero_le 1) low (word.scans 0) rfl]
  exact value

/-- A numeral with a minus in front of it is negated. -/
theorem compute_minus_numeral : (s.compute (String.ofList ('-' :: text.toList))).outcome = .ok w.neg := by
  have normal : (Expr.prefixed .negate (.literal text b)).Normal := ⟨⟨rfl, trivial⟩, word, base⟩
  have scanned := (word.scans 1).minus
  rw [← String.toList_ofList (l := '-' :: text.toList)] at scanned
  have operand : ((Expr.literal text b).evaluate s.history).outcome = .ok w := value
  rw [compute_of_scans normal (Nat.le_refl 1) (Nat.le_refl 2) scanned rfl, Expr.evaluate,
    Traced.bind_outcome, operand]
  rfl

end Session

/-! ## Rendered integers -/

namespace Format

/-- Does the character stay when separators are taken out? Underscores do, as digits may have them. -/
def keeps (format : Format) (c : Char) : Bool :=
  match format.separator with
  | .comma => c ≠ ','
  | .space => c ≠ ' '
  | .none | .underscore => true

/-- The text of a rendered integer without the blanks in front of it and the separators that are no
underscores. -/
def unspaced (format : Format) (shown : List Char) : List Char :=
  (shown.dropWhile (· = ' ')).filter format.keeps

/-- The text of a rendered integer as it is typed back in, with or without the marker of its base behind the
sign. -/
def retyped (format : Format) (marked : Bool) (shown : List Char) : List Char :=
  match format.unspaced shown with
  | '-' :: text => '-' :: format.base.numeral marked text
  | text => format.base.numeral marked text

section Integers

variable {format : Format} {o : IntOrder} {n : Int} {h : o.Fits n}

/-- What is taken out of groups or stays there are no digits, and underscores are all that may stay. -/
theorem strewn_grouped (format : Format) {digits : List Char} (ne : digits ≠ [])
    (own : ∀ c ∈ digits, IsDigitBelow format.base.radix c) :
    Strewn format.base digits
      ((grouped format.separator.text format.groupSize digits).filter format.keeps) := by
  have plain {c : Char} (hc : c ∈ digits) : c ∉ ['_', ',', ' ', '-'] :=
    Base.not_mem_of_isDigitBelow (own c hc)
  have underscore : ∀ c ∈ digits, decide (c ≠ '_') = true := by
    rintro c hc
    refine decide_eq_true ?_
    rintro rfl
    exact plain hc (by decide)
  have keeps : ∀ c ∈ digits, format.keeps c = true := by
    intro c hc
    unfold Format.keeps
    split
    · refine decide_eq_true ?_
      rintro rfl
      exact plain hc (by decide)
    · refine decide_eq_true ?_
      rintro rfl
      exact plain hc (by decide)
    · rfl
    · rfl
  have taken : ∀ c ∈ format.separator.text, (format.keeps c && decide (c ≠ '_')) = false := by
    unfold Format.keeps
    cases format.separator <;> simp [Separator.text]
  refine ⟨?_, own, ?_⟩
  · rw [List.filter_filter]
    refine filter_grouped _ _ ?_ ?_
    · intro c hc
      rw [Bool.and_comm]
      exact taken c hc
    · intro c hc
      rw [keeps c hc, underscore c hc]
      rfl
  · cases digits with
    | nil => exact absurd rfl ne
    | cons c cs =>
      rw [grouped_cons, List.filter_cons_of_pos (keeps c List.mem_cons_self)]
      exact ⟨c, _, rfl, of_decide_eq_true (underscore c List.mem_cons_self)⟩

/-- Without its blanks and separators the text of an integer is its sign and its digits. -/
theorem unspaced_textOf (format : Format) (h : o.Fits n) :
    ∃ zeros text, zeros + (Nat.toDigits format.base.radix n.natAbs).length ≤
        max format.width (Nat.toDigits format.base.radix n.natAbs).length ∧
      Strewn format.base (List.replicate zeros '0' ++ Nat.toDigits format.base.radix n.natAbs) text ∧
      format.unspaced (format.textOf (.int o n h)) = (if n < 0 then ['-'] else []) ++ text := by
  obtain ⟨zeros, room, filled⟩ := format.filledWhole_ofInt n
  have own : ∀ c ∈ List.replicate zeros '0' ++ Nat.toDigits format.base.radix n.natAbs,
      IsDigitBelow format.base.radix c := by
    intro c hc
    rcases List.mem_append.mp hc with zero | digit
    · obtain rfl := List.eq_of_mem_replicate zero
      exact ⟨0, Nat.lt_trans Nat.zero_lt_one format.base.one_lt_radix, rfl⟩
    · exact Numeral.isDigitBelow_of_mem_toDigits format.base.one_lt_radix digit
  have ne : List.replicate zeros '0' ++ Nat.toDigits format.base.radix n.natAbs ≠ [] :=
    List.append_ne_nil_of_right_ne_nil _ Nat.toDigits_ne_nil
  refine ⟨zeros, _, room, format.strewn_grouped ne own, ?_⟩
  have sign : (if n < 0 then ['-'] else []).filter format.keeps = if n < 0 then ['-'] else [] := by
    have minus : format.keeps '-' = true := by
      unfold Format.keeps
      cases format.separator <;> rfl
    split
    · exact List.filter_cons_of_pos minus
    · rfl
  -- The first character is a minus or a digit.
  obtain ⟨c, rest, whole, visible⟩ : ∃ c rest, (if n < 0 then ['-'] else []) ++
      grouped format.separator.text format.groupSize
        (List.replicate zeros '0' ++ Nat.toDigits format.base.radix n.natAbs) = c :: rest ∧ c ≠ ' ' := by
    split
    · exact ⟨'-', _, rfl, by decide⟩
    · cases digits : List.replicate zeros '0' ++ Nat.toDigits format.base.radix n.natAbs with
      | nil => exact absurd digits ne
      | cons d ds =>
        rw [List.nil_append, grouped_cons]
        refine ⟨d, _, rfl, ?_⟩
        rintro rfl
        exact Base.not_mem_of_isDigitBelow (own ' ' (digits ▸ List.mem_cons_self)) (by decide)
  rw [unspaced, textOf_int, filled, whole, dropWhile_padLeft visible, ← whole, List.filter_append, sign]

/-- What is typed back in is the sign of the integer and a numeral of its magnitude. -/
theorem retyped_textOf (format : Format) (h : o.Fits n) (marked : Bool) :
    ∃ zeros text, zeros + (Nat.toDigits format.base.radix n.natAbs).length ≤
        max format.width (Nat.toDigits format.base.radix n.natAbs).length ∧
      Strewn format.base (List.replicate zeros '0' ++ Nat.toDigits format.base.radix n.natAbs) text ∧
      format.retyped marked (format.textOf (.int o n h)) =
        (if n < 0 then ['-'] else []) ++ format.base.numeral marked text := by
  obtain ⟨zeros, text, room, strewn, left⟩ := unspaced_textOf format h
  refine ⟨zeros, text, room, strewn, ?_⟩
  rw [retyped, left]
  split
  case h_1 rest same =>
    split at same
    case isTrue negative =>
      obtain rfl : text = rest := (List.cons.inj same).2
      rw [if_pos negative]
      rfl
    case isFalse =>
      -- Without a sign the first character is a digit, which no minus is.
      obtain ⟨c, cs, rfl, other⟩ := strewn.head
      obtain rfl : c = '-' := (List.cons.inj same).1
      have digit := strewn.isDigitBelow List.mem_cons_self other
      exact absurd (by decide) (Base.not_mem_of_isDigitBelow digit)
  case h_2 other =>
    split
    case isTrue negative => exact absurd (by rw [if_pos negative]; rfl) (other text)
    case isFalse => rfl

end Integers

end Format

/-! ## The way back -/

namespace Value

section Restored

variable {o p : IntOrder} {n m : Int}

/-- What becomes of the magnitude of an integer when its sign is put in front of it. -/
def restored (n : Int) (magnitude : Value) : Value := if n < 0 then magnitude.neg else magnitude

/-- The negation of a magnitude is the negative integer again, but for the least one. -/
theorem restored_of_neg (negative : n < 0) (inside : IntOrder.i128.low < n) (size : m = n.natAbs)
    (hp : p.Fits m) : ∃ q hq, restored n (int p m hp) = int q n hq := by
  have bounds : m ≤ IntOrder.i128.high ∧ IntOrder.i128.Fits (-m) := by
    simp only [IntOrder.Fits, IntOrder.low, IntOrder.high] at inside ⊢
    omega
  have opposite : -m = n := by omega
  obtain ⟨q, hq, negated⟩ := neg_int hp bounds.1 bounds.2
  subst opposite
  exact ⟨q, hq, (if_pos negative).trans negated⟩

/-- The magnitude of the least integer is at no signed order, and its negation a double. -/
theorem restored_low (size : m = IntOrder.i128.low.natAbs) (hp : p.Fits m) :
    restored IntOrder.i128.low (int p m hp) = double (.ofInt IntOrder.i128.low) := by
  subst size
  obtain rfl : p = .u128 := eq_u128_of_fits (by decide) hp
  change restored IntOrder.i128.low (int .u128 IntOrder.i128.low.natAbs (by decide)) = _
  decide +kernel

/-- A magnitude with the sign of the integer is that integer again, or the double for the least one. -/
theorem restored_cases (h : o.Fits n) (size : m = n.natAbs) (hp : p.Fits m) :
    (0 ≤ n ∧ restored n (int p m hp) = int p m hp ∧ m = n) ∨
      (IntOrder.i128.low < n ∧ n < 0 ∧ ∃ q hq, restored n (int p m hp) = int q n hq) ∨
        (n = IntOrder.i128.low ∧ restored n (int p m hp) = double (.ofInt n)) := by
  rcases Int.lt_or_le n 0 with negative | nonneg
  · have least : IntOrder.i128.low ≤ n := by
      cases o <;> simp only [IntOrder.Fits, IntOrder.low, IntOrder.high] at h ⊢ <;> omega
    rcases Int.lt_or_eq_of_le least with inside | rfl
    · exact Or.inr (Or.inl ⟨inside, negative, restored_of_neg negative inside size hp⟩)
    · exact Or.inr (Or.inr ⟨rfl, restored_low size hp⟩)
  · exact Or.inl ⟨nonneg, if_neg (Int.not_lt.mpr nonneg), by omega⟩

end Restored

end Value

namespace Session

section Retyped

variable {format : Format} {o : IntOrder} {n : Int} {marked : Bool}

/-- What has been rendered and is typed back in evaluates to the magnitude of the integer with its sign. -/
theorem compute_retyped (s : Session) (narrow : format.width ≤ 4000)
    (plain : marked = true ∨ format.base = .decimal) (h : o.Fits n) :
    ∃ m p hp, m = (n.natAbs : Int) ∧ Value.narrow? m = some (.int p m hp) ∧
      (s.compute (String.ofList (format.retyped marked (format.textOf (.int o n h))))).outcome =
        .ok (Value.restored n (.int p m hp)) := by
  obtain ⟨zeros, text, room, strewn, typed⟩ := Format.retyped_textOf format h marked
  have wide : IntOrder.u128.Fits n.natAbs := by
    cases o <;> simp only [IntOrder.Fits, IntOrder.low, IntOrder.high] at h ⊢ <;> omega
  obtain ⟨p, hp, narrowed⟩ := Value.exists_narrow?_eq_some wide
  refine ⟨_, p, hp, rfl, narrowed, ?_⟩
  have short : (List.replicate zeros '0' ++ Nat.toDigits format.base.radix n.natAbs).length ≤
      Numeral.digitLimit ∨ Numeral.isPowerOfTwo format.base.radix = true := by
    cases base : format.base with
    | binary | octal | hex => exact Or.inr (by decide)
    | decimal =>
      refine Or.inl ?_
      have digits : (Nat.toDigits 10 n.natAbs).length ≤ 39 := by
        refine (Nat.length_toDigits_le_iff (by decide) (by decide)).mpr ?_
        simp only [IntOrder.Fits, IntOrder.high] at wide
        omega
      have limit : Numeral.digitLimit = 4300 := rfl
      rw [base] at room
      have radix : Base.decimal.radix = 10 := rfl
      rw [radix] at room ⊢
      rw [List.length_append, List.length_replicate]
      omega
  have value : Value.ofLiteral format.base (format.base.numeral marked text) = .ok (.int p n.natAbs hp) := by
    refine strewn.ofLiteral_numeral plain short ?_
    rw [Numeral.valueOf_zeros_append,
      Numeral.valueOf_toDigits format.base.one_lt_radix format.base.radix_le]
    exact narrowed
  have word := strewn.isWord_numeral plain
  have base := strewn.named_numeral plain
  rw [← String.toList_ofList (l := format.base.numeral marked text)] at value base typed
  rw [typed, Value.restored]
  split
  · exact compute_minus_numeral word base value s
  · rw [List.nil_append, String.ofList_toList]
    exact compute_numeral word base value s

/-- A rendered integer can be typed back in: its text in a format of moderate width, without the blanks in
front and the commas and blanks between groups, and with the marker of the base behind the sign or, in
decimal, without it, evaluates to the same number in a fresh session, whatever its limits.  An integer that
is not negative comes back at the first order that holds it, a negative one at some integer order, and only
the least integer of the widest signed order comes back as a double. -/
theorem evaluate_retyped (narrow : format.width ≤ 4000)
    (plain : marked = true ∨ format.base = .decimal) (h : o.Fits n) (limits : Limits) (own : Format) :
    ∃ shown w next, format.render (.int o n h) = .ok shown ∧
      ((Session.new limits own).evaluate
        (String.ofList (format.retyped marked shown.toList))).outcome = .ok (w, next) ∧
      w.same (.int o n h) = true ∧
      (0 ≤ n → Value.ofInt n = .ok w) ∧
      (IntOrder.i128.low < n → n < 0 → ∃ p hp, w = .int p n hp) ∧
      (n = IntOrder.i128.low → w.order = .double) := by
  obtain ⟨m, p, hp, size, narrowed, computed⟩ := (Session.new limits own).compute_retyped narrow plain h
  have evaluated := evaluate_outcome (Session.new limits own)
    (String.ofList (format.retyped marked (format.textOf (.int o n h))))
  rw [computed, ← String.toList_ofList (l := format.textOf _)] at evaluated
  refine ⟨_, _, _, Format.render_int (Nat.le_trans narrow (by decide)), evaluated, ?_⟩
  rcases Value.restored_cases h size hp with ⟨nonneg, same, rfl⟩ | ⟨inside, negative, q, hq, same⟩ |
    ⟨least, same⟩
  · rw [same]
    refine ⟨Value.same_int hp h, fun _ => ?_, fun _ negative => absurd negative (Int.not_lt.mpr nonneg), ?_⟩
    · rw [Value.ofInt, narrowed]
    · rintro rfl
      exact absurd nonneg (by decide)
  · rw [same]
    exact ⟨Value.same_int hq h, fun nonneg => absurd negative (Int.not_lt.mpr nonneg),
      fun _ _ => ⟨q, hq, rfl⟩, fun least => absurd inside (least ▸ Int.lt_irrefl _)⟩
  · rw [same]
    exact ⟨Value.same_double_ofInt h, fun nonneg => absurd (least ▸ nonneg) (by decide),
      fun inside => absurd inside (least ▸ Int.lt_irrefl _), fun _ => rfl⟩

end Retyped

theorem evaluate_retyped_beef :
    let format : Format :=
      { zeroPad := true, width := 12, base := .hex, separator := .underscore, groupSize := 2 }
    let limits : Limits := { depth := 300, height := 900 }
    let v : Value := .int .i128 (-48879) (by decide)
    let shown := "-0_00_00_00_be_ef"
    format.render v = .ok shown ∧ format.retyped true shown.toList = "-0x0_00_00_00_be_ef".toList ∧
      ∃ shown w next, format.render v = .ok shown ∧
        ((Session.new limits .standard).evaluate
          (String.ofList (format.retyped true shown.toList))).outcome = .ok (w, next) ∧
        w.same v = true ∧
        (0 ≤ (-48879 : Int) → Value.ofInt (-48879) = .ok w) ∧
        (IntOrder.i128.low < -48879 → (-48879 : Int) < 0 → ∃ p hp, w = .int p (-48879) hp) ∧
        ((-48879 : Int) = IntOrder.i128.low → w.order = .double) := by
  intro format limits v shown
  have narrow : format.width ≤ 4000 := by decide
  have rendered : format.render v = .ok shown := by decide +kernel
  have typed : format.retyped true shown.toList = "-0x0_00_00_00_be_ef".toList := by decide +kernel
  exact ⟨rendered, typed, evaluate_retyped narrow (Or.inl rfl) (by decide) limits .standard⟩

end Session

end Reckoner
