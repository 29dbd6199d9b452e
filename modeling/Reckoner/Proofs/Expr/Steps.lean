import Mathlib.Data.List.Induction
import Reckoner.Proofs.Expr.Waiting

/-!
# Steps of the parser

Each token that the parser takes moves its state in one of nine ways, which `Reads` lists: an operand
is completed, an operator is put among the waiting ones, or a parenthesis is opened or closed.  The
list is complete, and nothing in it is ever refused (`step_eq_ok_iff`), so what is said of a parse from
here on is said of these nine ways.  `advance_eq_ok_iff` adds the limit on how deep the reading may go, and
`parse_eq_ok_iff` takes a parse apart into a scan, a run over the tokens and the folding of what waits
at the end.
-/

namespace Reckoner

namespace ParseState

/-- The base that a marker stands for is the base that the literal names. -/
theorem base_of_marker (c : Char) (rest : List Char) :
    (Base.all.find? (·.marker = c)).getD .decimal = Base.named ('0' :: c :: rest) := by
  by_cases hb : c = 'b'
  · subst hb; rfl
  by_cases ho : c = 'o'
  · subst ho; rfl
  by_cases hd : c = 'd'
  · subst hd; rfl
  by_cases hx : c = 'x'
  · subst hx; rfl
  have unmarked : Base.all.find? (·.marker = c) = none := by
    simp [Base.all, Base.marker, Ne.symm hb, Ne.symm ho, Ne.symm hd, Ne.symm hx]
  rw [unmarked]
  unfold Base.named
  split <;> simp_all

/-- The tree of a number token has the base that its text names. -/
theorem literalOf_eq (text : String) : literalOf text = .literal text (Base.named text.toList) := by
  unfold literalOf
  split
  case h_1 c rest text => rw [text, base_of_marker c rest]
  case h_2 other =>
    unfold Base.named
    split <;> simp_all

/-- The ways to take a word. -/
inductive Reads : ParseState → Token.Word → ParseState → Prop where
  | number (text : String) {ps : List Pending} {outer : List (Bracket × List Pending)} :
      Reads (.operand ps outer) (.number, text)
        (.complete (.literal text (Base.named text.toList)) ps outer)
  | history {text : String} {x : Expr} {ps : List Pending} {outer : List (Bracket × List Pending)}
      (read : referenceOf text = .ok x) :
      Reads (.operand ps outer) (.history, text) (.complete x ps outer)
  | constant {text : String} {c : Constant} {ps : List Pending}
      {outer : List (Bracket × List Pending)} (named : Constant.ofName? text = some c) :
      Reads (.operand ps outer) (.name, text) (.complete (.constant c) ps outer)
  | function {text : String} {f : Function} {ps : List Pending}
      {outer : List (Bracket × List Pending)} (other : Constant.ofName? text = none)
      (named : Function.ofName? text = some f) :
      Reads (.operand ps outer) (.name, text) (.argument f ps outer)
  | sign {text : String} {op : PrefixOp} {ps : List Pending}
      {outer : List (Bracket × List Pending)} (spelled : PrefixOp.ofSpelling? text = some op) :
      Reads (.operand ps outer) (.operator, text) (.operand (.prefixed op :: ps) outer)
  | group (text : String) {ps : List Pending} {outer : List (Bracket × List Pending)} :
      Reads (.operand ps outer) (.opening, text) (.operand [] ((.group, ps) :: outer))
  | call (text : String) {f : Function} {ps : List Pending}
      {outer : List (Bracket × List Pending)} :
      Reads (.argument f ps outer) (.opening, text) (.operand [] ((.call f, ps) :: outer))
  | operator {text : String} {op : InfixOp} {x l : Expr} {ps waiting : List Pending}
      {outer : List (Bracket × List Pending)} (spelled : InfixOp.ofSpelling? text = some op)
      (folded : Pending.foldBefore op x ps = (l, waiting)) :
      Reads (.complete x ps outer) (.operator, text) (.operand (.infixed l op :: waiting) outer)
  | closing (text : String) {x y : Expr} {bracket : Bracket} {ps saved : List Pending}
      {outer : List (Bracket × List Pending)} (folded : Pending.foldAll x ps = y) :
      Reads (.complete x ps ((bracket, saved) :: outer)) (.closing, text)
        (.complete (bracket.close y) saved outer)

/-- Where an operand is due, a step reads in one of six ways. -/
theorem reads_of_takeOperand {t : Token} {ps : List Pending} {outer : List (Bracket × List Pending)}
    {s' : ParseState} (h : takeOperand t ps outer = .ok s') : Reads (.operand ps outer) t.word s' := by
  obtain ⟨kind, text, start, stop⟩ := t
  cases kind <;> simp only [takeOperand] at h
  case number =>
    obtain rfl := Except.ok.inj h
    rw [literalOf_eq]
    exact .number text
  case history =>
    cases read : referenceOf text with
    | error fault => rw [read] at h; cases h
    | ok x =>
      rw [read] at h
      obtain rfl := Except.ok.inj h
      exact .history read
  case name =>
    split at h
    case h_1 named => obtain rfl := Except.ok.inj h; exact .constant named
    case h_2 other named => obtain rfl := Except.ok.inj h; exact .function other named
    case h_3 => cases h
  case opening =>
    obtain rfl := Except.ok.inj h
    exact .group text
  case operator =>
    split at h
    case h_1 op spelled => obtain rfl := Except.ok.inj h; exact .sign spelled
    case h_2 => cases h
  case closing => cases h
  case finish => cases h

/-- After an operand, a step reads an operator or closes a parenthesis. -/
theorem reads_of_takeAfter {t : Token} {x : Expr} {ps : List Pending}
    {outer : List (Bracket × List Pending)} {s' : ParseState}
    (h : takeAfter t x ps outer = .ok s') : Reads (.complete x ps outer) t.word s' := by
  obtain ⟨kind, text, start, stop⟩ := t
  simp only [takeAfter] at h
  cases infixed : infixOf? ⟨kind, text, start, stop⟩ with
  | some op =>
    rw [infixed] at h
    obtain rfl := Except.ok.inj h
    rw [infixOf?] at infixed
    split at infixed
    case isTrue operator =>
      obtain rfl : kind = .operator := operator
      exact .operator infixed rfl
    case isFalse => cases infixed
  | none =>
    rw [infixed] at h
    match outer with
    | [] => cases h
    | (bracket, saved) :: rest =>
      simp only at h
      split at h
      case isTrue closing =>
        obtain rfl := Except.ok.inj h
        obtain rfl : kind = .closing := closing
        exact .closing text rfl
      case isFalse => cases h

/-- A step succeeds just in the ways that are listed. -/
theorem step_eq_ok_iff {s s' : ParseState} {t : Token} : s.step t = .ok s' ↔ Reads s t.word s' := by
  constructor
  · intro h
    cases s with
    | operand ps outer => exact reads_of_takeOperand h
    | complete x ps outer => exact reads_of_takeAfter h
    | argument f ps outer =>
      obtain ⟨kind, text, start, stop⟩ := t
      simp only [step] at h
      split at h
      case isTrue opening =>
        obtain rfl := Except.ok.inj h
        obtain rfl : kind = .opening := opening
        exact .call text
      case isFalse => cases h
  · obtain ⟨kind, text, start, stop⟩ := t
    intro h
    generalize hw : Token.word ⟨kind, text, start, stop⟩ = w at h
    cases h <;> obtain ⟨rfl, rfl⟩ := Prod.mk.inj hw
    case number => exact congrArg (fun x => Except.ok (complete x _ _)) (literalOf_eq text)
    case history read => simp only [step, takeOperand, read]; rfl
    case constant named => simp only [step, takeOperand, named]
    case function other named => simp only [step, takeOperand, other, named]
    case sign spelled => simp only [step, takeOperand, spelled]
    case group => rfl
    case call => rfl
    case operator spelled folded =>
      simp only [step, takeAfter, infixOf?, spelled, folded, if_true]
    case closing folded => rw [← folded]; rfl

section Advance

variable {limit : Nat} {s : ParseState} {t : Token}

theorem advance_of_step_ok {next : ParseState} (taken : s.step t = .ok next) :
    s.advance limit t = if next.depth ≤ limit then .ok next
      else .error (.calculation (.malformed ⟨.nestedTooDeeply, t.start, t.stop, [], none⟩)) := by
  rw [advance, taken]
  rfl

theorem advance_of_step_error {fault : Fault} (refused : s.step t = .error fault) :
    s.advance limit t = .error fault := by
  rw [advance, refused]
  rfl

/-- A word is taken if it can be and the reading is no deeper than the limit then. -/
theorem advance_eq_ok_iff {s' : ParseState} :
    s.advance limit t = .ok s' ↔ Reads s t.word s' ∧ s'.depth ≤ limit := by
  rw [← step_eq_ok_iff]
  rcases taken : s.step t with fault | next
  · rw [advance_of_step_error taken]
    exact iff_of_false nofun fun h => nomatch h.1
  · rw [advance_of_step_ok taken]
    split
    case isTrue shallow => exact ⟨fun h => ⟨h, Except.ok.inj h ▸ shallow⟩, fun h => h.1⟩
    case isFalse deep => exact iff_of_false nofun fun h => deep (Except.ok.inj h.1 ▸ h.2)

end Advance

/-- What holds at the start and is kept by each step holds when all tokens have been read. -/
theorem run_induction {limit : Nat} {motive : List Token → ParseState → Prop} {tokens : List Token}
    {s : ParseState} (run : tokens.foldlM (advance limit) start = .ok s) (base : motive [] start)
    (next : ∀ done t s s', t ∈ tokens → motive done s → Reads s t.word s' →
      s'.depth ≤ limit → motive (done ++ [t]) s') : motive tokens s := by
  -- The last token is taken off, so that the induction speaks of what was read from the start.
  induction tokens using List.reverseRecOn generalizing s with
  | nil =>
    obtain rfl := Except.ok.inj run
    exact base
  | append_singleton done t ih =>
    rw [List.foldlM_append] at run
    cases before : done.foldlM (advance limit) start with
    | error fault => rw [before] at run; cases run
    | ok s₀ =>
      rw [before] at run
      have taken : s₀.advance limit t = .ok s := by
        cases last : s₀.advance limit t with
        | error fault => simp [Bind.bind, Except.bind, List.foldlM_cons, last] at run
        | ok s' => simpa [Bind.bind, Except.bind, Pure.pure, Except.pure, last] using run
      obtain ⟨reads, shallow⟩ := advance_eq_ok_iff.mp taken
      have kept := ih before fun done' t' s₁ s₂ ht' =>
        next done' t' s₁ s₂ (List.mem_append_left _ ht')
      exact next done t s₀ s (by simp) kept reads shallow

/-- A source may end where an operand is complete and no parenthesis is open. -/
theorem finish_eq_ok_iff {s : ParseState} {t : Token} {x : Expr} :
    s.finish t = .ok x ↔ ∃ y ps, s = .complete y ps [] ∧ Pending.foldAll y ps = x := by
  constructor
  · intro h
    cases s with
    | operand | argument => cases h
    | complete y ps outer =>
      cases outer with
      | cons => cases h
      | nil => exact ⟨y, ps, rfl, Except.ok.inj h⟩
  · rintro ⟨y, ps, rfl, rfl⟩
    rfl

end ParseState

namespace Expr

/-- A parse scans the source, reads all its words and folds what waits at the end. -/
theorem parse_eq_ok_iff {limit : Nat} {source : String} {t : Expr} :
    parse limit source = .ok t ↔ ∃ tokens y ps, Token.Scans 0 source.toList tokens ∧
      tokens.foldlM (ParseState.advance limit) .start = .ok (.complete y ps []) ∧
        Pending.foldAll y ps = t := by
  unfold parse
  constructor
  · intro h
    simp only at h
    split at h
    case h_1 => cases h
    case h_2 tokens scanned =>
      rw [ofTokens] at h
      cases run : tokens.foldlM (ParseState.advance limit) .start with
      | error fault => rw [run] at h; cases h
      | ok s =>
        rw [run] at h
        obtain ⟨y, ps, rfl, rfl⟩ := ParseState.finish_eq_ok_iff.mp h
        exact ⟨tokens, y, ps, Token.scans_of_scanFrom scanned, run, rfl⟩
  · rintro ⟨tokens, y, ps, scanned, run, rfl⟩
    simp only [scanned.scanFrom_eq, ofTokens, run]
    rfl

end Expr

end Reckoner
