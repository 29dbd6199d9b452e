import Reckoner.Proofs.Expr.Steps

/-!
# Where a parse stops

A run over tokens stops at the first one that its state refuses (`foldlM_eq_error_iff`), and the fault has
the span of that token.  Apart from the span, the fault depends on nothing but the word of the token and
the state, so tokens with one word are taken or refused alike: `placedAt` gives a fault another span, and
`advance_placedAt` and `finish_placedAt` say that this is all that the place of a token changes.
-/

namespace Reckoner

/-- The fault with the span of a token.  A misuse has no span. -/
def Fault.placedAt (t : Token) : Fault → Fault
  | .calculation (.malformed f) => .calculation (.malformed { f with start := t.start, stop := t.stop })
  | fault => fault

namespace ParseState

variable {limit : Nat}

/-- A reference that cannot be read is a misuse. -/
theorem misuse_of_referenceOf {text : String} {fault : Fault}
    (read : referenceOf text = .error fault) : ∃ misuse, fault = .misuse misuse := by
  unfold referenceOf at read
  simp only at read
  split at read
  · split at read
    · cases read
    · exact ⟨_, (Except.error.inj read).symm⟩
  · cases read

section Places

variable {t t' : Token} (word : t.word = t'.word)

include word

theorem shown_congr : t.shown = t'.shown := by
  obtain ⟨kind, text⟩ := Prod.mk.inj word
  unfold Token.shown
  rw [kind, text]

theorem unexpected_placedAt (expected : List Expectation) :
    unexpected t' expected = (unexpected t expected).placedAt t' := by
  unfold unexpected faultAt Fault.placedAt
  rw [shown_congr word, (Prod.mk.inj word).1]

/-- What a state makes of a word does not depend on where the word stands, but for the span of a fault. -/
theorem step_placedAt (s : ParseState) : s.step t' = (s.step t).mapError (Fault.placedAt t') := by
  have unexpected' := unexpected_placedAt word
  have shown := shown_congr word
  obtain ⟨kind, text, start, stop⟩ := t
  obtain ⟨kind', text', start', stop'⟩ := t'
  obtain ⟨rfl, rfl⟩ := Prod.mk.inj word
  cases s with
  | operand ps outer =>
    cases kind with
    | number | opening => rfl
    | closing | finish => exact congrArg Except.error (unexpected' _)
    | history =>
      change (referenceOf text).map _ = ((referenceOf text).map _).mapError _
      cases read : referenceOf text with
      | ok x => rfl
      | error fault =>
        obtain ⟨misuse, rfl⟩ := misuse_of_referenceOf read
        rfl
    | name =>
      simp only [step, takeOperand]
      split
      · rfl
      · rfl
      · simp only [Except.mapError, faultAt, Fault.placedAt, shown]
    | operator =>
      simp only [step, takeOperand]
      split
      · rfl
      · exact congrArg Except.error (unexpected' _)
  | argument f ps outer =>
    simp only [step]
    split
    · rfl
    · exact congrArg Except.error (unexpected' _)
  | complete x ps outer =>
    simp only [step, takeAfter, infixOf?]
    split
    · rfl
    · cases outer with
      | nil => simp only [Except.mapError, faultAt, Fault.placedAt, shown]
      | cons level outer =>
        simp only
        split
        · rfl
        · exact congrArg Except.error (unexpected' _)

theorem advance_placedAt (s : ParseState) :
    s.advance limit t' = (s.advance limit t).mapError (Fault.placedAt t') := by
  have moved := step_placedAt word s
  rcases taken : s.step t with fault | next
  · rw [taken] at moved
    rw [advance_of_step_error taken, advance_of_step_error moved]
    rfl
  · rw [taken] at moved
    rw [advance_of_step_ok taken, advance_of_step_ok moved]
    split <;> rfl

theorem finish_placedAt (s : ParseState) :
    s.finish t' = (s.finish t).mapError (Fault.placedAt t') := by
  have unexpected' := unexpected_placedAt word
  cases s with
  | operand ps outer => exact congrArg Except.error (unexpected' _)
  | argument f ps outer => exact congrArg Except.error (unexpected' _)
  | complete x ps outer =>
    cases outer with
    | nil => rfl
    | cons level outer => exact congrArg Except.error (unexpected' _)

end Places

/-- A fault that has the span of a token already stays as it is when it is placed there. -/
theorem placedAt_of_eq_mapError {α : Type} {r : Except Fault α} {t : Token} {fault : Fault}
    (own : r = r.mapError (Fault.placedAt t)) (h : r = .error fault) : fault.placedAt t = fault := by
  rw [h] at own
  exact (Except.error.inj own).symm

/-- A run over tokens stops at the first one that is refused. -/
theorem foldlM_eq_error_iff {tokens : List Token} {s : ParseState} {fault : Fault} :
    tokens.foldlM (advance limit) s = .error fault ↔ ∃ before t after s',
      tokens = before ++ t :: after ∧ before.foldlM (advance limit) s = .ok s' ∧
        s'.advance limit t = .error fault := by
  constructor
  · intro h
    induction tokens generalizing s with
    | nil => cases h
    | cons t tokens ih =>
      rw [List.foldlM_cons] at h
      cases first : s.advance limit t with
      | error fault' =>
        rw [first] at h
        obtain rfl : fault' = fault := Except.error.inj h
        exact ⟨[], t, tokens, s, rfl, rfl, first⟩
      | ok s' =>
        rw [first] at h
        obtain ⟨before, u, after, s'', rfl, run, refused⟩ := ih h
        refine ⟨t :: before, u, after, s'', rfl, ?_, refused⟩
        rw [List.foldlM_cons, first]
        exact run
  · rintro ⟨before, t, after, s', rfl, run, refused⟩
    rw [List.foldlM_append, run]
    change (t :: after).foldlM (advance limit) s' = .error fault
    rw [List.foldlM_cons, refused]
    rfl

/-- Tokens with the same words are run over alike, as long as they are taken. -/
theorem foldlM_congr {tokens tokens' : List Token} (words : tokens'.map Token.word = tokens.map Token.word)
    {s s' : ParseState} (run : tokens.foldlM (advance limit) s = .ok s') :
    tokens'.foldlM (advance limit) s = .ok s' := by
  induction tokens generalizing s tokens' with
  | nil =>
    obtain rfl := List.map_eq_nil_iff.mp words
    exact run
  | cons t tokens ih =>
    obtain ⟨t', rest, rfl, word, words⟩ := List.map_eq_cons_iff.mp words
    rw [List.foldlM_cons] at run ⊢
    rw [advance_placedAt word.symm s]
    cases first : s.advance limit t with
    | error fault => rw [first] at run; cases run
    | ok next =>
      rw [first] at run
      exact ih words run

end ParseState

/-- A parse of a source that can be scanned is a parse of its tokens. -/
theorem Expr.parse_of_scanned {limit : Nat} {source : String} {tokens : List Token}
    (scanned : Token.Scans 0 source.toList tokens) :
    parse limit source = ofTokens limit tokens (Token.finishAt source.length) := by
  simp only [parse, scanned.scanFrom_eq, String.length_toList]

end Reckoner
