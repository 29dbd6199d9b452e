import Mathlib.Data.List.TakeWhile
import Reckoner.Proofs.Session.History
import Reckoner.Proofs.Session.Safety

/-!
# Lines and expressions

A line is answered with what the evaluation of its expression gives, shown in the format for the line
(`answer_outcome`), and `showing` says how the two are put together.  A line is cut at its first colon, so
all that stands behind it is the annotation, further colons too (`splitLine_append`).

`Annotates` spells out what follows for a caller.  Of several faults the one of the format is reported
first, then that of the evaluation, then that of the rendering.  A line that is answered leaves the session
that the evaluation of its expression leaves, and one that is not leaves the session as it was.
-/

namespace Reckoner

namespace Session

/-- What an evaluation gives, shown in a format. -/
def showing (format : Except Fault Format) (evaluated : Except Fault (Value × Session)) :
    Except Fault (String × Session) :=
  format.bind fun f => evaluated.bind fun found => (f.render found.1).map fun shown => (shown, found.2)

/-! ## Where a line is cut -/

section Cut

variable {text : String} (plain : ':' ∉ text.toList)

include plain

theorem ne_colon_of_mem {c : Char} (hc : c ∈ text.toList) : decide (c ≠ ':') = true := by
  refine decide_eq_true ?_
  rintro rfl
  exact plain hc

theorem splitLine_of_not_mem : splitLine text = (text, none) := by
  have whole : text.toList.dropWhile (· ≠ ':') = [] :=
    List.dropWhile_eq_nil_iff.mpr fun _ => ne_colon_of_mem plain
  simp only [splitLine, whole]

theorem splitLine_append (form : String) :
    splitLine (text ++ ":" ++ form) = (text, some form) := by
  have line : (text ++ ":" ++ form).toList = text.toList ++ ':' :: form.toList := by
    simp [String.toList_append]
  have front : (text.toList ++ ':' :: form.toList).takeWhile (· ≠ ':') = text.toList := by
    rw [List.takeWhile_append_of_pos fun _ => ne_colon_of_mem plain]
    simp
  have back : (text.toList ++ ':' :: form.toList).dropWhile (· ≠ ':') =
      ':' :: form.toList := by
    rw [List.dropWhile_append_of_pos fun _ => ne_colon_of_mem plain]
    simp
  simp only [splitLine, line, front, back, String.ofList_toList]

end Cut

/-! ## Answers -/

section Answers

variable {s : Session} {line text : String} {own : Option String}

/-- A line is answered with the evaluation of its expression, shown in its format. -/
theorem answer_outcome (s : Session) (cut : splitLine line = (text, own)) :
    (s.answer line).outcome = showing (s.formatFor own) (s.evaluate text).outcome := by
  rw [evaluate_outcome]
  simp only [answer, cut, showing, Traced.bind_outcome, Traced.silent_outcome]
  cases s.formatFor own with
  | error fault => rfl
  | ok f =>
    cases (s.compute text).outcome with
    | error fault => rfl
    | ok v =>
      simp only [Except.bind, Except.map]
      cases f.render v with
      | error fault => rfl
      | ok shown => rfl

/-- The answer to the line, and the session that it leaves, are those of the evaluation of the text, shown in
the format. -/
structure Annotates (s : Session) (format : Except Fault Format) (line text : String) : Prop where
  /-- A format at fault is reported first, whatever the text is. -/
  misformatted : ∀ fault, format = .error fault →
    (s.answer line).outcome = .error fault ∧ s.after (.answer line) = s
  /-- The fault of the evaluation is reported next. -/
  refused : ∀ f fault, format = .ok f → (s.evaluate text).outcome = .error fault →
    (s.answer line).outcome = .error fault ∧ s.after (.answer line) = s
  /-- A value that cannot be rendered is not recorded. -/
  unrendered : ∀ f v next fault, format = .ok f → (s.evaluate text).outcome = .ok (v, next) →
    f.render v = .error fault →
    (s.answer line).outcome = .error fault ∧ s.after (.answer line) = s
  /-- A value that can be rendered is recorded as by the evaluation. -/
  rendered : ∀ f v next shown, format = .ok f → (s.evaluate text).outcome = .ok (v, next) →
    f.render v = .ok shown →
    (s.answer line).outcome = .ok (shown, next) ∧
      s.after (.answer line) = next ∧ s.after (.evaluate text) = next

theorem after_of_evaluate_ok {v : Value} {next : Session}
    (h : (s.evaluate text).outcome = .ok (v, next)) : s.after (.evaluate text) = next := by
  have taken : (s.take (.evaluate text)).outcome = .ok (.value v, next) := by
    rw [take, Traced.bind_outcome, h]
    rfl
  exact after_of_take_ok taken

theorem annotates_of_splitLine (cut : splitLine line = (text, own)) :
    s.Annotates (s.formatFor own) line text := by
  have answered := s.answer_outcome cut
  have failing {fault : Fault} (h : (s.answer line).outcome = .error fault) :
      (s.answer line).outcome = .error fault ∧ s.after (.answer line) = s :=
    ⟨h, after_of_answer_error h⟩
  refine ⟨?_, ?_, ?_, ?_⟩
  · intro fault format
    rw [format] at answered
    exact failing answered
  · intro f fault format evaluated
    rw [format, evaluated] at answered
    exact failing answered
  · intro f v next fault format evaluated unrendered
    rw [format, evaluated, showing, Except.bind, Except.bind, unrendered] at answered
    exact failing answered
  · intro f v next shown format evaluated rendered
    rw [format, evaluated, showing, Except.bind, Except.bind, rendered] at answered
    exact ⟨answered, after_of_answer_ok answered, after_of_evaluate_ok evaluated⟩

/-- An answer is given to an expression that has a value, and that value is recorded. -/
theorem evaluated_of_answer (cut : splitLine line = (text, own)) {shown : String} {next : Session}
    (h : (s.answer line).outcome = .ok (shown, next)) :
    ∃ v, (s.evaluate text).outcome = .ok (v, next) := by
  rw [s.answer_outcome cut] at h
  unfold showing at h
  cases format : s.formatFor own with
  | error fault => rw [format] at h; cases h
  | ok f =>
    cases evaluated : (s.evaluate text).outcome with
    | error fault => rw [format, evaluated] at h; cases h
    | ok found =>
      rw [format, evaluated] at h
      cases rendered : f.render found.1 with
      | error fault => simp [Except.bind, Except.map, rendered] at h
      | ok own =>
        simp only [Except.bind, Except.map, rendered, Except.ok.injEq, Prod.mk.injEq] at h
        obtain ⟨-, rfl⟩ := h
        exact ⟨found.1, rfl⟩

/-- Lines with an annotation and without one are answered as their expression is evaluated, in the format of
the annotation or in that of the session; and where both are answered, both record one value. -/
theorem answer_annotated (s : Session) {text : String} (plain : ':' ∉ text.toList) (form : String) :
    s.Annotates (Format.parse form) (text ++ ":" ++ form) text ∧
    s.Annotates (.ok s.format) text text ∧
    ∀ shown shown' next next', (s.answer text).outcome = .ok (shown, next) →
      (s.answer (text ++ ":" ++ form)).outcome = .ok (shown', next') →
      ∃ v, (s.evaluate text).outcome = .ok (v, next) ∧
        next = { s with history := s.history.push v } ∧ next' = next := by
  have bare := splitLine_of_not_mem plain
  have cut := splitLine_append plain form
  refine ⟨annotates_of_splitLine cut, annotates_of_splitLine bare, ?_⟩
  intro shown shown' next next' answered annotated
  obtain ⟨v, evaluated⟩ := evaluated_of_answer bare answered
  obtain ⟨v', evaluated'⟩ := evaluated_of_answer cut annotated
  have one : (v', next') = (v, next) := Except.ok.inj (evaluated'.symm.trans evaluated)
  have recorded := evaluated
  rw [evaluate_outcome] at recorded
  cases computed : (s.compute text).outcome with
  | error fault => rw [computed] at recorded; cases recorded
  | ok w =>
    rw [computed] at recorded
    obtain ⟨rfl, rfl⟩ := Prod.mk.inj (Except.ok.inj recorded)
    exact ⟨w, evaluated, rfl, congrArg Prod.snd one⟩

theorem answer_annotated_quotient :
    let s : Session := ⟨{ depth := 300, height := 900 }, #[.int .u64 510 (by decide)], .standard⟩
    let text := "@ / 4"
    (s.answer text).outcome.map Prod.fst = .ok "127.5" ∧
      (s.answer (text ++ ":" ++ "011,2")).outcome.map Prod.fst = .ok "0,00,00,01,27.5" ∧
      ':' ∉ text.toList ∧
      s.Annotates (Format.parse "011,2") (text ++ ":" ++ "011,2") text ∧
      s.Annotates (.ok s.format) text text ∧
      ∀ shown shown' next next', (s.answer text).outcome = .ok (shown, next) →
        (s.answer (text ++ ":" ++ "011,2")).outcome = .ok (shown', next') →
        ∃ v, (s.evaluate text).outcome = .ok (v, next) ∧
          next = { s with history := s.history.push v } ∧ next' = next := by
  intro s text
  have plain : ':' ∉ text.toList := by decide
  exact ⟨by decide +kernel, by decide +kernel, plain, s.answer_annotated plain "011,2"⟩

end Answers

end Session

end Reckoner
