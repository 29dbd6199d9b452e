import Reckoner.CommandLine.Run
import Reckoner.Proofs.Session.History

/-!
# Dialogues

The shell is a machine that reads lines and gives something out for each of them: a prompt and, unless the
line is blank, a reply (`exchange`).  What it gives out for a line depends on the session that the line
meets, and that is the one which the lines before it leave behind: the shell that has read some lines goes
on as a shell that starts from there (`run_append`).  So all texts of a dialogue are read off the lines and
the sessions that they meet (`texts_exchanges`), and the number that a prompt is made from is the number of
answers so far (`size_afterAll`).

A misuse ends the dialogue; the first one does, and nothing else (`run_ending`).  A single line is replied
to in the same way without a shell.
-/

namespace Reckoner

/-! ## Streams -/

/-- The text that an emission adds to the output. -/
def Emission.onOutput : Emission → String
  | .output text => text
  | .complaint _ | .note _ => ""

/-- The text that an emission adds to the error output: events stand there as lines of the journal, if
they are written at all. -/
def Emission.onError (settings : CommandLine.Settings) (journal : Event → String) : Emission → String
  | .output _ => ""
  | .complaint text => text
  | .note e => if settings.writes e then journal e else ""

/-- All that emissions add to the output. -/
def outputText (emissions : List Emission) : String := String.join (emissions.map Emission.onOutput)

/-- All that emissions add to the error output. -/
def errorText (settings : CommandLine.Settings) (journal : Event → String) (emissions : List Emission) :
    String :=
  String.join (emissions.map (Emission.onError settings journal))

@[simp] theorem onOutput_output (text : String) : (Emission.output text).onOutput = text := rfl

@[simp] theorem onOutput_complaint (text : String) : (Emission.complaint text).onOutput = "" := rfl

@[simp] theorem onOutput_note (e : Event) : (Emission.note e).onOutput = "" := rfl

@[simp] theorem outputText_nil : outputText [] = "" := rfl

@[simp] theorem outputText_append (emissions more : List Emission) :
    outputText (emissions ++ more) = outputText emissions ++ outputText more := by
  simp [outputText]

@[simp] theorem outputText_cons (e : Emission) (more : List Emission) :
    outputText (e :: more) = e.onOutput ++ outputText more := by
  simp [outputText]

@[simp] theorem outputText_notes (events : List Event) : outputText (events.map .note) = "" := by
  induction events with
  | nil => rfl
  | cons e events ih => rw [List.map_cons, outputText_cons, ih, onOutput_note, String.empty_append]

section Quiet

variable {settings : CommandLine.Settings} {journal : Event → String}

@[simp] theorem onError_output (text : String) : (Emission.output text).onError settings journal = "" := rfl

@[simp] theorem onError_complaint (text : String) :
    (Emission.complaint text).onError settings journal = text := rfl

@[simp] theorem errorText_nil : errorText settings journal [] = "" := rfl

@[simp] theorem errorText_append (emissions more : List Emission) :
    errorText settings journal (emissions ++ more) =
      errorText settings journal emissions ++ errorText settings journal more := by
  simp [errorText]

@[simp] theorem errorText_cons (e : Emission) (more : List Emission) :
    errorText settings journal (e :: more) = e.onError settings journal ++ errorText settings journal more := by
  simp [errorText]

variable (quiet : Level.warning.rank ≤ CommandLine.threshold (settings.logLevel.getD ""))

include quiet

/-- No event is as grave as a warning. -/
theorem writes_eq_false (e : Event) : settings.writes e = false := by
  have below : e.level.rank < Level.warning.rank := by
    unfold Event.level
    split
    · decide
    · decide
    · decide
    · decide
  exact decide_eq_false (Nat.not_le.mpr (Nat.lt_of_lt_of_le below quiet))

theorem onError_note (e : Event) : (Emission.note e).onError settings journal = "" := by
  simp [Emission.onError, writes_eq_false quiet]

theorem errorText_notes (events : List Event) : errorText settings journal (events.map .note) = "" := by
  induction events with
  | nil => rfl
  | cons e events ih => rw [List.map_cons, errorText_cons, ih, onError_note quiet, String.empty_append]

end Quiet

namespace Session

/-- The session after a line is answered, or refused. -/
def remember (s : Session) (line : String) : Session :=
  match (s.answer line).outcome with
  | .ok (_, next) => next
  | .error _ => s

theorem after_answer (s : Session) (line : String) : s.after (.answer line) = s.remember line := by
  unfold remember
  split
  · exact after_of_answer_ok ‹_›
  · exact after_of_answer_error ‹_›

/-- Every success adds a result. -/
theorem size_afterAll (s : Session) (steps : List Step) :
    (s.afterAll steps).size = s.size + (s.successes steps).length := by
  induction steps generalizing s with
  | nil => rfl
  | cons step steps ih =>
    have rest := ih (s.after step)
    change (s.afterAll (step :: steps)).size = _ at rest
    cases s.taken step with
    | succeeded v answer computed gives grown handed =>
      have size : (s.after step).size = s.size + 1 := by
        rw [grown]
        exact Array.size_push v
      have more : (s.successes (step :: steps)).length = ((s.after step).successes steps).length + 1 := by
        rw [successes, result_eq_ok handed]
        rfl
      rw [rest, size, more]
      omega
    | failed fault refused kept =>
      rw [successes, result_eq_error refused, rest, kept]
      rfl

end Session

/-- The misuse that a computation ends in, if it does. -/
def misuse? {α : Type} : Except Fault α → Option Misuse
  | .error (.misuse m) => some m
  | _ => none

theorem misuse?_map {α β : Type} (f : α → β) (r : Except Fault α) : misuse? (r.map f) = misuse? r := by
  cases r with
  | ok a => rfl
  | error fault => cases fault <;> rfl

namespace Shell

open Session (Step)

/-! ## Exchanges -/

/-- The lines that are not blank. -/
def spoken (lines : List String) : List String := lines.filter fun line => !isEmptyLine line

/-- The steps of a session that lines ask for. -/
def asked (lines : List String) : List Step := (spoken lines).map .answer

/-- The misuse that ends a dialogue: the first one that an answer comes to. -/
def escaping? (s : Session) (lines : List String) : Option Misuse :=
  (s.results (asked lines)).findSome? misuse?

/-- What the shell gives out for a line. -/
def exchange (prompt : Nat → String) (s : Session) (line : String) : List Emission :=
  .output (prompt s.size) :: (turn s line).1

/-- What the shell gives out for lines, each in the session that those before it leave behind. -/
def exchanges (prompt : Nat → String) : Session → List String → List Emission
  | _, [] => []
  | s, line :: rest => exchange prompt s line ++ exchanges prompt (s.afterAll (asked [line])) rest

section Lines

variable {s : Session} {line : String} {m : Misuse}

theorem asked_cons (line : String) (rest : List String) : asked (line :: rest) = asked [line] ++ asked rest := by
  rw [asked, asked, asked, ← List.map_append, spoken, spoken, spoken, ← List.filter_append]
  rfl

theorem asked_of_blank (blank : isEmptyLine line = true) : asked [line] = [] := by
  simp [asked, spoken, blank]

theorem asked_of_spoken (words : isEmptyLine line = false) : asked [line] = [.answer line] := by
  simp [asked, spoken, words]

theorem afterAll_asked_cons (s : Session) (line : String) (rest : List String) :
    s.afterAll (asked (line :: rest)) = (s.afterAll (asked [line])).afterAll (asked rest) := by
  rw [asked_cons, Session.afterAll, List.foldl_append]
  rfl

theorem escaping?_of_spoken (words : isEmptyLine line = false) :
    escaping? s [line] = misuse? (s.answer line).outcome := by
  have result : misuse? (s.result (.answer line)) = misuse? (s.answer line).outcome := by
    rw [Session.result, misuse?_map, Session.take_answer_outcome, misuse?_map]
  rw [escaping?, asked_of_spoken words, ← result]
  cases named : misuse? (s.result (.answer line)) <;> simp [Session.results, named]

theorem escaping?_cons (s : Session) (line : String) (rest : List String) :
    escaping? s (line :: rest) = (escaping? s [line]).or (escaping? (s.afterAll (asked [line])) rest) := by
  unfold escaping?
  rw [asked_cons]
  cases blank : isEmptyLine line with
  | true =>
    rw [asked_of_blank blank]
    rfl
  | false =>
    rw [asked_of_spoken blank]
    cases named : misuse? (s.result (.answer line)) <;> simp [Session.results, Session.afterAll, named]

/-- The three ways to reply to a line. -/
inductive Replied (s : Session) (line : String) : Prop where
  | answered (shown : String) (next : Session) (given : (s.answer line).outcome = .ok (shown, next))
      (said : reply s line =
        ⟨next, (s.answer line).events.map .note ++ [.output (shown ++ "\n")], .answered⟩)
  | refused (e : CalcError) (given : (s.answer line).outcome = .error (.calculation e))
      (said : reply s line =
        ⟨s, (s.answer line).events.map .note ++
          [.note (.failed line e), .complaint (e.describe line ++ "\n")], .refused⟩)
  | broken (m : Misuse) (given : (s.answer line).outcome = .error (.misuse m))
      (said : reply s line = ⟨s, (s.answer line).events.map .note, .broken m⟩)

theorem replied (s : Session) (line : String) : Replied s line := by
  rcases given : (s.answer line).outcome with fault | ⟨shown, next⟩
  · rcases fault with e | m
    · exact .refused e given (by simp only [reply, given])
    · exact .broken m given (by simp only [reply, given])
  · exact .answered shown next given (by simp only [reply, given])

/-! ### Turns -/

theorem turn_of_blank (blank : isEmptyLine line = true) (s : Session) : turn s line = ([], .ok s) :=
  if_pos blank

/-- A line that is not blank is replied to. -/
theorem turn_emissions (words : isEmptyLine line = false) (s : Session) :
    (turn s line).1 = (reply s line).emissions := by
  rw [turn, words, if_neg Bool.false_ne_true]

/-- A line hands on the session after it, or its misuse. -/
theorem turn_next (s : Session) (line : String) :
    (turn s line).2 = (escaping? s [line]).elim (.ok (s.afterAll (asked [line]))) .error := by
  rcases Bool.eq_false_or_eq_true (isEmptyLine line) with blank | words
  · rw [turn_of_blank blank, escaping?, asked_of_blank blank]
    rfl
  · have session : s.afterAll (asked [line]) = (reply s line).session := by
      rw [asked_of_spoken words, Session.reply_session]
      rfl
    rw [escaping?_of_spoken words, session, turn, words]
    rcases replied s line with ⟨_, _, given, said⟩ | ⟨_, given, said⟩ | ⟨_, given, said⟩ <;>
      (rw [said, given]; rfl)

/-! ### The first line of a dialogue -/

variable (prompt : Nat → String)

/-- A line without a misuse is replied to, and the shell goes on with the session after it. -/
theorem run_cons_of_calm (calm : escaping? s [line] = none) (rest : List String) :
    run prompt s (line :: rest) =
      (exchange prompt s line ++ (run prompt (s.afterAll (asked [line])) rest).1,
        (run prompt (s.afterAll (asked [line])) rest).2) := by
  simp only [run, turn_next, calm]
  rfl

/-- A misuse ends the shell in the middle of its reply. -/
theorem run_cons_of_escaping (escapes : escaping? s [line] = some m) (rest : List String) :
    run prompt s (line :: rest) = (exchange prompt s line, .broken m) := by
  simp only [run, turn_next, escapes]
  rfl

end Lines

/-! ## Runs -/

section Runs

variable (prompt : Nat → String)

/-- The shell that has read some lines goes on as one that starts from the session that they leave
behind. -/
theorem run_append {s : Session} {front : List String} (calm : escaping? s front = none) (back : List String) :
    run prompt s (front ++ back) =
      (exchanges prompt s front ++ (run prompt (s.afterAll (asked front)) back).1,
        (run prompt (s.afterAll (asked front)) back).2) := by
  induction front generalizing s with
  | nil => rfl
  | cons line front ih =>
    rw [escaping?_cons, Option.or_eq_none_iff] at calm
    rw [List.cons_append, run_cons_of_calm prompt calm.1, ih calm.2, ← afterAll_asked_cons, exchanges,
      List.append_assoc]

/-- The first misuse ends the shell, and nothing else does before the last line. -/
theorem run_ending (s : Session) (lines : List String) :
    (run prompt s lines).2 = (escaping? s lines).elim (.exit 0) .broken := by
  induction lines generalizing s with
  | nil => rfl
  | cons line rest ih =>
    rw [escaping?_cons]
    cases first : escaping? s [line] with
    | none => rw [run_cons_of_calm prompt first, ih, Option.none_or]
    | some m => rw [run_cons_of_escaping prompt first]; rfl

/-! ## What is written -/

/-- Texts that are read off the emissions one by one are, for a dialogue, the texts for its lines, each in
the session that it meets. -/
theorem texts_exchanges (text : Emission → String) (s : Session) (lines : List String) :
    String.join ((exchanges prompt s lines).map text) =
      String.join (lines.mapIdx fun i line =>
        String.join ((exchange prompt (s.afterAll (asked (lines.take i))) line).map text)) := by
  induction lines generalizing s with
  | nil => rfl
  | cons line rest ih =>
    have later (i : Nat) : s.afterAll (asked ((line :: rest).take (i + 1))) =
        (s.afterAll (asked [line])).afterAll (asked (rest.take i)) := afterAll_asked_cons s line _
    rw [exchanges, List.map_append, String.join_append, ih, List.mapIdx_cons, String.join_cons]
    simp only [later]
    rfl

end Runs

/-- What the output shows for a line that is answered. -/
def shownText (s : Session) (line : String) : String :=
  if isEmptyLine line then ""
  else match (s.answer line).outcome with
    | .ok (shown, _) => shown ++ "\n"
    | .error _ => ""

/-- What the error output shows for a line that is refused. -/
def refusalText (s : Session) (line : String) : String :=
  if isEmptyLine line then ""
  else match (s.answer line).outcome with
    | .error (.calculation e) => e.describe line ++ "\n"
    | _ => ""

theorem output_reply {line : String} (words : isEmptyLine line = false) (s : Session) :
    outputText (reply s line).emissions = shownText s line := by
  simp only [shownText, words, Bool.false_eq_true, if_false]
  rcases replied s line with ⟨shown, next, given, said⟩ | ⟨e, given, said⟩ | ⟨m, given, said⟩
  · simp [given, said]
  · simp [given, said]
  · simp [given, said]

theorem output_exchange (prompt : Nat → String) (s : Session) (line : String) :
    outputText (exchange prompt s line) = prompt s.size ++ shownText s line := by
  rw [exchange, outputText_cons, onOutput_output]
  rcases Bool.eq_false_or_eq_true (isEmptyLine line) with blank | words
  · simp [shownText, blank, turn_of_blank]
  · rw [turn_emissions words, output_reply words]

section Errors

variable {settings : CommandLine.Settings} (journal : Event → String)
  (quiet : Level.warning.rank ≤ CommandLine.threshold (settings.logLevel.getD ""))

include quiet

theorem errors_reply {line : String} (words : isEmptyLine line = false) (s : Session) :
    errorText settings journal (reply s line).emissions = refusalText s line := by
  simp only [refusalText, words, Bool.false_eq_true, if_false]
  rcases replied s line with ⟨shown, next, given, said⟩ | ⟨e, given, said⟩ | ⟨m, given, said⟩
  · simp [given, said, errorText_notes quiet]
  · simp [given, said, errorText_notes quiet, onError_note quiet]
  · simp [given, said, errorText_notes quiet]

theorem errors_exchange (prompt : Nat → String) (s : Session) (line : String) :
    errorText settings journal (exchange prompt s line) = refusalText s line := by
  rw [exchange, errorText_cons, onError_output, String.empty_append]
  rcases Bool.eq_false_or_eq_true (isEmptyLine line) with blank | words
  · simp [refusalText, blank, turn_of_blank]
  · rw [turn_emissions words]
    exact errors_reply journal quiet words s

end Errors

/-- The number of lines that are answered. -/
def answers (s : Session) (lines : List String) : Nat := (s.successes (asked lines)).length

/-- What the shell gives out for lines, and how it ends. -/
structure Converses (settings : CommandLine.Settings) (journal : Event → String) (prompt : Nat → String)
    (s : Session) (lines : List String) (said : List Emission × Ending) : Prop where
  /-- The first misuse ends the shell; without one it ends well. -/
  ending : said.2 = (escaping? s lines).elim (.exit 0) .broken
  /-- After any of the lines the shell goes on from the session that they leave behind. -/
  continues : ∀ front back, lines = front ++ back → escaping? s front = none →
    said = (exchanges prompt s front ++ (run prompt (s.afterAll (asked front)) back).1,
      (run prompt (s.afterAll (asked front)) back).2)
  /-- The lines that are not blank are answered one after the other. -/
  remembers : s.afterAll (asked lines) = (spoken lines).foldl Session.remember s
  output : escaping? s lines = none → outputText said.1 =
    String.join (lines.mapIdx fun i line =>
      prompt (s.size + answers s (lines.take i)) ++ shownText (s.afterAll (asked (lines.take i))) line) ++
    prompt (s.size + answers s lines) ++ "\n"
  errors : escaping? s lines = none → errorText settings journal said.1 =
    String.join (lines.mapIdx fun i line => refusalText (s.afterAll (asked (lines.take i))) line)

/-- What is given out for a single line, once without the shell and once by it. -/
structure AnswersAlike (settings : CommandLine.Settings) (journal : Event → String)
    (prompt : Nat → String) (s : Session) (line : String) (alone said : List Emission × Ending) : Prop where
  output : outputText alone.1 = shownText s line
  errors : errorText settings journal alone.1 = refusalText s line
  /-- The shell adds its prompts, the second one if it goes on. -/
  prompts : outputText said.1 = prompt s.size ++ outputText alone.1 ++
    if escaping? s [line] = none then prompt (s.size + answers s [line]) ++ "\n" else ""
  complaints : errorText settings journal said.1 = errorText settings journal alone.1
  ending : alone.2 = match (s.answer line).outcome with
    | .ok _ => .exit 0
    | .error (.calculation _) => .exit 1
    | .error (.misuse m) => .broken m

theorem afterAll_asked (s : Session) (lines : List String) :
    s.afterAll (asked lines) = (spoken lines).foldl Session.remember s := by
  rw [Session.afterAll, asked, List.foldl_map]
  simp only [Session.after_answer]

/-- The shell ends a dialogue that no misuse has ended with one more prompt. -/
theorem output_run_nil (prompt : Nat → String) (s : Session) :
    outputText (run prompt s []).1 = prompt s.size ++ "\n" := by
  simp [run, farewell]

section Refinement

variable {settings : CommandLine.Settings} (journal : Event → String)
  (quiet : Level.warning.rank ≤ CommandLine.threshold (settings.logLevel.getD ""))

include quiet

variable (prompt : Nat → String)

theorem converses (s : Session) (lines : List String) :
    Converses settings journal prompt s lines (run prompt s lines) := by
  have whole (calm : escaping? s lines = none) :
      (run prompt s lines).1 =
      exchanges prompt s lines ++ [.output (prompt (s.afterAll (asked lines)).size), .output "\n"] := by
    have last := run_append prompt calm []
    rw [List.append_nil] at last
    rw [last]
    rfl
  refine ⟨run_ending prompt s lines, ?_, afterAll_asked s lines, ?_, ?_⟩
  · rintro front back rfl calm
    exact run_append prompt calm back
  · intro calm
    have exchanged : outputText (exchanges prompt s lines) = String.join (lines.mapIdx fun i line =>
        prompt (s.size + answers s (lines.take i)) ++ shownText (s.afterAll (asked (lines.take i))) line) := by
      refine (texts_exchanges prompt Emission.onOutput s lines).trans ?_
      simp only [← outputText.eq_1, output_exchange, Session.size_afterAll]
      rfl
    have last : (s.afterAll (asked lines)).size = s.size + answers s lines := s.size_afterAll _
    rw [whole calm, outputText_append, exchanged, last, String.append_assoc]
    simp
  · intro calm
    rw [whole calm, errorText_append]
    have exchanged : errorText settings journal (exchanges prompt s lines) =
        String.join (lines.mapIdx fun i line => refusalText (s.afterAll (asked (lines.take i))) line) := by
      refine (texts_exchanges prompt (Emission.onError settings journal) s lines).trans ?_
      simp only [← errorText.eq_1, errors_exchange journal quiet prompt]
    rw [exchanged]
    simp

theorem answersAlike {line : String} (words : isEmptyLine line = false) (s : Session) :
    AnswersAlike settings journal prompt s line (once s line) (run prompt s [line]) := by
  have output : outputText (once s line).1 = shownText s line := output_reply words s
  have errors : errorText settings journal (once s line).1 = refusalText s line :=
    errors_reply journal quiet words s
  refine ⟨output, errors, ?_, ?_, ?_⟩
  · rw [output]
    cases escapes : escaping? s [line] with
    | none =>
      have size : (s.afterAll (asked [line])).size = s.size + answers s [line] := s.size_afterAll _
      rw [run_cons_of_calm prompt escapes, outputText_append, output_exchange, output_run_nil, size, if_pos rfl]
    | some m => rw [run_cons_of_escaping prompt escapes, output_exchange, if_neg nofun, String.append_empty]
  · rw [errors]
    cases escapes : escaping? s [line] with
    | none =>
      rw [run_cons_of_calm prompt escapes, errorText_append, errors_exchange journal quiet prompt]
      simp [run, farewell]
    | some m => rw [run_cons_of_escaping prompt escapes, errors_exchange journal quiet prompt]
  · rcases replied s line with ⟨shown, next, given, said⟩ | ⟨e, given, said⟩ | ⟨m, given, said⟩
    · rw [once, said, given]
    · rw [once, said, given]
    · rw [once, said, given]

/-- The shell refines a session, whatever its prompt, and a single line is answered without it just as by
it. -/
theorem shell_refines_session :
    (∀ s lines, Converses settings journal prompt s lines (run prompt s lines)) ∧
      ∀ s line, isEmptyLine line = false →
        AnswersAlike settings journal prompt s line (once s line) (run prompt s [line]) :=
  ⟨converses journal quiet prompt, fun s _ words => answersAlike journal quiet prompt words s⟩

end Refinement

theorem shell_refines_session_of_warning :
    let s := Session.new { depth := 300, height := 900 } .standard
    let lines := ["1 + 1", "", "@ * 3", "1 +", "@"]
    Converses .initial Event.entry standardPrompt s lines (run standardPrompt s lines) ∧
      AnswersAlike .initial Event.entry standardPrompt s "1 +" (once s "1 +") (run standardPrompt s ["1 +"]) ∧
      escaping? s lines = none ∧
      outputText (run standardPrompt s lines).1 = "[0]: 2\n[1]: [1]: 6\n[2]: [2]: 6\n[3]: \n" ∧
      errorText .initial Event.entry (run standardPrompt s lines).1 = "unexpected EOF\n1 +\n   ^\n" := by
  have quiet : Level.warning.rank ≤
      CommandLine.threshold (CommandLine.Settings.initial.logLevel.getD "") := by decide +kernel
  intro s lines
  refine ⟨(shell_refines_session Event.entry quiet standardPrompt).1 s lines,
    (shell_refines_session Event.entry quiet standardPrompt).2 s "1 +" (by decide +kernel), ?_, ?_, ?_⟩
  · decide +kernel
  · decide +kernel
  · decide +kernel

end Shell

end Reckoner
