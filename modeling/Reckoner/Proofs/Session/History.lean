import Reckoner.Shell
import Reckoner.Proofs.Expr.Reading
import Reckoner.Proofs.Journal.Recording
import Reckoner.Proofs.Token.Numerals

/-!
# What a session remembers

A step of a session evaluates an expression, or answers a line that may carry an annotation.  A step that
fails hands no session back, so what it leaves behind is read off the journal, whose events survive a
fault: the history has grown by the values that were recorded (`Session.after`).

Whatever a step does before it records is `Session.prepare`, and nothing is recorded there
(`recordings_prepare`).  So a step that succeeds adds the value of its expression and nothing else, and a
step that fails leaves the session as it was (`Session.taken`).  All else about whole runs follows from
this by induction over the steps.  What a reference reads is also the value of its text
(`Session.compute_reference`).
-/

namespace Reckoner

open Token (IsWord)

namespace Session

/-! ## Steps -/

theorem recordings_compute (s : Session) (text : String) : recordings (s.compute text).events = [] := by
  unfold compute
  split
  · exact recordings_evaluate _ _
  · rfl

/-- A step of a session: an expression, or a line that may carry an annotation. -/
inductive Step where
  | evaluate (text : String)
  | answer (line : String)

/-- What a step that succeeds gives. -/
inductive Answer where
  | value (v : Value)
  | text (shown : String)

/-- Takes a step. -/
def take (s : Session) : Step → Traced (Answer × Session)
  | .evaluate text => do
    let (v, next) ← s.evaluate text
    pure (.value v, next)
  | .answer line => do
    let (shown, next) ← s.answer line
    pure (.text shown, next)

/-- The text of the expression in a step. -/
def Step.expression : Step → String
  | .evaluate text => text
  | .answer line => (splitLine line).1

/-- What a step finds before it records: the value of its expression, and its answer. -/
def prepare (s : Session) : Step → Traced (Value × Answer)
  | .evaluate text => do
    let v ← s.compute text
    pure (v, .value v)
  | .answer line => do
    let format ← Traced.silent (s.formatFor (splitLine line).2)
    let v ← s.compute (splitLine line).1
    let shown ← Traced.silent (format.render v)
    pure (v, .text shown)

/-- A step records at its end. -/
theorem take_eq (s : Session) (step : Step) :
    s.take step = s.prepare step >>= fun found =>
      s.record step.expression found.1 >>= fun next => pure (found.2, next) := by
  cases step with
  | evaluate text => simp [take, evaluate, prepare, Step.expression]
  | answer line => simp [take, answer, prepare, Step.expression]

theorem recordings_prepare (s : Session) (step : Step) : recordings (s.prepare step).events = [] := by
  cases step with
  | evaluate text => exact recordings_bind (s.recordings_compute text) fun _ => rfl
  | answer line =>
    exact recordings_bind rfl fun format => recordings_bind (s.recordings_compute _) fun v =>
      recordings_bind rfl fun shown => rfl

/-- The answer to a step whose expression has the value `v`: that value, or its text in the format for the
line. -/
def Gives (s : Session) (v : Value) : Step → Answer → Prop
  | .evaluate _, answer => answer = .value v
  | .answer line, answer => ∃ format shown, s.formatFor (splitLine line).2 = .ok format ∧
      format.render v = .ok shown ∧ answer = .text shown

theorem gives_of_prepare {s : Session} {step : Step} {v : Value} {answer : Answer}
    (h : (s.prepare step).outcome = .ok (v, answer)) :
    (s.compute step.expression).outcome = .ok v ∧ s.Gives v step answer := by
  cases step with
  | evaluate text =>
    obtain ⟨w, computed, last⟩ := Traced.outcome_bind_eq_ok_iff.mp h
    cases last
    exact ⟨computed, rfl⟩
  | answer line =>
    obtain ⟨format, formatted, h⟩ := Traced.outcome_bind_eq_ok_iff.mp h
    obtain ⟨w, computed, h⟩ := Traced.outcome_bind_eq_ok_iff.mp h
    obtain ⟨shown, rendered, last⟩ := Traced.outcome_bind_eq_ok_iff.mp h
    cases last
    exact ⟨computed, format, shown, formatted, rendered, rfl⟩

/-- The session after a step, which may have failed: the history has grown by what was recorded. -/
def after (s : Session) (step : Step) : Session :=
  { s with history := s.history ++ (recordings (s.take step).events).toArray }

/-- What a step gives. -/
def result (s : Session) (step : Step) : Except Fault Answer := (s.take step).outcome.map Prod.fst

/-- The two ways in which a step is taken. -/
inductive Taken (s : Session) (step : Step) : Prop where
  | succeeded (v : Value) (answer : Answer) (computed : (s.compute step.expression).outcome = .ok v)
      (gives : s.Gives v step answer) (grown : s.after step = { s with history := s.history.push v })
      (handed : (s.take step).outcome = .ok (answer, s.after step))
  | failed (fault : Fault) (refused : (s.take step).outcome = .error fault) (kept : s.after step = s)

/-- A step adds the value of its expression if it succeeds, and nothing if it fails. -/
theorem taken (s : Session) (step : Step) : s.Taken step := by
  have quiet := s.recordings_prepare step
  have whole := s.take_eq step
  cases prepared : (s.prepare step).outcome with
  | error fault =>
    rw [Traced.bind_of_error prepared] at whole
    refine .failed fault (by rw [whole]) ?_
    simp [after, whole, quiet]
  | ok found =>
    obtain ⟨v, answer⟩ := found
    rw [Traced.bind_of_ok prepared] at whole
    obtain ⟨computed, gives⟩ := gives_of_prepare prepared
    have recorded : recordings (s.take step).events = [v] := by
      rw [whole, recordings_append, quiet]
      rfl
    have grown : s.after step = { s with history := s.history.push v } := by
      simp only [after, recorded, Array.push_eq_append]
    refine .succeeded v answer computed gives grown ?_
    rw [grown, whole]
    rfl

theorem result_eq_ok {s : Session} {step : Step} {answer : Answer} {next : Session}
    (h : (s.take step).outcome = .ok (answer, next)) : s.result step = .ok answer := by
  rw [result, h]
  rfl

theorem result_eq_error {s : Session} {step : Step} {fault : Fault}
    (h : (s.take step).outcome = .error fault) : s.result step = .error fault := by
  rw [result, h]
  rfl

/-- A step that succeeds hands on the session after it. -/
theorem after_of_take_ok {s : Session} {step : Step} {answer : Answer} {next : Session}
    (h : (s.take step).outcome = .ok (answer, next)) : s.after step = next := by
  cases s.taken step with
  | succeeded v answer' computed gives grown handed =>
    rw [handed] at h
    exact congrArg Prod.snd (Except.ok.inj h)
  | failed fault refused kept =>
    rw [refused] at h
    cases h

/-- A step that fails leaves the session as it was. -/
theorem after_of_take_error {s : Session} {step : Step} {fault : Fault}
    (h : (s.take step).outcome = .error fault) : s.after step = s := by
  cases s.taken step with
  | succeeded v answer computed gives grown handed =>
    rw [handed] at h
    cases h
  | failed fault' refused kept => exact kept

theorem take_answer_outcome (s : Session) (line : String) :
    (s.take (.answer line)).outcome =
      (s.answer line).outcome.map fun found => (.text found.1, found.2) := by
  simp only [take, Traced.bind_outcome]
  cases (s.answer line).outcome <;> rfl

theorem after_of_answer_ok {s : Session} {line shown : String} {next : Session}
    (h : (s.answer line).outcome = .ok (shown, next)) : s.after (.answer line) = next := by
  have taken : (s.take (.answer line)).outcome = .ok (.text shown, next) := by
    rw [take_answer_outcome, h]
    rfl
  exact after_of_take_ok taken

theorem after_of_answer_error {s : Session} {line : String} {fault : Fault}
    (h : (s.answer line).outcome = .error fault) : s.after (.answer line) = s := by
  have taken : (s.take (.answer line)).outcome = .error fault := by
    rw [take_answer_outcome, h]
    rfl
  exact after_of_take_error taken

/-- The shell goes on with the session after the line. -/
theorem reply_session (s : Session) (line : String) :
    (Shell.reply s line).session = s.after (.answer line) := by
  cases answered : (s.answer line).outcome with
  | ok found =>
    rw [after_of_answer_ok answered]
    simp only [Shell.reply, answered]
  | error fault =>
    rw [after_of_answer_error answered]
    simp only [Shell.reply, answered]
    cases fault <;> rfl

/-! ## Runs -/

/-- The session after steps, some of which may have failed. -/
def afterAll (s : Session) (steps : List Step) : Session := steps.foldl after s

/-- What the steps of a run give. -/
def results : Session → List Step → List (Except Fault Answer)
  | _, [] => []
  | s, step :: steps => s.result step :: results (s.after step) steps

/-- The steps of a run that succeed. -/
def successes : Session → List Step → List Step
  | _, [] => []
  | s, step :: steps =>
    if (s.result step).isOk then step :: successes (s.after step) steps
    else successes (s.after step) steps

/-- A run without the steps that fail ends in the same session, and its steps give what they gave. -/
theorem run_successes (s : Session) (steps : List Step) :
    s.afterAll (s.successes steps) = s.afterAll steps ∧
      s.results (s.successes steps) = (s.results steps).filter Except.isOk := by
  induction steps generalizing s with
  | nil => exact ⟨rfl, rfl⟩
  | cons step steps ih =>
    cases s.taken step with
    | succeeded v answer computed gives grown handed =>
      obtain ⟨final, given⟩ := ih (s.after step)
      have result := result_eq_ok handed
      rw [successes, results, result]
      refine ⟨final, ?_⟩
      change s.result step :: _ = _ :: List.filter _ _
      rw [result, given]
    | failed fault refused kept =>
      have result := result_eq_error refused
      rw [successes, results, result, kept]
      refine ⟨?_, (ih s).2⟩
      change s.afterAll (s.successes steps) = (s.after step).afterAll steps
      rw [kept]
      exact (ih s).1

/-- What is in the history stays there. -/
theorem getElem?_afterAll {s : Session} {i : Nat} {v : Value} (h : s.history[i]? = some v)
    (steps : List Step) : (s.afterAll steps).history[i]? = some v := by
  induction steps generalizing s with
  | nil => exact h
  | cons step steps ih =>
    have within : i < s.history.size := (Array.getElem?_eq_some_iff.mp h).1
    refine ih ?_
    change (s.history ++ _)[i]? = some v
    rw [Array.getElem?_append_left within, h]

/-! ## References -/

/-- A text that spells a tree has the value of the tree in every session, if the tree is a leaf or a leaf
with a sign. -/
theorem compute_of_scans {x : Expr} (normal : x.Normal) (shallow : x.nesting ≤ 1) (low : x.height ≤ 2)
    {text : String} {tokens : List Token} (scanned : Token.Scans 0 text.toList tokens)
    (words : tokens.map Token.word = x.spelling) (s : Session) :
    s.compute text = x.evaluate s.history := by
  have parsed := Expr.parse_of_scans normal (Nat.le_trans shallow s.limits.one_le_depth) scanned words
  exact compute_of_parse parsed (Nat.le_trans low s.limits.two_le_height)

/-- What a reference reads. -/
def read (s : Session) (kind : ReferenceKind) (index : Int) : Except Fault Value :=
  ((Expr.reference kind index).evaluate s.history).outcome

/-- A text that is a reference has the value that the reference reads. -/
theorem compute_reference {text : String} (word : IsWord .history text) {kind : ReferenceKind} {index : Int}
    (well : (Expr.reference kind index).WellSpelled)
    (spelled : (Expr.reference kind index).spelling = [(.history, text)]) (s : Session) :
    (s.compute text).outcome = s.read kind index := by
  have normal : (Expr.reference kind index).Normal := ⟨trivial, well⟩
  have low : (Expr.reference kind index).height ≤ 2 := Nat.le_succ 1
  rw [compute_of_scans normal (Nat.zero_le 1) low (word.scans 0) spelled.symm, read]

theorem read_of_slot {s : Session} {kind : ReferenceKind} {index : Int} {i : Nat} {v : Value}
    (slot : History.slot s.size kind index = i) (h : s.history[i]? = some v) :
    s.read kind index = .ok v := by
  change (s.history.lookup kind index).outcome = _
  have place : History.slot s.history.size kind index = i := slot
  simp only [History.lookup, place]
  rw [if_neg (by omega), Int.toNat_natCast, h]
  rfl

theorem read_beyond {s : Session} {kind : ReferenceKind} {index : Int}
    (h : ¬ (0 ≤ History.slot s.size kind index ∧ History.slot s.size kind index < s.size)) :
    s.read kind index = .error (.calculation (.outOfHistory kind index s.size)) := by
  change (s.history.lookup kind index).outcome = _
  change ¬ (0 ≤ History.slot s.history.size kind index ∧
    History.slot s.history.size kind index < s.history.size) at h
  simp only [History.lookup]
  split
  · rfl
  · rw [Array.getElem?_eq_none (by omega)]
    rfl

/-- Over any run: each step adds its value if it succeeds and nothing if it fails; the steps that fail make
no difference to the others; a reference reads the value at its place, which no later step changes, or is
out of bounds if there is no such place; and a text that is a reference has the value that it reads. -/
theorem history_holds_successes (s : Session) (steps : List Step) :
    let now := s.afterAll steps
    (∀ step, now.Taken step) ∧
    (s.afterAll (s.successes steps) = now ∧
      s.results (s.successes steps) = (s.results steps).filter Except.isOk) ∧
    (∀ (i : Nat) v, now.history[i]? = some v → ∀ later, (now.afterAll later).read .absolute i = .ok v) ∧
    (∀ k : Nat, 1 ≤ k → k ≤ now.size → ∃ v, now.history[now.size - k]? = some v ∧
      now.read .relative k = .ok v ∧ now.read .absolute (now.size - k) = .ok v) ∧
    (∀ k : Int, ¬ (1 ≤ k ∧ k ≤ now.size) →
      now.read .relative k = .error (.calculation (.outOfHistory .relative k now.size))) ∧
    (∀ k : Int, ¬ (0 ≤ k ∧ k < now.size) →
      now.read .absolute k = .error (.calculation (.outOfHistory .absolute k now.size))) ∧
    (∀ k : Nat, 1 ≤ k →
      (now.compute (String.ofList (List.replicate k '@'))).outcome = now.read .relative k) ∧
    (∀ i : Nat, (toString i).length ≤ Numeral.digitLimit →
      (now.compute ("@" ++ toString i)).outcome = now.read .absolute i) := by
  intro now
  refine ⟨now.taken, s.run_successes steps, ?_, ?_, ?_, ?_, ?_, ?_⟩
  · intro i v h later
    exact read_of_slot rfl (getElem?_afterAll h later)
  · intro k least most
    have within : now.size - k < now.history.size := by
      change now.size - k < now.size
      omega
    have h := Array.getElem?_eq_getElem within
    refine ⟨_, h, read_of_slot ?_ h, read_of_slot ?_ h⟩
    · change (now.size : Int) - k = _
      omega
    · change (now.size : Int) - k = _
      omega
  · intro k outside
    refine read_beyond ?_
    change ¬ (0 ≤ (now.size : Int) - k ∧ (now.size : Int) - k < now.size)
    omega
  · intro k outside
    exact read_beyond outside
  · intro k positive
    have well : (Expr.reference .relative k).WellSpelled := Int.ofNat_le.mpr positive
    exact compute_reference (Expr.isWord_signs positive) well rfl now
  · intro i short
    have well : (Expr.reference .absolute i).WellSpelled := ⟨Int.natCast_nonneg i, short⟩
    exact compute_reference (Expr.isWord_index i) well rfl now

/-- A missing operand, a format that is none, a fraction in base 16 and a result too far back leave
nothing behind. -/
example : ((new { depth := 300, height := 900 } .standard).afterAll [.evaluate "6 *", .evaluate "6 * 7",
    .answer "@ / @0:q", .answer "@ / 4:x", .evaluate "@@ - 1", .answer "@ + @0:x"]).history =
    #[.int .u64 42 (by decide), .int .u64 84 (by decide)] := by
  decide +kernel

end Session

end Reckoner
