import Reckoner.Proofs.Expr.Faults
import Reckoner.Proofs.Expr.Grammar
import Reckoner.Proofs.Token.Coverage

/-!
# The first hopeless token

A source that is no expression is refused at the first token that shows it.  The words before that token
begin an expression, and with it they no longer do; and what the fault expects there are words that could
stand in its place (`parse_stops_at_first_hopeless`).  The limit on nesting is another matter: it refuses
expressions too.

There are two halves to it.  What has been read at any time has the form that the grammar gives to the
beginnings of expressions (`Reads.reached`), so it is never hopeless.  And the words of an expression are
never refused, whatever waits when they are read (`passes_of_derives`): a step may stop at an index that is
too long to be read, which is no matter of the grammar, but not at a word of an expression.
-/

namespace Reckoner

open Token (Word IsWord)

/-- What could stand behind a row of words: nothing, if the row is an expression already, or a token of a
kind that goes on with the beginning of one. -/
def CouldStand (ws : List Word) : Expectation → Prop
  | .kind .finish => Derives .expression ws
  | .kind kind => ∃ text, Viable (ws ++ [(kind, text)])
  | .operator spelling => Viable (ws ++ [(.operator, spelling)])

/-- The fault names the first token after which there is no way on. -/
structure StopsAt (before : List Token) (t : Token) (f : SyntaxFault) : Prop where
  start : f.start = t.start
  stop : f.stop = t.stop
  viable : Viable (before.map Token.word)
  hopeless : if t.kind = .finish then ¬ Derives .expression (before.map Token.word)
    else ¬ Viable (before.map Token.word ++ [t.word])
  expected : ∀ e ∈ f.expected, CouldStand (before.map Token.word) e

namespace ParseState

/-! ## What has been read is viable -/

/-- What the words that led to a state are. -/
def Reached : ParseState → List Word → Prop
  | .operand _ outer, ws => Inside Leads (outer.map Prod.fst) ws
  | .argument f _ outer, ws =>
    ∃ us, ws = us ++ [(.name, f.name)] ∧ Inside Leads (outer.map Prod.fst) us
  | .complete _ _ outer, ws => Inside (Derives .expression) (outer.map Prod.fst) ws

/-- A step goes on with the row of words that it has found. -/
theorem Reads.reached {s s' : ParseState} {w : Word} (h : Reads s w s') (word : IsWord w.1 w.2)
    {ws : List Word} (reached : s.Reached ws) : s'.Reached (ws ++ [w]) := by
  cases h with
  | number text => exact Inside.operand reached (.number word)
  | history read => exact Inside.operand reached (.reference word)
  | constant named => exact Inside.operand reached (.constant named)
  | function other named =>
    obtain rfl := Function.ofName?_eq_some_iff.mp named
    exact ⟨ws, rfl, reached⟩
  | sign spelled =>
    obtain rfl := PrefixOp.ofSpelling?_eq_some_iff.mp spelled
    exact Inside.append reached fun _ leads => leads.sign _
  | group text =>
    obtain rfl := IsWord.eq_opening word
    exact Inside.enter reached .group
  | @call text f ps outer =>
    obtain rfl := IsWord.eq_opening word
    obtain ⟨us, rfl, outside⟩ := reached
    have entered := Inside.enter outside (.call f)
    rw [List.append_assoc]
    exact entered
  | operator spelled folded =>
    obtain rfl := InfixOp.ofSpelling?_eq_some_iff.mp spelled
    exact Inside.append reached fun _ derives => derives.leads _
  | closing text folded =>
    obtain rfl := IsWord.eq_closing word
    exact Inside.leave reached

theorem reached_of_run {limit : Nat} {tokens : List Token} {s : ParseState}
    (run : tokens.foldlM (advance limit) start = .ok s) (words : ∀ t ∈ tokens, IsWord t.kind t.text) :
    s.Reached (tokens.map Token.word) :=
  run_induction run (motive := fun done s => s.Reached (done.map Token.word)) leads_nil
    fun done t s s' ht reached reads _ => by
      rw [List.map_append, List.map_singleton]
      exact reads.reached (words t ht) reached

/-- What has been read begins an expression. -/
theorem Reached.viable {s : ParseState} {ws : List Word} (h : s.Reached ws) : Viable ws := by
  cases s with
  | operand ps outer => exact Inside.viable_of_leads h
  | complete x ps outer => exact Inside.viable h
  | argument f ps outer =>
    obtain ⟨us, rfl, outside⟩ := h
    have entered := (Inside.enter outside (.call f)).viable_of_leads
    have opened : (Bracket.call f).spelling = [(.name, f.name)] ++ [(.opening, "(")] := rfl
    rw [opened, ← List.append_assoc] at entered
    exact entered.of_append

/-- What a fault says to be expected in a state. -/
def expectations : ParseState → List Expectation
  | .operand .. => operandStarts
  | .argument .. => [.kind .opening]
  | .complete _ _ [] => [.kind .finish]
  | .complete _ _ (_ :: _) => [.kind .closing]

/-- What is expected could stand there. -/
theorem Reached.couldStand {s : ParseState} {ws : List Word} (h : s.Reached ws) :
    ∀ e ∈ s.expectations, CouldStand ws e := by
  intro e he
  cases s with
  | operand ps outer =>
    have digit : IsWord .number "0" := by decide
    have sign : IsWord .history "@" := by decide
    simp only [expectations, operandStarts, List.mem_cons, List.not_mem_nil, or_false] at he
    rcases he with rfl | rfl | rfl | rfl | rfl | rfl
    · exact ⟨"0", (Inside.operand h (.number digit)).viable⟩
    · exact ⟨"@", (Inside.operand h (.reference sign)).viable⟩
    · exact ⟨"e", (Inside.operand h (.constant (c := .e) rfl)).viable⟩
    · exact ⟨"(", (Inside.enter h .group).viable_of_leads⟩
    · exact (Inside.append h fun _ leads => leads.sign .negate).viable_of_leads
    · exact (Inside.append h fun _ leads => leads.sign .complement).viable_of_leads
  | argument f ps outer =>
    obtain ⟨us, rfl, outside⟩ := h
    obtain rfl := List.mem_singleton.mp he
    have entered := (Inside.enter outside (.call f)).viable_of_leads
    exact ⟨"(", by rw [List.append_assoc]; exact entered⟩
  | complete x ps outer =>
    cases outer with
    | nil =>
      obtain rfl := List.mem_singleton.mp he
      exact h
    | cons level outer =>
      obtain rfl := List.mem_singleton.mp he
      exact ⟨")", (Inside.leave h).viable⟩

/-! ## The words of an expression pass -/

/-- The word can be read, or is an index where an operand is due, which may be too long to be read. -/
def Admits (s : ParseState) (w : Word) : Prop :=
  (∃ s', Reads s w s') ∨ ∃ ps outer, s = .operand ps outer ∧ w.1 = .history

/-- The words are admitted one after the other, and where they have all been read the goal holds. -/
def Passes (goal : ParseState → Prop) : ParseState → List Word → Prop
  | s, [] => goal s
  | s, w :: ws => s.Admits w ∧ ∀ s', Reads s w s' → Passes goal s' ws

theorem passes_append {goal : ParseState → Prop} {s : ParseState} {ws vs : List Word}
    (h : Passes (fun s' => Passes goal s' vs) s ws) : Passes goal s (ws ++ vs) := by
  induction ws generalizing s with
  | nil => exact h
  | cons w ws ih => exact ⟨h.1, fun s' reads => ih (h.2 s' reads)⟩

theorem Passes.imp {goal goal' : ParseState → Prop} {s : ParseState} {ws : List Word}
    (h : Passes goal s ws) (imp : ∀ s', goal s' → goal' s') : Passes goal' s ws := by
  induction ws generalizing s with
  | nil => exact imp s h
  | cons w ws ih => exact ⟨h.1, fun s' reads => ih (h.2 s' reads)⟩

/-- What has been read of a row that passes leaves a row that passes. -/
theorem Passes.of_run {limit : Nat} {goal : ParseState → Prop} {tokens : List Token} {s : ParseState}
    (run : tokens.foldlM (advance limit) start = .ok s) {rest : List Word}
    (h : Passes goal start (tokens.map Token.word ++ rest)) : Passes goal s rest := by
  refine run_induction run
    (motive := fun done s => ∀ rest, Passes goal start (done.map Token.word ++ rest) →
      Passes goal s rest) (fun _ h => h) ?_ rest h
  intro done t s s' _ kept reads _ rest h
  rw [List.map_append, List.append_assoc] at h
  exact (kept _ h).2 s' reads

/-- An operand is complete, whatever waits around it. -/
def IsComplete (outer : List (Bracket × List Pending)) (s : ParseState) : Prop :=
  ∃ x ps, s = .complete x ps outer

/-- A closing parenthesis is read after an expression in parentheses. -/
theorem IsComplete.passes_closing {bracket : Bracket} {ps : List Pending}
    {outer : List (Bracket × List Pending)} {s : ParseState}
    (h : IsComplete ((bracket, ps) :: outer) s) :
    Passes (IsComplete outer) s [(.closing, ")")] := by
  obtain ⟨x, qs, rfl⟩ := h
  refine ⟨.inl ⟨_, .closing ")" rfl⟩, fun s' reads => ?_⟩
  cases reads with
  | closing => exact ⟨_, _, rfl⟩

/-- The words of a phrase pass where an operand is due, and complete it. -/
theorem passes_of_derives {phrase : Phrase} {ws : List Word} (h : Derives phrase ws) (ps : List Pending)
    (outer : List (Bracket × List Pending)) :
    Passes (IsComplete outer) (.operand ps outer) ws := by
  induction h generalizing ps outer with
  | number word =>
    refine ⟨.inl ⟨_, .number _⟩, fun s' reads => ?_⟩
    cases reads with
    | number => exact ⟨_, _, rfl⟩
  | reference word =>
    refine ⟨.inr ⟨ps, outer, rfl, rfl⟩, fun s' reads => ?_⟩
    cases reads with
    | history => exact ⟨_, _, rfl⟩
  | constant named =>
    refine ⟨.inl ⟨_, .constant named⟩, fun s' reads => ?_⟩
    cases reads with
    | constant => exact ⟨_, _, rfl⟩
    | function other => rw [named] at other; cases other
  | @call f ws _ ih =>
    have other := Constant.ofName?_function_name f
    refine ⟨.inl ⟨_, .function other (Function.ofName?_eq_some_iff.mpr rfl)⟩, fun s' reads => ?_⟩
    cases reads with
    | constant named => rw [other] at named; cases named
    | @function _ g _ _ _ _ =>
      refine ⟨.inl ⟨_, .call "("⟩, fun s' reads => ?_⟩
      cases reads with
      | call =>
        exact passes_append ((ih [] ((.call g, ps) :: outer)).imp fun _ => IsComplete.passes_closing)
  | group _ ih =>
    refine ⟨.inl ⟨_, .group "("⟩, fun s' reads => ?_⟩
    cases reads with
    | group =>
      exact passes_append ((ih [] ((.group, ps) :: outer)).imp fun _ => IsComplete.passes_closing)
  | plain _ ih | single _ ih => exact ih ps outer
  | @sign op ws _ ih =>
    refine ⟨.inl ⟨_, .sign (PrefixOp.ofSpelling?_eq_some_iff.mpr rfl)⟩, fun s' reads => ?_⟩
    cases reads with
    | @sign _ op' _ _ _ => exact ih (.prefixed op' :: ps) outer
  | @operation op ws vs _ _ ihl ihr =>
    refine passes_append ((ihl ps outer).imp ?_)
    rintro s ⟨x, qs, rfl⟩
    refine ⟨.inl ⟨_, .operator (InfixOp.ofSpelling?_eq_some_iff.mpr rfl) rfl⟩, fun s' reads => ?_⟩
    cases reads with
    | @operator _ op' _ l _ waiting _ _ _ => exact ihr (.infixed l op' :: waiting) outer

/-! ## Refused tokens -/

/-- The faults with which a state refuses a token: with the span of the token, nothing being expected but
what the state expects, or because of an index that is too long to be read. -/
inductive Refuses (s : ParseState) (t : Token) : Fault → Prop where
  | misplaced (cause : SyntaxCause) {es : List Expectation} (known : ∀ e ∈ es, e ∈ s.expectations) :
      Refuses s t (faultAt t cause es)
  | unreadable {fault : Fault} (kind : t.kind = .history) (read : referenceOf t.text = .error fault) :
      Refuses s t fault

theorem refuses_of_takeOperand {t : Token} {ps : List Pending} {outer : List (Bracket × List Pending)}
    {fault : Fault} (h : takeOperand t ps outer = .error fault) :
    Refuses (.operand ps outer) t fault := by
  obtain ⟨kind, text, start, stop⟩ := t
  cases kind <;> simp only [takeOperand] at h
  case number | opening => cases h
  case history =>
    cases read : referenceOf text with
    | ok x => rw [read] at h; cases h
    | error fault' =>
      rw [read] at h
      obtain rfl : fault' = fault := Except.error.inj h
      exact .unreadable rfl read
  case name =>
    split at h
    · cases h
    · cases h
    · obtain rfl := Except.error.inj h
      exact .misplaced _ fun e he => absurd he List.not_mem_nil
  case operator =>
    split at h
    · cases h
    · obtain rfl := Except.error.inj h
      exact .misplaced _ fun e he => he
  case closing | finish =>
    obtain rfl := Except.error.inj h
    exact .misplaced _ fun e he => he

theorem refuses_of_step {s : ParseState} {t : Token} {fault : Fault} (h : s.step t = .error fault) :
    Refuses s t fault := by
  cases s with
  | operand ps outer => exact refuses_of_takeOperand h
  | argument g ps outer =>
    simp only [step] at h
    split at h
    · cases h
    · obtain rfl := Except.error.inj h
      exact .misplaced _ fun e he => he
  | complete x ps outer =>
    simp only [step, takeAfter] at h
    split at h
    · cases h
    · cases outer with
      | nil =>
        obtain rfl := Except.error.inj h
        exact .misplaced _ fun e he => he
      | cons level outer =>
        simp only at h
        split at h
        · cases h
        · obtain rfl := Except.error.inj h
          exact .misplaced _ fun e he => he

/-- A fault that has a span is not one of an index. -/
theorem Refuses.eq_faultAt {s : ParseState} {t : Token} {f : SyntaxFault}
    (h : Refuses s t (.calculation (.malformed f))) :
    ∃ cause es, f = ⟨cause, t.start, t.stop, es, some t.shown⟩ ∧ ∀ e ∈ es, e ∈ s.expectations := by
  generalize same : Fault.calculation (.malformed f) = fault at h
  cases h with
  | misplaced cause known =>
    cases same
    exact ⟨cause, _, rfl, known⟩
  | unreadable kind read =>
    obtain ⟨misuse, rfl⟩ := misuse_of_referenceOf read
    cases same

/-- A token that is refused with a span is not admitted. -/
theorem not_admits_of_step {s : ParseState} {t : Token} {f : SyntaxFault}
    (h : s.step t = .error (.calculation (.malformed f))) : ¬ s.Admits t.word := by
  rintro (⟨s', reads⟩ | ⟨ps, outer, rfl, history⟩)
  · rw [step_eq_ok_iff.mpr reads] at h
    cases h
  · have kind : t.kind = .history := history
    simp only [step, takeOperand, kind] at h
    cases read : referenceOf t.text with
    | ok x => rw [read] at h; cases h
    | error fault =>
      obtain ⟨misuse, rfl⟩ := misuse_of_referenceOf read
      rw [read] at h
      cases h

/-- What refuses a token is the step, or the limit on nesting. -/
theorem refused_of_advance {limit : Nat} {s : ParseState} {t : Token} {fault : Fault}
    (h : s.advance limit t = .error fault) : s.step t = .error fault ∨
      fault = .calculation (.malformed ⟨.nestedTooDeeply, t.start, t.stop, [], none⟩) := by
  rcases taken : s.step t with fault' | next
  · rw [advance_of_step_error taken] at h
    exact .inl h
  · rw [advance_of_step_ok taken] at h
    split at h
    · cases h
    · exact .inr (Except.error.inj h).symm

/-- A state in which a source may not end refuses the token that ends it. -/
theorem step_of_finish {s : ParseState} {t : Token} {fault : Fault} (kind : t.kind = .finish)
    (h : s.finish t = .error fault) : s.step t = .error fault ∧ ¬ s.IsComplete [] := by
  cases s with
  | operand ps outer =>
    constructor
    · simp only [step, takeOperand, kind]
      exact congrArg Except.error (Except.error.inj h)
    · rintro ⟨x, qs, same⟩
      cases same
  | argument g ps outer =>
    constructor
    · simp only [step, kind]
      exact congrArg Except.error (Except.error.inj h)
    · rintro ⟨x, qs, same⟩
      cases same
  | complete x ps outer =>
    cases outer with
    | nil => cases h
    | cons level outer =>
      constructor
      · simp only [step, takeAfter, infixOf?, kind]
        exact congrArg Except.error (Except.error.inj h)
      · rintro ⟨y, qs, same⟩
        cases same

/-- A token that is refused after tokens that were read is the first hopeless one. -/
theorem stopsAt_of_step {limit : Nat} {before : List Token} {s : ParseState} {t : Token} {f : SyntaxFault}
    (run : before.foldlM (advance limit) start = .ok s) (words : ∀ u ∈ before, IsWord u.kind u.text)
    (refused : s.step t = .error (.calculation (.malformed f)))
    (unfinished : t.kind = .finish → ¬ IsComplete [] s) : StopsAt before t f := by
  have reached := reached_of_run run words
  obtain ⟨cause, es, rfl, known⟩ := (refuses_of_step refused).eq_faultAt
  refine ⟨rfl, rfl, reached.viable, ?_, fun e he => reached.couldStand e (known e he)⟩
  -- If the row could go on, its words would pass, but the state that they lead to refuses the token.
  split
  case isTrue kind =>
    intro whole
    have passes := passes_of_derives whole [] []
    rw [← List.append_nil (before.map Token.word)] at passes
    exact unfinished kind (passes.of_run run)
  case isFalse =>
    rintro ⟨rest, whole⟩
    have passes := passes_of_derives whole [] []
    rw [List.append_assoc] at passes
    exact not_admits_of_step refused (passes.of_run run).1

end ParseState

namespace Expr

variable {limit : Nat}

/-- What is accepted is an expression. -/
theorem derives_of_parse {source : String} {x : Expr} (h : parse limit source = .ok x) :
    ∃ tokens, Token.Scans 0 source.toList tokens ∧ Derives .expression (tokens.map Token.word) := by
  obtain ⟨tokens, y, ps, steps, run, -⟩ := parse_eq_ok_iff.mp h
  exact ⟨tokens, steps, ParseState.reached_of_run run steps.isWord⟩

/-- A source is refused at one of its tokens, after all tokens before have been read; by a step, or by the
limit on nesting. -/
theorem exists_refused {source : String} {tokens : List Token} {fault : Fault}
    (scanned : Token.scan source.toList = .ok tokens) (rejected : parse limit source = .error fault) :
    ∃ before t after s, tokens = before ++ t :: after ∧ (∀ u ∈ before, IsWord u.kind u.text) ∧
      before.foldlM (ParseState.advance limit) ParseState.start = .ok s ∧
      (t.kind = .finish → t = Token.finishAt source.length ∧ ¬ s.IsComplete []) ∧
      (s.step t = .error fault ∨
        fault = .calculation (.malformed ⟨.nestedTooDeeply, t.start, t.stop, [], none⟩)) := by
  obtain ⟨words, rfl, steps⟩ := Token.scan_eq_ok_iff.mp scanned
  rw [parse_of_scanned steps, ofTokens] at rejected
  rw [String.length_toList]
  cases run : words.foldlM (ParseState.advance limit) ParseState.start with
  | ok s =>
    rw [run] at rejected
    obtain ⟨refused, unfinished⟩ :=
      ParseState.step_of_finish (t := Token.finishAt source.length) rfl rejected
    exact ⟨words, _, [], s, rfl, steps.isWord, run, fun _ => ⟨rfl, unfinished⟩, .inl refused⟩
  | error fault' =>
    rw [run] at rejected
    obtain rfl : fault' = fault := Except.error.inj rejected
    obtain ⟨before, t, after, s, rfl, taken, refused⟩ := ParseState.foldlM_eq_error_iff.mp run
    refine ⟨before, t, after ++ [Token.finishAt source.length], s, by simp,
      fun u hu => steps.isWord u (List.mem_append_left _ hu), taken, fun finish => ?_,
      ParseState.refused_of_advance refused⟩
    exact absurd finish (steps.kind_ne_finish t (by simp))

/-- A source whose tokens are known is refused with a span, or has an index that is too long to be read. -/
theorem malformed_or_unreadable {source : String} {tokens : List Token} {fault : Fault}
    (scanned : Token.scan source.toList = .ok tokens) (rejected : parse limit source = .error fault) :
    (∃ f, fault = .calculation (.malformed f)) ∨
      ∃ t ∈ tokens, t.kind = .history ∧ ParseState.referenceOf t.text = .error fault := by
  obtain ⟨before, t, after, s, rfl, -, -, -, refused | deep⟩ := exists_refused scanned rejected
  · cases ParseState.refuses_of_step refused with
    | misplaced cause known => exact .inl ⟨_, rfl⟩
    | unreadable history read => exact .inr ⟨t, by simp, history, read⟩
  · exact .inl ⟨_, deep⟩

/-- A source that is refused, but not for its nesting, is refused at the first token that no expression goes
on with; the token that ends the source stands for its end. -/
theorem parse_stops_at_first_hopeless {source : String} {tokens : List Token} {f : SyntaxFault}
    (scanned : Token.scan source.toList = .ok tokens)
    (rejected : parse limit source = .error (.calculation (.malformed f)))
    (shallow : f.cause ≠ .nestedTooDeeply) :
    ∃ before t after, tokens = before ++ t :: after ∧ StopsAt before t f ∧
      (t.kind = .finish → f.start = source.length ∧ f.stop = source.length) := by
  obtain ⟨before, t, after, s, rfl, words, run, finish, refused | deep⟩ :=
    exists_refused scanned rejected
  · have stops := ParseState.stopsAt_of_step run words refused fun kind => (finish kind).2
    refine ⟨before, t, after, rfl, stops, fun kind => ?_⟩
    obtain ⟨rfl, -⟩ := finish kind
    exact ⟨stops.start, stops.stop⟩
  · cases deep
    exact absurd rfl shallow

/-- After an operand in the parenthesis of a call, an operator or the closing parenthesis is due. -/
theorem parse_stops_at_first_hopeless_call :
    let source := "2**-(sin(@@ ! 2"
    let tokens : List Token := [⟨.number, "2", 0, 1⟩, ⟨.operator, "**", 1, 3⟩, ⟨.operator, "-", 3, 4⟩,
      ⟨.opening, "(", 4, 5⟩, ⟨.name, "sin", 5, 8⟩, ⟨.opening, "(", 8, 9⟩, ⟨.history, "@@", 9, 11⟩,
      ⟨.operator, "!", 12, 13⟩, ⟨.number, "2", 14, 15⟩, Token.finishAt 15]
    let f : SyntaxFault := ⟨.unexpectedToken, 12, 13, [.kind .closing], some "OP(!)"⟩
    Token.scan source.toList = .ok tokens ∧ parse 300 source = .error (.calculation (.malformed f)) ∧
    ∃ before t after, tokens = before ++ t :: after ∧ StopsAt before t f ∧
      (t.kind = .finish → f.start = source.length ∧ f.stop = source.length) := by
  intro source tokens f
  have scanned : Token.scan source.toList = .ok tokens := by decide +kernel
  have rejected : parse 300 source = .error (.calculation (.malformed f)) := by decide +kernel
  exact ⟨scanned, rejected, parse_stops_at_first_hopeless scanned rejected (by decide)⟩

end Expr

end Reckoner
