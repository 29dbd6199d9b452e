import Mathlib.Data.List.DropRight
import Reckoner.Proofs.Session.Annotating

/-!
# Carets under the offending token

A line that is no expression is shown again with carets under the place where it stops being one.  The place
is counted in the expression, which is all that the parser sees, and marked in the line, which may go on with
an annotation.  Both begin alike, so the marked text is the same (`marked_eq_marked`).

A fault that has a place in the source comes from the parser (`rejected_of_answer`): nothing that happens
before it or after it, to the format, to the values or to the result, is at fault in this way
(`Fault.IsPlaceless`).  And the parser stops at a character that begins no token, at the first token that no
expression goes on with, or at the end of the source (`pointsAt_of_parse`).
-/

namespace Reckoner

/-- The text of the source, or of a line that begins with it, that lies in the span of a fault. -/
def SyntaxFault.marked (f : SyntaxFault) (cs : List Char) : List Char :=
  (cs.drop f.start).take (f.stop - f.start)

/-- What a fault points at in a line, where the source that the line begins with stops being an
expression. -/
inductive PointsAt (line source : List Char) (f : SyntaxFault) : Prop where
  /-- A character with which no token begins. -/
  | character (c : Char) (scanned : Token.scan source = .error ⟨f.start⟩) (cause : f.cause = .invalidToken)
      (stop : f.stop = f.start + 1) (marked : f.marked line = [c])
  /-- The first token that no expression goes on with. -/
  | token (before : List Token) (t : Token) (after : List Token)
      (scanned : Token.scan source = .ok (before ++ t :: after)) (visible : t.kind ≠ .finish)
      (stops : StopsAt before t f) (cause : f.cause ≠ .unexpectedEnd) (found : f.found = some t.shown)
      (marked : f.marked line = t.text.toList)
  /-- The end of a source that has to go on. -/
  | finish (before : List Token)
      (scanned : Token.scan source = .ok (before ++ [Token.finishAt source.length]))
      (stops : StopsAt before (Token.finishAt source.length) f) (cause : f.cause = .unexpectedEnd)
      (start : f.start = source.length) (stop : f.stop = source.length)

/-- The last line of the diagnostic has carets under the span, at least one of them, and none beyond the
first column after the source, whose width is given. -/
structure Underlines (line : String) (width : Nat) (f : SyntaxFault) : Prop where
  last : (f.diagnostic line).toList.rtakeWhile (· ≠ '\n') = f.carets.toList
  carets : f.carets.toList =
    List.replicate f.start ' ' ++ List.replicate (max 1 (f.stop - f.start)) '^'
  under : ∀ i, f.start ≤ i → i < f.stop → f.carets.toList[i]? = some '^'
  within : ∀ i, f.carets.toList[i]? = some '^' → f.start ≤ i ∧ i ≤ width

/-! ## Faults without a place -/

/-- The fault has no place in the source. -/
def Fault.IsPlaceless (fault : Fault) : Prop := fault.kind ≠ .malformed

theorem Fault.isPlaceless_of_misuse (m : Misuse) : (Fault.misuse m).IsPlaceless := nofun

namespace Value

theorem placeless_readInteger? (text : List Char) (radix : Int) :
    FailsOnly Fault.IsPlaceless (readInteger? text radix) := by
  unfold readInteger?
  split
  · exact failsOnly_ok _
  · exact failsOnly_error.mpr (Fault.isPlaceless_of_misuse _)

theorem placeless_ofLiteral (base : Base) (text : List Char) :
    FailsOnly Fault.IsPlaceless (ofLiteral base text) := by
  have unreadable : ∀ (text : String) (radix : Option Int),
      (Fault.calculation (.unreadable text radix)).IsPlaceless := fun _ _ => nofun
  have integer : ∀ radix, FailsOnly Fault.IsPlaceless (ofRadix (bare base text) radix) := by
    intro radix
    refine (placeless_readInteger? _ _).bind fun found => ?_
    match found with
    | some v => exact failsOnly_ok v
    | none => exact failsOnly_error.mpr (unreadable _ _)
  have decimal : FailsOnly Fault.IsPlaceless (ofDecimal (bare base text)) := by
    refine (placeless_readInteger? _ _).bind fun found => ?_
    match found with
    | some v => exact failsOnly_ok v
    | none =>
      dsimp only
      split
      · exact failsOnly_error.mpr (unreadable _ _)
      · split
        · exact failsOnly_ok _
        · exact failsOnly_error.mpr (Fault.isPlaceless_of_misuse _)
  unfold ofLiteral
  split
  · exact decimal
  · exact integer _

end Value

namespace Expr

/-- A tree that is spelled well has no blocked nodes. -/
theorem holds_of_wellSpelled {t : Expr} (well : t.WellSpelled) : t.Holds Fault.IsPlaceless := by
  induction t with
  | literal text base => exact Value.placeless_ofLiteral base text.toList
  | constant | reference => trivial
  | blocked => exact absurd well id
  | prefixed op x ih => exact ih well
  | call f x ih => exact ih well
  | group x ih => exact ih well
  | infixed l op r ihl ihr => exact ⟨ihl well.1, ihr well.2⟩

end Expr

theorem Fault.BlamesOperands.isPlaceless {fault : Fault} (h : fault.BlamesOperands) : fault.IsPlaceless := by
  rw [Fault.IsPlaceless]
  rcases h with kind | kind <;> rw [kind] <;> decide

namespace Format

theorem placeless_parse (text : String) : FailsOnly Fault.IsPlaceless (parse text) := by
  unfold parse
  split
  · exact failsOnly_error.mpr nofun
  · split
    · exact failsOnly_ok _
    · exact failsOnly_error.mpr (Fault.isPlaceless_of_misuse _)

theorem placeless_render (format : Format) (v : Value) : FailsOnly Fault.IsPlaceless (format.render v) := by
  unfold render
  split
  · exact failsOnly_error.mpr nofun
  · split
    · exact failsOnly_error.mpr (Fault.isPlaceless_of_misuse _)
    · exact failsOnly_ok _

end Format

namespace Session

/-- The part of a line before its first colon. -/
theorem toList_splitLine (line : String) :
    (splitLine line).1.toList = line.toList.takeWhile (· ≠ ':') := by
  have whole := List.takeWhile_append_dropWhile (p := (· ≠ ':')) (l := line.toList)
  unfold splitLine
  dsimp only
  split
  case h_1 none =>
    rw [none, List.append_nil] at whole
    exact whole.symm
  case h_2 => exact String.toList_ofList

theorem placeless_formatFor (s : Session) (own : Option String) :
    FailsOnly Fault.IsPlaceless (s.formatFor own) := by
  match own with
  | some text => exact Format.placeless_parse text
  | none => exact failsOnly_ok _

/-- A fault in computing a value has no place, or is the one for which the parser refuses the text. -/
theorem rejected_of_compute (s : Session) (text : String) :
    FailsOnly (fun fault => fault.IsPlaceless ∨ Expr.parse s.limits.depth text = .error fault)
      (s.compute text).outcome := by
  unfold compute
  split
  case h_1 t parsed =>
    have well := (Expr.normal_of_parse parsed).wellSpelled
    have holds := (Expr.holds_of_wellSpelled well).limited nofun s.limits.height
    have placeless := holds.failsOnly_evaluate (fun _ blamed => blamed.isPlaceless)
      (fun fault kind => by rw [Fault.IsPlaceless, kind]; decide) s.history
    exact placeless.mono fun _ => Or.inl
  case h_2 fault rejected =>
    exact failsOnly_error.mpr (Or.inr rejected)

/-- A fault in the answer to a line has no place, or is the one for which the parser refuses the expression. -/
theorem rejected_of_answer (s : Session) (line : String) :
    FailsOnly (fun fault => fault.IsPlaceless ∨ Expr.parse s.limits.depth (splitLine line).1 = .error fault)
      (s.answer line).outcome := by
  obtain ⟨⟨text, own⟩, cut⟩ : ∃ parts, splitLine line = parts := ⟨_, rfl⟩
  rw [cut, s.answer_outcome cut, evaluate_outcome]
  refine ((s.placeless_formatFor own).mono fun _ => Or.inl).bind fun form => ?_
  refine ((s.rejected_of_compute text).map _).bind fun found => ?_
  exact ((form.placeless_render found.1).mono fun _ => Or.inl).map _

end Session

/-! ## Where the parser stops -/

namespace ParseState

variable {t : Token} {f : SyntaxFault}

theorem eq_of_faultAt {cause : SyntaxCause} {es : List Expectation}
    (h : faultAt t cause es = .calculation (.malformed f)) :
    f = ⟨cause, t.start, t.stop, es, some t.shown⟩ :=
  (CalcError.malformed.inj (Fault.calculation.inj h)).symm

/-- The cause of a token in the place of another one says whether the source has ended. -/
theorem cause_of_unexpected {es : List Expectation} (h : unexpected t es = .calculation (.malformed f)) :
    f.cause = .unexpectedEnd ↔ t.kind = .finish := by
  obtain rfl := eq_of_faultAt h
  dsimp only
  split
  case isTrue kind => exact iff_of_true rfl kind
  case isFalse kind => exact iff_of_false nofun kind

theorem cause_of_takeOperand {ps : List Pending} {outer : List (Bracket × List Pending)}
    (refused : takeOperand t ps outer = .error (.calculation (.malformed f))) :
    f.cause = .unexpectedEnd ↔ t.kind = .finish := by
  unfold takeOperand at refused
  split at refused
  case h_1 | h_4 => cases refused
  case h_2 =>
    rcases read : referenceOf t.text with fault | x
    · obtain ⟨misuse, rfl⟩ := misuse_of_referenceOf read
      rw [read] at refused
      cases refused
    · rw [read] at refused
      cases refused
  case h_3 name =>
    split at refused
    · cases refused
    · cases refused
    · obtain rfl := eq_of_faultAt (Except.error.inj refused)
      exact iff_of_false nofun fun kind => nomatch name.symm.trans kind
  case h_5 =>
    split at refused
    · cases refused
    · exact cause_of_unexpected (Except.error.inj refused)
  case h_6 | h_7 => exact cause_of_unexpected (Except.error.inj refused)

/-- The cause with which a token is refused says whether the source has ended, unless it could have. -/
theorem cause_of_step {s : ParseState} (refused : s.step t = .error (.calculation (.malformed f)))
    (unfinished : t.kind = .finish → ¬ s.IsComplete []) :
    f.cause = .unexpectedEnd ↔ t.kind = .finish := by
  rcases s with ⟨ps, outer⟩ | ⟨g, ps, outer⟩ | ⟨x, ps, outer⟩
  · exact cause_of_takeOperand refused
  · simp only [step] at refused
    split at refused
    · cases refused
    · exact cause_of_unexpected (Except.error.inj refused)
  · simp only [step, takeAfter] at refused
    split at refused
    · cases refused
    · split at refused
      · obtain rfl := eq_of_faultAt (Except.error.inj refused)
        exact iff_of_false (by simp) fun kind => unfinished kind ⟨x, ps, rfl⟩
      · split at refused
        · cases refused
        · exact cause_of_unexpected (Except.error.inj refused)

end ParseState

section Places

variable {line source : List Char} {f : SyntaxFault}

/-- A line that begins with the source has the same text in a span of the source. -/
theorem marked_eq_marked (begins : source <+: line) (order : f.start ≤ f.stop)
    (within : f.stop ≤ source.length) : f.marked line = f.marked source := by
  obtain ⟨rest, rfl⟩ := begins
  unfold SyntaxFault.marked
  rw [List.drop_append_of_le_length (Nat.le_trans order within),
    List.take_append_of_le_length (by rw [List.length_drop]; omega)]

/-- The last of some tokens is the only one of its kind, so it is the offending one if its kind is. -/
theorem eq_of_finish {words before after : List Token} {t last : Token} (kind : t.kind = .finish)
    (visible : ∀ u ∈ words, u.kind ≠ .finish) (split : words ++ [last] = before ++ t :: after) :
    words = before ∧ last = t := by
  rcases List.eq_nil_or_concat after with rfl | ⟨rest, u, rfl⟩
  · obtain ⟨rfl, same⟩ := List.append_inj' split rfl
    exact ⟨rfl, List.cons.inj same |>.1⟩
  · have whole : words ++ [last] = (before ++ t :: rest) ++ [u] := by simpa using split
    obtain ⟨rfl, -⟩ := List.append_inj' whole rfl
    exact absurd kind (visible t (by simp))

/-- A source that has no tokens is refused at the first character that begins none. -/
theorem pointsAt_of_lexFault {lex : LexFault} (begins : source <+: line)
    (scanned : Token.scanFrom 0 source = .error lex)
    (same : Expr.lexFault source lex = .calculation (.malformed f)) :
    f.start ≤ f.stop ∧ f.stop ≤ source.length ∧ PointsAt line source f := by
  obtain rfl := CalcError.malformed.inj (Fault.calculation.inj same)
  obtain ⟨k, c, rest, place, drop, -⟩ := Token.exists_scans_of_error scanned
  obtain rfl : lex.place = k := by omega
  have inside : lex.place + 1 ≤ source.length := by
    have length := congrArg List.length drop
    rw [List.length_drop, List.length_cons] at length
    omega
  refine ⟨Nat.le_succ _, inside, .character c ?_ rfl rfl ?_⟩
  · rw [Token.scan, scanned]
    rfl
  · rw [marked_eq_marked begins (Nat.le_succ _) inside]
    simp [SyntaxFault.marked, drop]

/-- A parser that refuses a source, but not for its nesting, points at what is offending, in the source and in
every line that begins with it. -/
theorem pointsAt_of_parse {limit : Nat} (begins : source <+: line)
    (rejected : Expr.parse limit (String.ofList source) = .error (.calculation (.malformed f)))
    (shallow : f.cause ≠ .nestedTooDeeply) :
    f.start ≤ f.stop ∧ f.stop ≤ source.length ∧ PointsAt line source f := by
  rcases scanned : Token.scanFrom 0 source with lex | words
  · have refused : Expr.parse limit (String.ofList source) = .error (Expr.lexFault source lex) := by
      simp only [Expr.parse, String.toList_ofList, scanned]
    exact pointsAt_of_lexFault begins scanned (Except.error.inj (refused.symm.trans rejected))
  · have steps := Token.scans_of_scanFrom scanned
    have whole : Token.scan source = .ok (words ++ [Token.finishAt source.length]) :=
      Token.scan_eq_ok_iff.mpr ⟨words, rfl, steps⟩
    obtain ⟨before, t, after, state, tokens, read, run, finish, refused | deep⟩ :=
      Expr.exists_refused (by rwa [String.toList_ofList]) rejected
    · have stops := ParseState.stopsAt_of_step run read refused fun kind => (finish kind).2
      have cause := ParseState.cause_of_step refused fun kind => (finish kind).2
      obtain ⟨_, _, same, -⟩ := (ParseState.refuses_of_step refused).eq_faultAt
      by_cases kind : t.kind = .finish
      · obtain ⟨rfl, rfl⟩ := eq_of_finish kind steps.kind_ne_finish tokens
        have start : f.start = source.length := stops.start
        have stop : f.stop = source.length := stops.stop
        exact ⟨by omega, by omega, .finish words whole stops (cause.mpr kind) start stop⟩
      · have word : t ∈ words := by
          have listed : t ∈ words ++ [Token.finishAt source.length] := by simp [tokens]
          refine (List.mem_append.mp listed).resolve_right fun last => kind ?_
          rw [List.mem_singleton.mp last]
          rfl
        obtain ⟨-, filled, inside⟩ := steps.covers.within t word
        have order : f.start ≤ f.stop := by rw [stops.start, stops.stop]; omega
        have fits : f.stop ≤ source.length := by rw [stops.stop]; omega
        refine ⟨order, fits, .token before t after (whole.trans (congrArg _ tokens)) kind stops
          (fun ended => kind (cause.mp ended)) (congrArg SyntaxFault.found same) ?_⟩
        rw [marked_eq_marked begins order fits, steps.covers.text t word, SyntaxFault.marked, stops.start,
          stops.stop, Nat.sub_zero]
    · cases deep
      exact absurd rfl shallow

end Places

/-! ## Carets -/

section Carets

variable {f : SyntaxFault} {width : Nat}

theorem rtakeWhile_append_cons {p : Char → Bool} {front back : List Char} {c : Char} (hc : ¬ p c)
    (hback : ∀ d ∈ back, p d) : (front ++ c :: back).rtakeWhile p = back := by
  unfold List.rtakeWhile
  rw [List.reverse_append, List.reverse_cons, List.append_assoc,
    List.takeWhile_append_of_pos (by simpa using hback)]
  simp [hc]

theorem SyntaxFault.toList_carets (f : SyntaxFault) : f.carets.toList =
    List.replicate f.start ' ' ++ List.replicate (max 1 (f.stop - f.start)) '^' :=
  String.toList_ofList

/-- The columns of the carets. -/
theorem SyntaxFault.getElem?_carets_iff {i : Nat} :
    f.carets.toList[i]? = some '^' ↔ f.start ≤ i ∧ i < f.start + max 1 (f.stop - f.start) := by
  rw [toList_carets]
  rcases Nat.lt_or_ge i f.start with before | start
  · rw [List.getElem?_append_left (by simpa using before), List.getElem?_replicate, if_pos before]
    exact iff_of_false nofun fun h => absurd h.1 (Nat.not_le.mpr before)
  · rw [List.getElem?_append_right (by simpa using start), List.length_replicate,
      List.getElem?_replicate, Option.ite_none_right_eq_some, and_iff_left rfl]
    omega

theorem SyntaxFault.ne_newline_of_mem_carets {c : Char} (hc : c ∈ f.carets.toList) : c ≠ '\n' := by
  rw [toList_carets] at hc
  rcases List.mem_append.mp hc with blank | caret
  · rw [List.eq_of_mem_replicate blank]
    decide
  · rw [List.eq_of_mem_replicate caret]
    decide

/-- A span that ends within the source is underlined. -/
theorem underlines_of_span (line : String) (order : f.start ≤ f.stop) (fits : f.stop ≤ width) :
    Underlines line width f := by
  refine ⟨?_, f.toList_carets, ?_, ?_⟩
  · have shown : (f.diagnostic line).toList =
        (f.cause.message ++ "\n" ++ line).toList ++ '\n' :: f.carets.toList := by
      simp [SyntaxFault.diagnostic, String.toList_append]
    rw [shown]
    exact rtakeWhile_append_cons (by decide)
      fun d hd => decide_eq_true (SyntaxFault.ne_newline_of_mem_carets hd)
  · intro i start stop
    exact SyntaxFault.getElem?_carets_iff.mpr ⟨start, by omega⟩
  · intro i caret
    have column := SyntaxFault.getElem?_carets_iff.mp caret
    omega

end Carets

namespace Session

/-- A line whose expression is refused, but not for its nesting, is shown with carets under what is
offending, which is the same text in the line as in the expression. -/
theorem answer_points {s : Session} {line : String} {f : SyntaxFault}
    (refused : (s.answer line).outcome = .error (.calculation (.malformed f)))
    (shallow : f.cause ≠ .nestedTooDeeply) :
    let source := line.toList.takeWhile (· ≠ ':')
    f.start ≤ f.stop ∧ f.stop ≤ source.length ∧ PointsAt line.toList source f ∧
      Underlines line source.length f := by
  intro source
  have text : (splitLine line).1 = String.ofList source := by
    rw [← String.toList_inj, String.toList_ofList]
    exact toList_splitLine line
  have rejected := (s.rejected_of_answer line _ refused).resolve_left fun placeless => placeless rfl
  rw [text] at rejected
  obtain ⟨order, fits, points⟩ := pointsAt_of_parse (List.takeWhile_prefix _) rejected shallow
  exact ⟨order, fits, points, underlines_of_span line order fits⟩

theorem answer_points_call :
    let s := Session.new { depth := 300, height := 900 } .standard
    let line := "2 + sin 33:x"
    let f : SyntaxFault := ⟨.unexpectedToken, 8, 10, [.kind .opening], some "NUMBER(33)"⟩
    let source := line.toList.takeWhile (· ≠ ':')
    (s.answer line).outcome = .error (.calculation (.malformed f)) ∧ f.cause ≠ .nestedTooDeeply ∧
      f.start ≤ f.stop ∧ f.stop ≤ source.length ∧ PointsAt line.toList source f ∧
      Underlines line source.length f := by
  intro s line f source
  have refused : (s.answer line).outcome = .error (.calculation (.malformed f)) := by
    have shown : (s.answer line).outcome.map Prod.fst = .error (.calculation (.malformed f)) := by
      decide +kernel
    rcases found : (s.answer line).outcome with fault | answered
    · rw [found] at shown
      exact congrArg _ (Except.error.inj shown)
    · rw [found] at shown
      cases shown
  exact ⟨refused, nofun, answer_points refused nofun⟩

end Session

end Reckoner
