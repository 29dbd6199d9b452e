import Reckoner.Session
import Reckoner.Proofs.Expr.Inlining
import Reckoner.Proofs.Expr.Refusal
import Reckoner.Proofs.Expr.Soundness
import Reckoner.Proofs.Token.Numerals
import Reckoner.Proofs.Value.Literals

/-!
# How an evaluation can fail

An evaluation gives a value or a fault that its caller knows how to show: it never breaks a promise of one
of its stages to the next (`evaluate_answers`).  Every stage hands on only what the next one can take.  The
tokens are such that each is taken up or refused where it stands (`Scans.isDispatched`).  The tree has the
number tokens of the source for its literals, and those are read or unreadable; what the tree lacks because
it is nested too deeply is replaced by nodes that say so.  `Expr.Sound` says this of a tree, and operators
and functions fail only where their operands are to blame, so no evaluation of such a tree fails otherwise
(`Expr.Sound.failsOnly_evaluate`).

One limit is outside the reach of expressions: of more than `Numeral.digitLimit` decimal digits no integer
is made.  So no run of digits and underscores of the source may hold more.
-/

namespace Reckoner

open Token (IsWord)

/-- The kinds of fault in which an evaluation may end. -/
def FaultKind.ofEvaluation : List FaultKind :=
  [.malformed, .arithmetic, .integerNeeded, .outOfHistory, .unreadable, .nesting]

/-- The fault is of a kind in which an evaluation may end. -/
def Fault.IsAnswer (fault : Fault) : Prop := fault.kind ∈ FaultKind.ofEvaluation

theorem Fault.BlamesOperands.isAnswer {fault : Fault} (h : fault.BlamesOperands) : fault.IsAnswer := by
  rw [Fault.IsAnswer]
  rcases h with kind | kind <;> rw [kind] <;> decide

theorem Fault.isAnswer_of_unreadable {fault : Fault} (h : fault.kind = .unreadable) : fault.IsAnswer := by
  rw [Fault.IsAnswer, h]
  decide

theorem Fault.isAnswer_malformed (f : SyntaxFault) :
    (Fault.calculation (.malformed f)).IsAnswer := List.mem_cons_self

/-! ## Trees -/

namespace Expr

/-- Every literal of the tree is read or unreadable, and every blocked node says why in an answer. -/
def Sound : Expr → Prop
  | .literal text base => Value.OnlyUnreadable (Value.ofLiteral base text.toList)
  | .constant _ | .reference .. => True
  | .prefixed _ x | .call _ x | .group x => x.Sound
  | .infixed l _ r => l.Sound ∧ r.Sound
  | .blocked fault => fault.IsAnswer

/-- The faults that a tree holds in itself are of a sort: those of its literals, and those of the nodes that
are blocked. -/
def Holds (sort : Fault → Prop) : Expr → Prop
  | .literal text base => FailsOnly sort (Value.ofLiteral base text.toList)
  | .constant _ | .reference .. => True
  | .prefixed _ x | .call _ x | .group x => x.Holds sort
  | .infixed l _ r => l.Holds sort ∧ r.Holds sort
  | .blocked fault => sort fault

/-- An evaluation fails because of what the tree holds, because of operands, or for want of a result. -/
theorem Holds.failsOnly_evaluate {sort : Fault → Prop} {t : Expr} (h : t.Holds sort)
    (operands : ∀ fault : Fault, fault.BlamesOperands → sort fault)
    (missing : ∀ fault : Fault, fault.kind = .outOfHistory → sort fault) (history : History) :
    FailsOnly sort (t.evaluate history).outcome := by
  induction t with
  | literal text base => exact h
  | constant c => exact failsOnly_ok _
  | blocked fault => exact failsOnly_error.mpr h
  | reference kind index =>
    simp only [evaluate, History.lookup_outcome]
    split
    · exact failsOnly_ok _
    · exact failsOnly_error.mpr (missing _ rfl)
  | group x ih => exact ih h
  | prefixed op x ih =>
    simp only [evaluate, Traced.bind_outcome]
    exact (ih h).bind fun v => (op.blames_apply v).mono operands
  | call f x ih =>
    simp only [evaluate, Traced.bind_outcome]
    exact (ih h).bind fun v => (f.blames_apply v).mono operands
  | infixed l op r ihl ihr =>
    simp only [evaluate, Traced.bind_outcome]
    refine (ihl h.1).bind fun a => (ihr h.2).bind fun b => ?_
    have blamed := (op.blames_apply a b).mono operands
    unfold InfixOp.applyTraced
    cases applied : op.apply a b with
    | ok ascent => exact failsOnly_ok _
    | error fault => exact failsOnly_error.mpr (blamed fault applied)

/-- Blocking what is too deep adds faults of nesting only. -/
theorem Holds.limited {sort : Fault → Prop} (deep : sort (.calculation .tooDeep)) {t : Expr}
    (h : t.Holds sort) (room : Nat) : (t.limited room).Holds sort := by
  induction room generalizing t with
  | zero => cases t <;> exact deep
  | succ room ih =>
    cases t with
    | literal | constant | reference | blocked => exact h
    | prefixed op x => exact ih (t := x) h
    | call f x => exact ih (t := x) h
    | group x => exact ih (t := x) h
    | infixed l op r => exact ⟨ih h.1, ih h.2⟩

/-- All that a sound tree holds are answers. -/
theorem Sound.holds {t : Expr} (h : t.Sound) : t.Holds Fault.IsAnswer := by
  induction t with
  | literal text base => exact FailsOnly.mono h fun _ => Fault.isAnswer_of_unreadable
  | constant | reference => trivial
  | blocked fault => exact h
  | prefixed op x ih => exact ih h
  | call f x ih => exact ih h
  | group x ih => exact ih h
  | infixed l op r ihl ihr => exact ⟨ihl h.1, ihr h.2⟩

/-- The evaluation of a sound tree, with what is too deep blocked, fails with answers only. -/
theorem Sound.failsOnly_evaluate {t : Expr} (h : t.Sound) (room : Nat) (history : History) :
    FailsOnly Fault.IsAnswer ((t.limited room).evaluate history).outcome := by
  have deep : Fault.IsAnswer (.calculation .tooDeep) :=
    (by decide : FaultKind.nesting ∈ FaultKind.ofEvaluation)
  refine (h.holds.limited deep room).failsOnly_evaluate (fun _ blamed => blamed.isAnswer) ?_ history
  intro fault kind
  rw [Fault.IsAnswer, kind]
  decide

/-- A tree is sound if the number tokens among its words are read or unreadable. -/
theorem sound_of_spelling {t : Expr} (well : t.WellSpelled)
    (numbers : ∀ text, (.number, text) ∈ t.spelling →
      ∀ base, Value.OnlyUnreadable (Value.ofLiteral base text.toList)) : t.Sound := by
  induction t with
  | literal text base => exact numbers text List.mem_cons_self base
  | constant | reference => trivial
  | blocked => exact absurd well id
  | prefixed op x ih =>
    exact ih well fun text mem => numbers text (List.mem_cons_of_mem _ mem)
  | call f x ih =>
    exact ih well fun text mem => numbers text
      (List.mem_cons_of_mem _ (List.mem_cons_of_mem _ (List.mem_append_left _ mem)))
  | group x ih =>
    exact ih well fun text mem => numbers text (List.mem_cons_of_mem _ (List.mem_append_left _ mem))
  | infixed l op r ihl ihr =>
    exact ⟨ihl well.1 fun text mem => numbers text (List.mem_append_left _ mem),
      ihr well.2 fun text mem => numbers text (List.mem_append_right _ (List.mem_cons_of_mem _ mem))⟩

/-! ## Sources -/

section Sources

variable {limit : Nat} {source : String} (short : Number.RunsWithin Numeral.digitLimit source.toList)

include short

/-- A source that spells a tree spells a sound one. -/
theorem sound_of_parse {t : Expr} (h : parse limit source = .ok t) : t.Sound := by
  obtain ⟨tokens, scanned, words⟩ := words_of_parse h
  refine sound_of_spelling (normal_of_parse h).wellSpelled fun text mem base => ?_
  rw [← words] at mem
  obtain ⟨token, ht, same⟩ := List.mem_map.mp mem
  -- The word of a number token is written as it is.
  obtain ⟨kind, rfl⟩ : token.kind = .number ∧ token.text = text := by
    unfold Token.word Token.Word.plain at same
    grind
  have word := scanned.isWord token ht
  rw [kind] at word
  exact Value.onlyUnreadable_ofLiteral word.ascii (short.of_isInfix (scanned.text_isInfix ht)) base

/-- The index of a history token is read. -/
theorem referenceOf_ne_error {tokens : List Token} (scanned : Token.Scans 0 source.toList tokens)
    {t : Token} (ht : t ∈ tokens) (history : t.kind = .history) (fault : Fault) :
    ParseState.referenceOf t.text ≠ .error fault := by
  have word := scanned.isWord t ht
  rw [history] at word
  obtain ⟨cs, hcs, shape⟩ := word.eq_reference
  have afterSign : t.text.toList.drop 1 = cs := by rw [hcs]; rfl
  unfold ParseState.referenceOf
  simp only [afterSign]
  split
  case isFalse =>
    intro h
    cases h
  case isTrue begins =>
    rw [if_pos begins] at shape
    have inside : cs <:+: source.toList := by
      refine List.IsInfix.trans ?_ (scanned.text_isInfix ht)
      rw [hcs]
      exact (List.suffix_cons _ _).isInfix
    have count := short.countP_le inside fun c hc => by simp [Number.inRun, shape c hc]
    rw [List.countP_eq_length.mpr shape] at count
    rw [Numeral.readDecimal, if_neg (Nat.not_lt.mpr count)]
    intro h
    cases h

/-- A source that spells no tree is malformed. -/
theorem failsOnly_parse : FailsOnly Fault.IsAnswer (parse limit source) := by
  intro fault rejected
  cases scanned : Token.scanFrom 0 source.toList with
  | error lex =>
    simp only [parse, scanned] at rejected
    obtain rfl := Except.error.inj rejected
    exact Fault.isAnswer_malformed _
  | ok tokens =>
    have steps := Token.scanFrom_eq_ok_iff.mp scanned
    have whole := Token.scan_eq_ok_iff.mpr ⟨tokens, rfl, steps⟩
    rcases malformed_or_unreadable whole rejected with ⟨f, rfl⟩ | ⟨t, ht, history, read⟩
    · exact Fault.isAnswer_malformed f
    · rcases List.mem_append.mp ht with ht | ht
      · exact absurd read (referenceOf_ne_error short steps ht history fault)
      · obtain rfl := List.mem_singleton.mp ht
        cases history

end Sources

end Expr

/-! ## Tokens -/

namespace Token

/-- The token is taken up or refused: an operator token spells an operator, a name that is unknown is
refused as such wherever an operand is due, and the end of the source is refused everywhere, so that nothing
behind it is ever asked for. -/
structure IsDispatched (t : Token) : Prop where
  operator : t.kind = .operator →
    (∃ op, PrefixOp.ofSpelling? t.text = some op) ∨ ∃ op, InfixOp.ofSpelling? t.text = some op
  name : t.kind = .name →
    (∃ c, Constant.ofName? t.text = some c) ∨ (∃ f, Function.ofName? t.text = some f) ∨
      ∀ pending outer, ParseState.takeOperand t pending outer =
        .error (ParseState.faultAt t (.unknownName t.text) [])
  finish : t.kind = .finish → ∀ state : ParseState, ∃ cause expected,
    state.step t = .error (ParseState.faultAt t cause expected)

/-- No state takes the end of the source. -/
theorem isDispatched_of_finish {t : Token} (kind : t.kind = .finish) : t.IsDispatched where
  operator h := by cases kind.symm.trans h
  name h := by cases kind.symm.trans h
  finish _ state := by
    cases state with
    | operand pending outer =>
      simp only [ParseState.step, ParseState.takeOperand, kind]
      exact ⟨_, _, rfl⟩
    | argument f pending outer =>
      simp only [ParseState.step, kind]
      exact ⟨_, _, rfl⟩
    | complete x pending outer =>
      have none : ParseState.infixOf? t = none := by simp [ParseState.infixOf?, kind]
      cases outer with
      | nil =>
        simp only [ParseState.step, ParseState.takeAfter, none]
        exact ⟨_, _, rfl⟩
      | cons level rest =>
        simp only [ParseState.step, ParseState.takeAfter, none, kind]
        exact ⟨_, _, rfl⟩

/-- The word of an operator is one of the spellings of operators. -/
theorem IsWord.mem_operators {text : String} (h : IsWord .operator text) : text ∈ operators := by
  obtain ⟨c, cs, hcs, -, read⟩ := isWord_iff.mp h
  have length : operatorLength (c :: cs) = cs.length + 1 := by
    unfold lexeme at read
    grind
  obtain ⟨spelling, listed, start, same⟩ := operatorLength_eq_succ length
  have whole : spelling.toList = c :: cs := start.eq_of_length (by rw [same, List.length_cons])
  rwa [String.toList_injective (hcs.trans whole.symm)]

theorem Scans.isDispatched {place : Nat} {cs : List Char} {tokens : List Token}
    (h : Scans place cs tokens) : ∀ t ∈ tokens, t.IsDispatched := by
  have spelled : ∀ text ∈ operators,
      (PrefixOp.ofSpelling? text).isSome = true ∨ (InfixOp.ofSpelling? text).isSome = true := by
    decide
  intro t ht
  refine ⟨fun kind => ?_, fun kind => ?_, fun kind => absurd kind (h.kind_ne_finish t ht)⟩
  · have word := h.isWord t ht
    rw [kind] at word
    exact (spelled _ word.mem_operators).imp Option.isSome_iff_exists.mp Option.isSome_iff_exists.mp
  · cases constant : Constant.ofName? t.text with
    | some c => exact Or.inl ⟨c, rfl⟩
    | none =>
      cases function : Function.ofName? t.text with
      | some f => exact Or.inr (Or.inl ⟨f, rfl⟩)
      | none =>
        refine Or.inr (Or.inr fun pending outer => ?_)
        simp only [ParseState.takeOperand, kind, constant, function]

end Token

/-! ## Sessions -/

namespace Session

/-- Evaluating the text gives a value, which is recorded, or ends in a fault of one of the kinds. -/
def Answers (kinds : List FaultKind) (s : Session) (text : String) : Prop :=
  (∃ v, (s.evaluate text).outcome = .ok (v, { s with history := s.history.push v })) ∨
    ∃ fault, (s.evaluate text).outcome = .error fault ∧ fault.kind ∈ kinds

/-- An evaluation is a computation whose value is recorded. -/
theorem evaluate_outcome (s : Session) (text : String) :
    (s.evaluate text).outcome =
      (s.compute text).outcome.map fun v => (v, { s with history := s.history.push v }) := by
  unfold evaluate
  rw [Traced.bind_outcome]
  cases (s.compute text).outcome with
  | ok v => rfl
  | error fault => rfl

theorem failsOnly_compute (s : Session) {text : String}
    (short : Number.RunsWithin Numeral.digitLimit text.toList) :
    FailsOnly Fault.IsAnswer (s.compute text).outcome := by
  unfold compute
  split
  case h_1 t parsed =>
    exact (Expr.sound_of_parse short parsed).failsOnly_evaluate _ s.history
  case h_2 fault rejected =>
    exact failsOnly_error.mpr (Expr.failsOnly_parse short fault rejected)

/-- Whatever the history, a text without overlong rows of digits has a value or is answered with an error of
a known kind; its tokens end in the one that no state takes, and each operator and each name among them is
taken up or refused; and no integer that can be a value is too large to be converted to a double. -/
theorem evaluate_answers (s : Session) {text : String}
    (short : Number.RunsWithin Numeral.digitLimit text.toList) :
    s.Answers [.malformed, .arithmetic, .integerNeeded, .outOfHistory, .unreadable, .nesting] text ∧
      (∀ tokens, Token.scan text.toList = .ok tokens →
        (∃ words, tokens = words ++ [Token.finishAt text.toList.length]) ∧
          ∀ t ∈ tokens, t.IsDispatched) ∧
      ∀ v : Value, v.order = .double ∨ v.toDouble.isFinite = true := by
  refine ⟨?_, fun tokens scanned => ?_, Value.order_double_or_isFinite⟩
  · unfold Answers
    rw [evaluate_outcome]
    cases computed : (s.compute text).outcome with
    | ok v => exact Or.inl ⟨v, rfl⟩
    | error fault => exact Or.inr ⟨fault, rfl, s.failsOnly_compute short fault computed⟩
  · obtain ⟨words, rfl, steps⟩ := Token.scan_eq_ok_iff.mp scanned
    refine ⟨⟨words, rfl⟩, fun t ht => ?_⟩
    rcases List.mem_append.mp ht with word | last
    · exact steps.isDispatched t word
    · obtain rfl := List.mem_singleton.mp last
      exact Token.isDispatched_of_finish rfl

/-- A shift of minus infinity is answered. -/
theorem evaluate_answers_shift :
    let s : Session := ⟨{ depth := 300, height := 900 }, #[.double (.infinity true)], .standard⟩
    let text := "@1 << 0x_1f + sin 4_000_000_000"
    Number.RunsWithin Numeral.digitLimit text.toList ∧
      s.Answers [.malformed, .arithmetic, .integerNeeded, .outOfHistory, .unreadable, .nesting] text ∧
      (∀ tokens, Token.scan text.toList = .ok tokens →
        (∃ words, tokens = words ++ [Token.finishAt text.toList.length]) ∧
          ∀ t ∈ tokens, t.IsDispatched) ∧
      ∀ v : Value, v.order = .double ∨ v.toDouble.isFinite = true := by
  intro s text
  have short : Number.RunsWithin Numeral.digitLimit text.toList := by decide +kernel
  exact ⟨short, evaluate_answers s short⟩

end Session

end Reckoner
