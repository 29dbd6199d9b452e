import Reckoner.Proofs.Expr.Conservation
import Reckoner.Proofs.Expr.Reading

/-!
# What a parse gives

The tree of a parse is normal (`normal_of_parse`), and it nests within the limit (`nesting_of_parse`).
Hence it is the only normal tree with its words, and parsing it once more from its spelling gives it
again (`parse_spelled_of_parse`).

What a state of the parser has to satisfy for that is said by `ParseState.Normal`: each waiting infix
operator admits its left operand, and where it waits directly above another one it is admitted there as
the right operand.  An operand that has just been completed is never a bare infix operation, so it may
stand anywhere; `foldBefore` goes on just as long as what it has folded is admitted to the left of the
next operator, and stops where the next operator is admitted to the right (`Placed.foldBefore`).
-/

namespace Reckoner

open Token (Word IsWord)

namespace Pending

/-! ## Normal trees -/

/-- Waiting operators and their left operands, each of which may stand where it does. -/
def Normal : List Pending → Prop
  | [] => True
  | .prefixed _ :: ps => Normal ps
  | .infixed l op :: ps =>
    l.Normal ∧ (∀ inner, l.bareInfix? = some inner → op.AdmitsLeft inner) ∧ Admits ps op ∧ Normal ps

/-- A normal operand that may stand below the operators that wait for it. -/
structure Placed (x : Expr) (ps : List Pending) : Prop where
  normal : x.Normal
  admits : ∀ inner, x.bareInfix? = some inner → Admits ps inner
  waiting : Normal ps

/-- An operand that is no bare infix operation may stand anywhere. -/
theorem placed_of_closed {x : Expr} (normal : x.Normal) (bare : x.bareInfix? = none)
    {ps : List Pending} (waiting : Normal ps) : Placed x ps := by
  refine ⟨normal, fun inner h => ?_, waiting⟩
  rw [bare] at h
  cases h

/-- A waiting operator with its operand may stand where the operator waited. -/
theorem Placed.apply {p : Pending} {x : Expr} {ps : List Pending} (h : Placed x (p :: ps)) :
    Placed (p.apply x) ps := by
  obtain ⟨normal, admits, waiting⟩ := h
  cases p with
  | prefixed op =>
    have bare : x.bareInfix? = none := Option.eq_none_iff_forall_not_mem.mpr admits
    have signed : (Expr.prefixed op x).Normal := ⟨⟨bare, normal.laddered⟩, normal.wellSpelled⟩
    exact placed_of_closed signed rfl waiting
  | infixed l op =>
    obtain ⟨left, ladder, here, waiting⟩ := waiting
    have joined : (Expr.infixed l op x).Normal :=
      ⟨⟨ladder, admits, left.laddered, normal.laddered⟩, left.wellSpelled, normal.wellSpelled⟩
    refine ⟨joined, ?_, waiting⟩
    rintro inner ⟨⟩
    exact here

theorem Placed.foldAll {x : Expr} {ps : List Pending} (h : Placed x ps) :
    (foldAll x ps).Normal :=
  (foldAll_induction Placed.apply h).normal

/-- What is folded before an operator may be its left operand, and the operator may wait above what is
not folded. -/
theorem Placed.foldBefore {next : InfixOp} {x l : Expr} {ps rest : List Pending}
    (folded : foldBefore next x ps = (l, rest)) (h : Placed x ps) (bare : x.bareInfix? = none) :
    Normal (.infixed l next :: rest) := by
  obtain ⟨⟨placed, left⟩, here⟩ := foldBefore_induction
    (motive := fun y qs => Placed y qs ∧ ∀ inner, y.bareInfix? = some inner → next.AdmitsLeft inner)
    (fun {p y qs} yields kept => by
      refine ⟨kept.1.apply, ?_⟩
      cases p with
      | prefixed op => rintro inner ⟨⟩
      | infixed l' op => rintro inner ⟨⟩; exact yieldsTo_eq_true_iff.mp yields)
    folded ⟨h, by simp [bare]⟩
  exact ⟨placed.normal, left, here, placed.waiting⟩

/-! ## Nesting -/

/-- Waiting operators, in a reading that has gone `around` deep outside them, whose left operands nest
within the limit where they stand. -/
def Shallow (limit around : Nat) : List Pending → Prop
  | [] => True
  | .prefixed _ :: ps => Shallow limit around ps
  | .infixed l _ :: ps =>
    around + ps.length + l.nesting ≤ limit ∧ Shallow limit around ps

/-- An operand that nests within the limit where it stands, as do those of its waiting operators. -/
def Within (limit around : Nat) (x : Expr) (ps : List Pending) : Prop :=
  around + ps.length + x.nesting ≤ limit ∧ Shallow limit around ps

/-- A waiting operator with its operand nests no deeper than both did. -/
theorem Within.apply {limit around : Nat} {p : Pending} {x : Expr} {ps : List Pending}
    (h : Within limit around x (p :: ps)) : Within limit around (p.apply x) ps := by
  obtain ⟨here, waiting⟩ := h
  rw [List.length_cons] at here
  cases p with
  | prefixed op =>
    refine ⟨?_, waiting⟩
    simp only [Pending.apply, Expr.nesting]
    omega
  | infixed l op =>
    obtain ⟨left, waiting⟩ := waiting
    refine ⟨?_, waiting⟩
    simp only [Pending.apply, Expr.nesting]
    omega

theorem Within.foldAll {limit around : Nat} {x : Expr} {ps : List Pending}
    (h : Within limit around x ps) : around + (foldAll x ps).nesting ≤ limit :=
  (foldAll_induction Within.apply h).1

theorem Within.foldBefore {next : InfixOp} {limit around : Nat} {x l : Expr} {ps rest : List Pending}
    (folded : foldBefore next x ps = (l, rest)) (h : Within limit around x ps) :
    Shallow limit around (.infixed l next :: rest) :=
  (foldBefore_induction (fun _ => Within.apply) folded h).1

end Pending

namespace ParseState

/-- All that waits in the state may stand where it does, and what is complete may stand anywhere. -/
def Normal : ParseState → Prop
  | .operand ps outer | .argument _ ps outer =>
    Pending.Normal ps ∧ ∀ level ∈ outer, Pending.Normal level.2
  | .complete x ps outer => (x.Normal ∧ x.bareInfix? = none) ∧
    Pending.Normal ps ∧ ∀ level ∈ outer, Pending.Normal level.2

theorem normal_of_referenceOf {text : String} {x : Expr} (word : IsWord .history text)
    (read : referenceOf text = .ok x) : x.Normal ∧ x.bareInfix? = none := by
  rcases referenceOf_eq_ok word read with ⟨k, positive, rfl, -⟩ | ⟨n, short, rfl, -⟩
  · exact ⟨⟨trivial, Int.ofNat_le.mpr positive⟩, rfl⟩
  · exact ⟨⟨trivial, Int.natCast_nonneg n, short⟩, rfl⟩

/-- Steps keep states normal. -/
theorem Reads.normal {s s' : ParseState} {w : Word} (h : Reads s w s') (word : IsWord w.1 w.2)
    (normal : s.Normal) : s'.Normal := by
  cases h with
  | number text => exact ⟨⟨⟨trivial, word, rfl⟩, rfl⟩, normal⟩
  | history read => exact ⟨normal_of_referenceOf word read, normal⟩
  | constant named => exact ⟨⟨⟨trivial, trivial⟩, rfl⟩, normal⟩
  | function other named => exact normal
  | sign spelled => exact normal
  | group text | call text =>
    refine ⟨trivial, ?_⟩
    rintro level (_ | ⟨_, hl⟩)
    · exact normal.1
    · exact normal.2 _ hl
  | operator spelled folded =>
    obtain ⟨⟨complete, bare⟩, waiting, outer⟩ := normal
    exact ⟨(Pending.placed_of_closed complete bare waiting).foldBefore folded bare, outer⟩
  | @closing text x y bracket ps saved outer folded =>
    obtain ⟨⟨complete, bare⟩, waiting, around⟩ := normal
    have inner : y.Normal := folded ▸ (Pending.placed_of_closed complete bare waiting).foldAll
    refine ⟨?_, around _ List.mem_cons_self, fun level hl => around _ (List.mem_cons_of_mem _ hl)⟩
    cases bracket with
    | group | call => exact ⟨⟨inner.laddered, inner.wellSpelled⟩, rfl⟩

/-- All that waits outside the innermost parenthesis was read within the limit. -/
def ShallowAround (limit : Nat) : List (Bracket × List Pending) → Prop
  | [] => True
  | (_, ps) :: outer => Pending.Shallow limit (outside outer) ps ∧ ShallowAround limit outer

/-- All that has been read was read within the limit. -/
def Shallow (limit : Nat) : ParseState → Prop
  | .operand ps outer | .argument _ ps outer =>
    Pending.Shallow limit (outside outer) ps ∧ ShallowAround limit outer
  | .complete x ps outer => Pending.Within limit (outside outer) x ps ∧ ShallowAround limit outer

/-- Steps within the limit keep states shallow. -/
theorem Reads.shallow {limit : Nat} {s s' : ParseState} {w : Word} (h : Reads s w s')
    (word : IsWord w.1 w.2) (within : s'.depth ≤ limit) (shallow : s.Shallow limit) :
    s'.Shallow limit := by
  cases h with
  | number text | constant named =>
    rw [depth_complete] at within
    exact ⟨⟨by simp only [Expr.nesting]; omega, shallow.1⟩, shallow.2⟩
  | history read =>
    rw [depth_complete] at within
    refine ⟨⟨?_, shallow.1⟩, shallow.2⟩
    rcases referenceOf_eq_ok word read with ⟨k, -, rfl, -⟩ | ⟨n, -, rfl, -⟩
    · simp only [Expr.nesting]; omega
    · simp only [Expr.nesting]; omega
  | function other named => exact shallow
  | sign spelled => exact shallow
  | group text | call text => exact ⟨trivial, shallow⟩
  | operator spelled folded => exact ⟨shallow.1.foldBefore folded, shallow.2⟩
  | @closing text x y bracket ps saved outer folded =>
    obtain ⟨here, saved, around⟩ := shallow
    have inner := folded ▸ here.foldAll
    rw [outside_cons] at inner
    refine ⟨⟨?_, saved⟩, around⟩
    cases bracket with
    | group | call => simp only [Bracket.close, Expr.nesting]; omega

end ParseState

namespace Expr

variable {limit : Nat}

/-- The tree of a parse is normal. -/
theorem normal_of_parse {source : String} {t : Expr} (h : parse limit source = .ok t) : t.Normal := by
  obtain ⟨tokens, y, ps, scanned, run, rfl⟩ := parse_eq_ok_iff.mp h
  obtain ⟨⟨complete, bare⟩, waiting, -⟩ := ParseState.run_induction run
    (motive := fun _ s => s.Normal) ⟨trivial, fun _ h => absurd h List.not_mem_nil⟩
    fun done t s s' ht kept reads _ => reads.normal (scanned.isWord t ht) kept
  exact (Pending.placed_of_closed complete bare waiting).foldAll

/-- The tree of a parse nests within the limit. -/
theorem nesting_of_parse {source : String} {t : Expr} (h : parse limit source = .ok t) :
    t.nesting ≤ limit := by
  obtain ⟨tokens, y, ps, scanned, run, rfl⟩ := parse_eq_ok_iff.mp h
  obtain ⟨here, -⟩ := ParseState.run_induction run
    (motive := fun _ s => s.Shallow limit) ⟨trivial, trivial⟩
    fun done t s s' ht kept reads within => reads.shallow (scanned.isWord t ht) within kept
  have folded := here.foldAll
  rwa [ParseState.outside_nil, Nat.zero_add] at folded

/-- A tree that was parsed once is parsed again from its spelling. -/
theorem parse_spelled_of_parse {source : String} {t : Expr} (h : parse limit source = .ok t) :
    parse limit t.spelled = .ok t := by
  have normal := normal_of_parse h
  obtain ⟨tokens, scanned, words⟩ :=
    Token.exists_scans_spaced (isWord_of_mem_spelling normal.wellSpelled) 0
  exact parse_of_scans normal (nesting_of_parse h) scanned words

/-- Whatever is parsed has the tokens of the source for its words, and each of its operands stands on
the ladder where it may stand bare. -/
theorem parse_sound {source : String} {t : Expr} (h : parse limit source = .ok t) :
    ∃ tokens, Token.scan source.toList = .ok (tokens ++ [Token.finishAt source.length]) ∧
      tokens.map (fun token => token.word.plain) = t.spelling ∧ t.Laddered := by
  obtain ⟨tokens, scanned, words⟩ := words_of_parse h
  refine ⟨tokens, ?_, words, (normal_of_parse h).laddered⟩
  rw [Token.scan, scanned.scanFrom_eq, ← String.length_toList]
  rfl

theorem parse_sound_powers :
    let t : Expr := .infixed
      (.infixed (.prefixed .negate (.constant .pi)) .pow
        (.infixed (.reference .absolute 7) .pow (.reference .relative 2)))
      .sub (.call .sin (.literal "0b1" .binary))
    parse 5 "-π**@007 ** @@-sin(0b1)" = .ok t ∧
      ∃ tokens, Token.scan "-π**@007 ** @@-sin(0b1)".toList =
          .ok (tokens ++ [Token.finishAt "-π**@007 ** @@-sin(0b1)".length]) ∧
        tokens.map (fun token => token.word.plain) = t.spelling ∧ t.Laddered := by
  intro t
  have parsed : parse 5 "-π**@007 ** @@-sin(0b1)" = .ok t := by decide +kernel
  exact ⟨parsed, parse_sound parsed⟩

end Expr

end Reckoner
