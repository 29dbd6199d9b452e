import Reckoner.Expr.Basic
import Reckoner.Token.Scan

/-!
# From tokens to expressions

The parser takes one token at a time. Its state holds what has been read and not yet been closed: the
operators that wait for their right operand, innermost first, and the same for every open parenthesis
around them. Operators are folded into a tree as soon as a weaker one, a closing parenthesis or the end
of the source shows that their operand is complete. A token that cannot go on from a state is reported
at once, so an error always names the first token after which there is no way on.

How deep a source may be read is a limit from outside. It is counted as in a descent by recursion: an
operator that waits for its right operand is one call, and an open parenthesis is three.
-/

namespace Reckoner

/-- An operator that waits for its right operand. -/
inductive Pending where
  | prefixed (op : PrefixOp)
  | infixed (left : Expr) (op : InfixOp)
deriving DecidableEq

/-- What an open parenthesis belongs to. -/
inductive Bracket where
  | group
  | call (function : Function)
deriving DecidableEq

namespace Bracket

/-- What an open parenthesis adds to the depth of the reading: it is begun as an operand, in it an
expression is begun, and there a row of signs. -/
def depth : Nat := 3

/-- The tree of a closed parenthesis. -/
def close : Bracket → Expr → Expr
  | group, x => .group x
  | call f, x => .call f x

end Bracket

namespace Pending

/-- Does a waiting infix operator take its operand before `next` does? It does if it binds more tightly
or, at the same level, if operators of that level group to the left. -/
def yieldsTo (op next : InfixOp) : Bool :=
  next.level < op.level || (next.level = op.level && !op.groupsRight)

/-- Folds the waiting operators that take the operand `x` before `next` does. -/
def foldBefore (next : InfixOp) (x : Expr) : List Pending → Expr × List Pending
  | [] => (x, [])
  | .prefixed op :: rest => foldBefore next (.prefixed op x) rest
  | .infixed l op :: rest =>
    if yieldsTo op next then foldBefore next (.infixed l op x) rest else (x, .infixed l op :: rest)

/-- Folds all waiting operators. -/
def foldAll (x : Expr) (pending : List Pending) : Expr :=
  pending.foldl (fun x p => match p with
    | .prefixed op => .prefixed op x
    | .infixed l op => .infixed l op x) x

end Pending

/-- How far a source has been read. -/
inductive ParseState where
  /-- An operand is due. -/
  | operand (pending : List Pending) (outer : List (Bracket × List Pending))
  /-- The parenthesis of a function is due. -/
  | argument (function : Function) (pending : List Pending) (outer : List (Bracket × List Pending))
  /-- An operand is complete. -/
  | complete (x : Expr) (pending : List Pending) (outer : List (Bracket × List Pending))

namespace ParseState

def start : ParseState := .operand [] []

/-- How deep the reading has gone: by one for each operator that waits, and by more for each open
parenthesis. -/
def depth : ParseState → Nat
  | .operand pending outer | .argument _ pending outer | .complete _ pending outer =>
    outer.foldl (fun n level => n + Bracket.depth + level.2.length) pending.length

/-- The fault of a token at which a source stops being an expression. -/
def faultAt (t : Token) (cause : SyntaxCause) (expected : List Expectation) : Fault :=
  .calculation (.malformed ⟨cause, t.start, t.stop, expected, some t.shown⟩)

/-- The fault of a token in the place of another one. -/
def unexpected (t : Token) (expected : List Expectation) : Fault :=
  faultAt t (if t.kind = .finish then .unexpectedEnd else .unexpectedToken) expected

/-- What an operand may begin with. -/
def operandStarts : List Expectation :=
  [.kind .number, .kind .history, .kind .name, .kind .opening, .operator "-", .operator "!"]

/-- The tree of a number token: the text as written, and the base of its marker. -/
def literalOf (text : String) : Expr :=
  .literal text <| match text.toList with
    | '0' :: c :: _ => (Base.all.find? (·.marker = c)).getD .decimal
    | _ => .decimal

/-- The tree of a history token: an index after the sign counts from the oldest result, and a row of
signs counts from the newest. -/
def referenceOf (text : String) : Except Fault Expr :=
  let afterSign := text.toList.drop 1
  if Number.beginsWithDigit afterSign then
    match Numeral.readDecimal afterSign with
    | .ok n => .ok (.reference .absolute n)
    | .error cause => .error (.misuse (.numeral cause))
  else .ok (.reference .relative text.length)

/-- Takes a token where an operand is due. -/
def takeOperand (t : Token) (pending : List Pending) (outer : List (Bracket × List Pending)) :
    Except Fault ParseState :=
  match t.kind with
  | .number => .ok (.complete (literalOf t.text) pending outer)
  | .history => (referenceOf t.text).map fun x => .complete x pending outer
  | .name =>
    match Constant.ofName? t.text, Function.ofName? t.text with
    | some c, _ => .ok (.complete (.constant c) pending outer)
    | none, some f => .ok (.argument f pending outer)
    | none, none => .error (faultAt t (.unknownName t.text) [])
  | .opening => .ok (.operand [] ((.group, pending) :: outer))
  | .operator =>
    match PrefixOp.ofSpelling? t.text with
    | some op => .ok (.operand (.prefixed op :: pending) outer)
    | none => .error (unexpected t operandStarts)
  | .closing | .finish => .error (unexpected t operandStarts)

/-- The infix operator that a token stands for. -/
def infixOf? (t : Token) : Option InfixOp :=
  if t.kind = .operator then InfixOp.ofSpelling? t.text else none

/-- Takes a token after the complete operand `x`. -/
def takeAfter (t : Token) (x : Expr) (pending : List Pending)
    (outer : List (Bracket × List Pending)) : Except Fault ParseState :=
  match infixOf? t with
  | some op =>
    let (left, waiting) := Pending.foldBefore op x pending
    .ok (.operand (.infixed left op :: waiting) outer)
  | none =>
    match outer with
    | [] => .error (faultAt t .extraToken [.kind .finish])
    | (bracket, saved) :: rest =>
      if t.kind = .closing then .ok (.complete (bracket.close (Pending.foldAll x pending)) saved rest)
      else .error (unexpected t [.kind .closing])

/-- Takes one token. -/
def step (state : ParseState) (t : Token) : Except Fault ParseState :=
  match state with
  | .operand pending outer => takeOperand t pending outer
  | .argument f pending outer =>
    if t.kind = .opening then .ok (.operand [] ((.call f, pending) :: outer))
    else .error (unexpected t [.kind .opening])
  | .complete x pending outer => takeAfter t x pending outer

/-- Takes one token, unless the reading is too deep then. -/
def advance (limit : Nat) (state : ParseState) (t : Token) : Except Fault ParseState := do
  let next ← state.step t
  if next.depth ≤ limit then .ok next
  else .error (.calculation (.malformed ⟨.nestedTooDeeply, t.start, t.stop, [], none⟩))

/-- The tree of a source that ends in this state. -/
def finish (state : ParseState) (t : Token) : Except Fault Expr :=
  match state with
  | .operand .. => .error (unexpected t operandStarts)
  | .argument .. => .error (unexpected t [.kind .opening])
  | .complete x pending [] => .ok (Pending.foldAll x pending)
  | .complete _ _ (_ :: _) => .error (unexpected t [.kind .closing])

end ParseState

namespace Expr

/-- The expression that a list of tokens spells; `last` is the token of kind `finish` after them. -/
def ofTokens (limit : Nat) (tokens : List Token) (last : Token) : Except Fault Expr := do
  (← tokens.foldlM (ParseState.advance limit) ParseState.start).finish last

/-- The fault of a character at which no token begins. -/
def lexFault (source : List Char) (fault : LexFault) : Fault :=
  .calculation (.malformed
    { cause := .invalidToken
      start := fault.place
      stop := fault.place + 1
      expected := []
      found := some (Text.quoted (String.ofList ((source.drop fault.place).take 1))) })

/-- The expression that a source spells, unless it has to be read more deeply than the limit allows. -/
def parse (limit : Nat) (source : String) : Except Fault Expr :=
  let cs := source.toList
  match Token.scanFrom 0 cs with
  | .error fault => .error (lexFault cs fault)
  | .ok tokens => ofTokens limit tokens (Token.finishAt cs.length)

end Expr

end Reckoner
