import Reckoner.Expr.Basic
import Reckoner.Journal.Event

/-!
# Evaluation

An expression is evaluated against the history of earlier results: operands first, the left one before
the right one, and the first fault ends it.
-/

namespace Reckoner

/-- The results recorded so far, the oldest first. -/
abbrev History := Array Value

namespace History

/-- The place of a reference in a history of a given length: relative indices count back from its end,
absolute ones from its beginning. -/
def slot (length : Nat) (kind : ReferenceKind) (index : Int) : Int :=
  match kind with
  | .relative => length - index
  | .absolute => index

/-- The result that a reference names. -/
def lookup (history : History) (kind : ReferenceKind) (index : Int) : Traced Value :=
  let place := slot history.size kind index
  let missing : Traced Value :=
    .silent (.error (.calculation (.outOfHistory kind index history.size)))
  if place < 0 then missing
  else
    match history[place.toNat]? with
    | some v => do
      Traced.report (.resolved kind index place.toNat)
      pure v
    | none => missing

end History

namespace InfixOp

/-- The result of an operator, the orders that were too narrow being reported. -/
def applyTraced (op : InfixOp) (a b : Value) : Traced Value :=
  match op.apply a b with
  | .ok ascent => ⟨.ok ascent.result, ascent.overflowed.map (.overflowed op)⟩
  | .error fault => .silent (.error fault)

end InfixOp

namespace Expr

def evaluate (history : History) : Expr → Traced Value
  | .literal text base => .silent (Value.ofLiteral base text.toList)
  | .constant c => pure c.value
  | .reference kind index => history.lookup kind index
  | .prefixed op x => do
    let v ← evaluate history x
    .silent (op.apply v)
  | .infixed l op r => do
    let a ← evaluate history l
    let b ← evaluate history r
    op.applyTraced a b
  | .call f x => do
    let v ← evaluate history x
    .silent (f.apply v)
  | .group x => evaluate history x
  | .blocked fault => .silent (.error fault)

end Expr

end Reckoner
