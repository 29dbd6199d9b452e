import Reckoner.Expr.Parse
import Reckoner.Expr.Evaluation
import Reckoner.Format.Render

/-!
# Sessions

A session is the history of results so far and the format in which results are shown, within the limits
of where it runs. A line is evaluated against the history; only a line that succeeds adds its result, so
whatever goes wrong leaves the session as it was. A line may end in a colon and the annotation of the
format for this line alone.
-/

namespace Reckoner

/-- How deep expressions may be where a session runs: how deep their reading may go, and how high their
trees may be for an evaluation. There is room for a number with a sign. -/
structure Limits where
  depth : Nat
  height : Nat
  one_le_depth : 1 ≤ depth := by decide
  two_le_height : 2 ≤ height := by decide

structure Session where
  limits : Limits
  history : History
  format : Format

namespace Session

/-- A session without results. -/
def new (limits : Limits) (format : Format) : Session := { limits, history := #[], format }

/-- The number of results. -/
def size (s : Session) : Nat := s.history.size

/-- The value of an expression against the history. -/
def compute (s : Session) (text : String) : Traced Value :=
  match Expr.parse s.limits.depth text with
  | .ok x => (x.limited s.limits.height).evaluate s.history
  | .error fault => .silent (.error fault)

/-- An expression within the limits has its own value. -/
theorem compute_of_parse {s : Session} {text : String} {x : Expr}
    (parsed : Expr.parse s.limits.depth text = .ok x) (low : x.height ≤ s.limits.height) :
    s.compute text = x.evaluate s.history := by
  rw [compute, parsed]
  simp only [Expr.limited_of_height_le low]

/-- The session with one more result. -/
def record (s : Session) (text : String) (v : Value) : Traced Session := do
  Traced.report (.recorded s.size text v)
  pure { s with history := s.history.push v }

/-- Evaluates an expression and records its value. -/
def evaluate (s : Session) (text : String) : Traced (Value × Session) := do
  let v ← s.compute text
  let next ← s.record text v
  pure (v, next)

/-- The part of a line before the first colon and, if there is one, the part after it. -/
def splitLine (line : String) : String × Option String :=
  let cs := line.toList
  match cs.dropWhile (· ≠ ':') with
  | [] => (line, none)
  | _ :: rest => (String.ofList (cs.takeWhile (· ≠ ':')), some (String.ofList rest))

/-- The format for a line. -/
def formatFor (s : Session) (own : Option String) : Except Fault Format :=
  match own with
  | some text => Format.parse text
  | none => .ok s.format

/-- Evaluates a line that may carry an annotation, and shows the result. The result is rendered before
it is recorded, so one that cannot be rendered is not recorded. -/
def answer (s : Session) (line : String) : Traced (String × Session) := do
  let (text, own) := splitLine line
  let format ← Traced.silent (s.formatFor own)
  let v ← s.compute text
  let shown ← Traced.silent (format.render v)
  let next ← s.record text v
  pure (shown, next)

end Session

end Reckoner
