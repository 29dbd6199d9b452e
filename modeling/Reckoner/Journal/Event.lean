import Reckoner.Expr.Operator
import Reckoner.Value.Text

/-!
# The journal

The calculator reports what it does as events: orders that were too narrow, references resolved,
results recorded and lines that failed. Every event has a level, a source and a message; a level chosen
by the user decides which events are written.
-/

namespace Reckoner

/-- How grave an event is, or that nothing is said of it. -/
inductive Level where
  | unset
  | debug
  | info
  | warning
  | error
  | critical
deriving DecidableEq

namespace Level

def rank : Level → Nat
  | unset => 0
  | debug => 10
  | info => 20
  | warning => 30
  | error => 40
  | critical => 50

def name : Level → String
  | unset => "NOTSET"
  | debug => "DEBUG"
  | info => "INFO"
  | warning => "WARNING"
  | error => "ERROR"
  | critical => "CRITICAL"

def all : List Level := [unset, debug, info, warning, error, critical]

/-- The level with a name. Warnings and critical events have a second name. -/
def ofName? (s : String) : Option Level :=
  if s = "WARN" then some warning
  else if s = "FATAL" then some critical
  else all.find? (·.name = s)

end Level

/-- The level, the source and the message of a line of the journal. -/
def Journal.entry (level source message : String) : String :=
  "[" ++ level ++ "] freecalc." ++ source ++ ": " ++ message

inductive Event where
  /-- An operation needed a higher order than this one. -/
  | overflowed (op : InfixOp) (order : IntOrder)
  /-- A reference was resolved to a place in the history. -/
  | resolved (kind : ReferenceKind) (index : Int) (slot : Nat)
  /-- A result was recorded. -/
  | recorded (slot : Nat) (text : String) (value : Value)
  /-- A line was answered by an error. -/
  | failed (source : String) (error : CalcError)
deriving DecidableEq

namespace Event

/-- The word for an operation in the journal. -/
def operationWord : InfixOp → String
  | .add => "add"
  | .sub => "sub"
  | .mul => "mul"
  | .div => "div"
  | .floorDiv => "trunc_div"
  | .pow => "pow"
  | .rem => "rem"
  | .shiftLeft => "shl"
  | .shiftRight => "shr"
  | .rotateLeft => "rotate_left"
  | .rotateRight => "rotate_right"
  | .bitAnd => "bit_and"
  | .bitOr => "bit_or"
  | .bitXor => "bit_xor"

def level : Event → Level
  | overflowed .. | resolved .. | recorded .. => .debug
  | failed .. => .info

/-- The part of the calculator that reports the event. -/
def source : Event → String
  | overflowed .. => "values"
  | resolved .. => "evaluator"
  | recorded .. => "context"
  | failed .. => "cli"

def message : Event → String
  | overflowed op order =>
    operationWord op ++ " overflowed " ++ order.name ++ "; promoting"
  | resolved kind index slot =>
    kind.word ++ " history index " ++ toString index ++ " resolved to slot " ++ toString slot
  | recorded slot text value =>
    "[" ++ toString slot ++ "] " ++ Text.quoted text ++ " -> " ++ value.tagged
  | failed source error =>
    "evaluation of " ++ Text.quoted source ++ " failed: " ++ error.message

/-- The event as it follows the time in a line of the journal. -/
def entry (e : Event) : String := Journal.entry e.level.name e.source e.message

end Event

/-- A computation that may end in a fault and reports events, in order, either way. -/
structure Traced (α : Type) where
  outcome : Except Fault α
  events : List Event

namespace Traced

protected def pure {α : Type} (a : α) : Traced α := ⟨.ok a, []⟩

protected def bind {α β : Type} (x : Traced α) (f : α → Traced β) : Traced β :=
  match x.outcome with
  | .ok a => { f a with events := x.events ++ (f a).events }
  | .error fault => ⟨.error fault, x.events⟩

instance : Monad Traced where
  pure := Traced.pure
  bind := Traced.bind

/-- A computation without events. -/
def silent {α : Type} (outcome : Except Fault α) : Traced α := ⟨outcome, []⟩

/-- Reports an event. -/
def report (e : Event) : Traced Unit := ⟨.ok (), [e]⟩

@[simp] theorem pure_outcome {α : Type} (a : α) : (pure a : Traced α).outcome = .ok a := rfl

@[simp] theorem bind_outcome {α β : Type} (x : Traced α) (f : α → Traced β) :
    (x >>= f).outcome = x.outcome.bind fun a => (f a).outcome := by
  show (Traced.bind x f).outcome = _
  unfold Traced.bind
  cases x.outcome <;> rfl

@[simp] theorem silent_outcome {α : Type} (r : Except Fault α) : (silent r).outcome = r := rfl

@[simp] theorem report_outcome (e : Event) : (report e).outcome = .ok () := rfl

end Traced

end Reckoner
