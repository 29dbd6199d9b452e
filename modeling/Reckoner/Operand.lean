import Reckoner.Expr.Operator
import Reckoner.Journal.Template
import Reckoner.Numeral.Real
import Reckoner.Value.HashSet

/-!
# Mixed operands

Besides values, callers hand over plain numbers, truth values and texts. Plain numbers become values
where an operation needs them; truth values and texts are refused, but a text on the left of the
remainder sign is a template for the value. Integers that no integer order holds can be neither values
nor compared with values.
-/

namespace Reckoner

inductive Operand where
  | value (v : Value)
  | integer (n : Int)
  | real (x : Double)
  | truth (b : Bool)
  | text (s : String)
deriving DecidableEq

/-- The relations that can be asked of two operands. -/
inductive Relation where
  | equal
  | unequal
  | less
  | atMost
  | greater
  | atLeast
deriving DecidableEq

namespace Relation

def spelling : Relation → String
  | equal => "=="
  | unequal => "!="
  | less => "<"
  | atMost => "<="
  | greater => ">"
  | atLeast => ">="

def all : List Relation := [equal, unequal, less, atMost, greater, atLeast]

/-- The relation with a spelling. -/
def ofSpelling? (s : String) : Option Relation := all.find? (·.spelling = s)

/-- Does the relation hold of two things that compare so? -/
def holds : Relation → Ordering → Bool
  | equal, c => c == .eq
  | unequal, c => c != .eq
  | less, c => c == .lt
  | atMost, c => c != .gt
  | greater, c => c == .gt
  | atLeast, c => c != .lt

end Relation

namespace Operand

/-- The word for the kind of an operand in messages. -/
def kind : Operand → String
  | value _ => "Value"
  | integer _ => "int"
  | real _ => "float"
  | truth _ => "bool"
  | text _ => "str"

/-- The operand as a value. -/
def toValue : Operand → Except Fault Value
  | value v => .ok v
  | integer n => Value.ofInt n
  | real x => .ok (.double x)
  | truth _ => .error (.misuse .truthOperand)
  | text s => .error (.misuse (.foreignOperand (text s).kind))

/-- The operand as a double. -/
def toDouble : Operand → Except Fault Double
  | value v => .ok v.toDouble
  | integer n =>
    match Double.ofInt? n with
    | some x => .ok x
    | none => .error (.misuse .tooLargeForDouble)
  | real x => .ok x
  | truth b => .ok (.ofInt (if b then 1 else 0))
  | text s =>
    match Numeral.readLoosely s.toList with
    | some x => .ok x
    | none => .error (.misuse (.valuelessReal s))

/-- A value at a given order. Integer orders take integers only, doubles take whatever has one. -/
def toValueAt (order : Order) (operand : Operand) : Except Fault Value :=
  match order, operand with
  | .double, x => x.toDouble.map .double
  | .integer o, .integer n => Value.make o n
  | .integer o, x => .error (.misuse (.integersOnly o x.kind))

/-- How an operand compares with an integer that an integer order holds; nothing for not-a-number and
for texts. -/
def compareInt (n : Int) : Operand → Option Ordering
  | value v =>
    match Value.ofInt n with
    | .ok w => some (v.compare w)
    | .error _ => none
  | integer m => some (Ord.compare m n)
  | real .nan => none
  | real (.ranked s r _) =>
    some (Ord.compare (Double.signed s (Double.units r)) (n * Double.one))
  | truth b => some (Ord.compare (if b then 1 else 0) n)
  | text _ => none

/-- The value at the first integer order within whose bounds the operand lies. -/
def toNarrowest (operand : Operand) : Except Fault Value :=
  match operand with
  | text _ => .error (.misuse (.uncomparable "<=" (integer 0).kind operand.kind))
  | _ =>
    let home := IntOrder.all.find? fun o =>
      (operand.compareInt o.low).any (·.isGE) && (operand.compareInt o.high).any (·.isLE)
    match home with
    | some o => toValueAt (.integer o) operand
    | none =>
      .error (.calculation (if operand.compareInt 0 = some .gt then .overflow else .underflow))

/-- May the operand be compared with a value? -/
def isComparable : Operand → Bool
  | value _ | real _ => true
  | integer n => (Value.narrow? n).isSome
  | truth _ | text _ => false

/-- Does a relation hold between two operands, one of them a value? What cannot be compared is unequal
and has no order. -/
def relate (r : Relation) (a b : Operand) : Except Fault Bool :=
  if a.isComparable && b.isComparable then do
    let left ← a.toValue
    let right ← b.toValue
    .ok (r.holds (left.compare right))
  else
    match r with
    | .equal => .ok false
    | .unequal => .ok true
    | _ => .error (.misuse (.uncomparable r.spelling a.kind b.kind))

/-- Do plain operands on the left of an operator become values? -/
def takesPlainLeft : InfixOp → Bool
  | .add | .sub | .mul | .div => true
  | _ => false

/-- The spelling of an operator in the message that refuses operands. -/
def refusedSpelling : InfixOp → String
  | .pow => "** or pow()"
  | op => op.spelling

/-- The result of an operator on two operands, one of them a value. -/
def combine (op : InfixOp) (a b : Operand) : Except Fault Operand :=
  match op, a, b with
  | _, value v, _ => do
    let w ← b.toValue
    (op.apply v w).map fun ascent => .value ascent.result
  | .rem, text template, value w =>
    match fillTemplate template [.value w] with
    | .ok s => .ok (.text s)
    | .error m => .error (.misuse m)
  | _, _, _ =>
    if takesPlainLeft op then do
      let v ← a.toValue
      let w ← b.toValue
      (op.apply v w).map fun ascent => .value ascent.result
    else .error (.misuse (.unsupported (refusedSpelling op) a.kind b.kind))

end Operand

end Reckoner
