import Reckoner.Fault
import Reckoner.Double.Elementary

/-!
# Values

A value is an integer at an integer order that holds it, or a double. `Value.make` is the checked way
to put an integer at a given order; `Value.ofInt` puts it at the first order that holds it.
-/

namespace Reckoner

inductive Value where
  | int (order : IntOrder) (n : Int) (fits : order.Fits n)
  | double (x : Double)
deriving DecidableEq

namespace Value

def order : Value → Order
  | .int o _ _ => .integer o
  | .double _ => .double

/-- The integer at the given order, refused if the order does not hold it. -/
def make (order : IntOrder) (n : Int) : Except Fault Value :=
  if h : order.Fits n then .ok (.int order n h)
  else .error (.misuse (.doesNotFit n order))

/-- The integer at the first order that holds it, if any does. -/
def narrow? (n : Int) : Option Value :=
  IntOrder.all.findSome? fun o => if h : o.Fits n then some (.int o n h) else none

/-- The integer at the first order that holds it. -/
def ofInt (n : Int) : Except Fault Value :=
  match narrow? n with
  | some v => .ok v
  | none => .error (.calculation (if 0 < n then .overflow else .underflow))

/-- The double nearest to a value. -/
def toDouble : Value → Double
  | .int _ n _ => .ofInt n
  | .double x => x

def pi : Value := .double Double.pi

def e : Value := .double Double.e

@[simp] theorem order_int (o : IntOrder) (n : Int) (h : o.Fits n) :
    (int o n h).order = .integer o := rfl

@[simp] theorem order_double (x : Double) : (double x).order = .double := rfl

end Value

end Reckoner
