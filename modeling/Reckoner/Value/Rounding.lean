import Reckoner.Value.Promotion

/-!
# Rounding to integers

An integer is its own rounding. A double is rounded and then demoted to the first integer order that
holds the result.
-/

namespace Reckoner

namespace Value

/-- Rounds a double by `f` and demotes it. -/
def roundBy (f : Double → Double) : Value → Except Fault Value
  | .int o n h => .ok (.int o n h)
  | .double x => demote (.double (f x))

def ceil : Value → Except Fault Value := roundBy Double.ceil

def floor : Value → Except Fault Value := roundBy Double.floor

/-- The nearest integer, a half going away from zero. -/
def round : Value → Except Fault Value := roundBy Double.round

/-- Applies a function on doubles to a value. -/
def mapDouble (f : Double → Double) (v : Value) : Value := .double (f v.toDouble)

/-- The integer part of a value. -/
def toInt : Value → Except Misuse Int
  | .int _ n _ => .ok n
  | .double .nan => .error .integerOfNaN
  | .double x => if x.isFinite then .ok x.truncated else .error .integerOfInfinity

end Value

end Reckoner
