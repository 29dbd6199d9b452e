import Reckoner.Value.Arithmetic
import Reckoner.Value.Bits
import Reckoner.Value.Rounding

/-!
# Operators, functions and constants

The vocabulary of expressions: how each word is spelled, how tightly each operator binds, and which
operation on values it stands for.
-/

namespace Reckoner

inductive PrefixOp where
  | negate
  | complement
deriving DecidableEq

namespace PrefixOp

def all : List PrefixOp := [negate, complement]

def spelling : PrefixOp → String
  | negate => "-"
  | complement => "!"

/-- The operator with a spelling. -/
def ofSpelling? (s : String) : Option PrefixOp := all.find? (·.spelling = s)

/-- Is the operator refused on doubles? -/
def integersOnly : PrefixOp → Bool
  | negate => false
  | complement => true

def apply : PrefixOp → Value → Except Fault Value
  | negate, v => .ok v.neg
  | complement, v => v.bitNot

end PrefixOp

inductive InfixOp where
  | add
  | sub
  | mul
  | div
  | floorDiv
  | pow
  | rem
  | shiftLeft
  | shiftRight
  | rotateLeft
  | rotateRight
  | bitAnd
  | bitOr
  | bitXor
deriving DecidableEq

namespace InfixOp

def all : List InfixOp :=
  [add, sub, mul, div, floorDiv, pow, rem, shiftLeft, shiftRight, rotateLeft, rotateRight, bitAnd,
    bitOr, bitXor]

def spelling : InfixOp → String
  | add => "+"
  | sub => "-"
  | mul => "*"
  | div => "/"
  | floorDiv => "//"
  | pow => "**"
  | rem => "%"
  | shiftLeft => "<<"
  | shiftRight => ">>"
  | rotateLeft => "<<<"
  | rotateRight => ">>>"
  | bitAnd => "&"
  | bitOr => "|"
  | bitXor => "^"

/-- The operator with a spelling. -/
def ofSpelling? (s : String) : Option InfixOp := all.find? (·.spelling = s)

/-- The level of an operator; higher levels bind more tightly. -/
def level : InfixOp → Nat
  | add | sub => 1
  | bitOr => 2
  | bitXor => 3
  | bitAnd => 4
  | shiftLeft | shiftRight | rotateLeft | rotateRight => 5
  | mul | div | floorDiv | rem => 6
  | pow => 7

/-- Do operators of this level group to the right? -/
def groupsRight : InfixOp → Bool
  | pow => true
  | _ => false

/-- Is the operator refused on doubles? -/
def integersOnly : InfixOp → Bool
  | shiftLeft | shiftRight | rotateLeft | rotateRight | bitAnd | bitOr | bitXor => true
  | add | sub | mul | div | floorDiv | pow | rem => false

/-- The result of an operator, with the orders that were too narrow for it. -/
def apply : InfixOp → Value → Value → Except Fault Value.Ascent
  | add, a, b => .ok (a.add b)
  | sub, a, b => .ok (a.sub b)
  | mul, a, b => .ok (a.mul b)
  | pow, a, b => a.pow b
  | div, a, b => flat (a.div b)
  | floorDiv, a, b => flat (a.floorDiv b)
  | rem, a, b => flat (a.rem b)
  | shiftLeft, a, b => flat (a.shiftLeft b)
  | shiftRight, a, b => flat (a.shiftRight b)
  | rotateLeft, a, b => flat (a.rotateLeft b)
  | rotateRight, a, b => flat (a.rotateRight b)
  | bitAnd, a, b => flat (a.bitAnd b)
  | bitOr, a, b => flat (a.bitOr b)
  | bitXor, a, b => flat (a.bitXor b)
where
  /-- The result of an operation that does not climb. -/
  flat (result : Except Fault Value) : Except Fault Value.Ascent := result.map fun v => ⟨v, []⟩

end InfixOp

inductive Function where
  | abs
  | ceil
  | floor
  | round
  | sin
  | cos
  | tan
  | sinh
  | cosh
  | tanh
  | asin
  | acos
  | atan
  | asinh
  | acosh
  | atanh
  | rad
  | deg
  | sqrt
  | cbrt
  | log
  | lg
  | ln
  | exp
deriving DecidableEq

namespace Function

def all : List Function :=
  [abs, ceil, floor, round, sin, cos, tan, sinh, cosh, tanh, asin, acos, atan, asinh, acosh, atanh,
    rad, deg, sqrt, cbrt, log, lg, ln, exp]

def name : Function → String
  | abs => "abs"
  | ceil => "ceil"
  | floor => "floor"
  | round => "round"
  | sin => "sin"
  | cos => "cos"
  | tan => "tan"
  | sinh => "sinh"
  | cosh => "cosh"
  | tanh => "tanh"
  | asin => "asin"
  | acos => "acos"
  | atan => "atan"
  | asinh => "asinh"
  | acosh => "acosh"
  | atanh => "atanh"
  | rad => "rad"
  | deg => "deg"
  | sqrt => "sqrt"
  | cbrt => "cbrt"
  | log => "log"
  | lg => "lg"
  | ln => "ln"
  | exp => "exp"

/-- The function with a name. -/
def ofName? (s : String) : Option Function := all.find? (·.name = s)

def apply : Function → Value → Except Fault Value
  | abs, v => .ok v.abs
  | ceil, v => v.ceil
  | floor, v => v.floor
  | round, v => v.round
  | sin, v => .ok (v.mapDouble Double.sin)
  | cos, v => .ok (v.mapDouble Double.cos)
  | tan, v => .ok (v.mapDouble Double.tan)
  | sinh, v => .ok (v.mapDouble Double.sinh)
  | cosh, v => .ok (v.mapDouble Double.cosh)
  | tanh, v => .ok (v.mapDouble Double.tanh)
  | asin, v => .ok (v.mapDouble Double.asin)
  | acos, v => .ok (v.mapDouble Double.acos)
  | atan, v => .ok (v.mapDouble Double.atan)
  | asinh, v => .ok (v.mapDouble Double.asinh)
  | acosh, v => .ok (v.mapDouble Double.acosh)
  | atanh, v => .ok (v.mapDouble Double.atanh)
  | rad, v => .ok (v.mapDouble Double.toRadians)
  | deg, v => .ok (v.mapDouble Double.toDegrees)
  | sqrt, v => .ok (v.mapDouble Double.sqrt)
  | cbrt, v => .ok (v.mapDouble Double.cbrt)
  | log, v => .ok (v.mapDouble Double.log10)
  | lg, v => .ok (v.mapDouble Double.log2)
  | ln, v => .ok (v.mapDouble Double.ln)
  | exp, v => .ok (v.mapDouble Double.exp)

end Function

inductive Constant where
  | e
  | pi
deriving DecidableEq

namespace Constant

def name : Constant → String
  | e => "e"
  | pi => "pi"

/-- The constant with a name; the Greek letter names one too. -/
def ofName? (s : String) : Option Constant :=
  if s = "e" then some e else if s = "pi" ∨ s = "π" then some pi else none

def value : Constant → Value
  | e => Value.e
  | pi => Value.pi

end Constant

end Reckoner
