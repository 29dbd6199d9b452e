import Reckoner.Value.Promotion
import Reckoner.Numeral.Real

/-!
# Literals

A literal without point, exponent or word is an integer and becomes a value of the first order that
holds it. Integers in a marked base have to fit; decimal ones that do not fit, and all other decimal
numbers, become doubles.
-/

namespace Reckoner

/-- The bases in which literals are written and results are shown. -/
inductive Base where
  | binary
  | octal
  | decimal
  | hex
deriving DecidableEq

namespace Base

def radix : Base → Nat
  | binary => 2
  | octal => 8
  | decimal => 10
  | hex => 16

/-- The letter that marks the base after a zero. -/
def marker : Base → Char
  | binary => 'b'
  | octal => 'o'
  | decimal => 'd'
  | hex => 'x'

def all : List Base := [binary, octal, decimal, hex]

theorem one_lt_radix (b : Base) : 1 < b.radix := by cases b <;> decide

theorem radix_le (b : Base) : b.radix ≤ 16 := by cases b <;> decide

end Base

namespace Value

/-- The value of an integer numeral: nothing if the text is none, or no order holds it. -/
def readInteger? (text : List Char) (radix : Int) : Except Fault (Option Value) :=
  match Numeral.readInteger text radix with
  | .ok n => .ok (n.bind narrow?)
  | .error cause => .error (.misuse (.numeral cause))

/-- The value of an integer in a radix: an optional sign and digits, nothing else. -/
def ofRadix (text : List Char) (radix : Int) : Except Fault Value := do
  match ← readInteger? text radix with
  | some v => .ok v
  | none => .error (.calculation (.unreadable (String.ofList text) (some radix)))

/-- The value of a decimal integer or real number. -/
def ofDecimal (text : List Char) : Except Fault Value := do
  match ← readInteger? text 10 with
  | some v => .ok v
  | none =>
    match Numeral.readReal text with
    | none => .error (.calculation (.unreadable (String.ofList text) none))
    | some (negative, body) =>
      match body.toDouble? negative with
      | some x => .ok (.double x)
      | none => .error (.misuse (.valuelessReal (String.ofList text)))

/-- The text of a literal without its underscores and its base marker. -/
def bare (base : Base) (text : List Char) : List Char :=
  match text.filter (· ≠ '_') with
  | '0' :: c :: rest => if c = base.marker then rest else '0' :: c :: rest
  | cs => cs

/-- The value of a literal in a base. -/
def ofLiteral (base : Base) (text : List Char) : Except Fault Value :=
  let digits := bare base text
  match base with
  | .decimal => ofDecimal digits
  | _ => ofRadix digits base.radix

end Value

end Reckoner
