import Reckoner.Text.Numeric
import Reckoner.Text.Quoted

/-!
# Integers in a radix

A written integer is an optional sign and one or more digits below the radix, letters of either case
standing for the digits from ten on. The Kelvin sign passes for the letter of twenty when digits are
recognised, but it has no value. Texts of more than `digitLimit` digits are refused unless the radix is
a power of two.
-/

namespace Reckoner

namespace Numeral

/-- The most digits that are read in a radix that is no power of two. -/
def digitLimit : Nat := 4300

/-- Why a text of admissible digits has no value. -/
inductive Unreadable where
  /-- The radix is outside `2` to `36`. -/
  | radix
  /-- There are too many digits. -/
  | length (digits : Nat)
  /-- A character passes for a digit and has no value. -/
  | character (text : String) (radix : Int)
deriving DecidableEq

/-- The value of a digit in the ten digits and the letters of either case. -/
def digit? (c : Char) : Option Nat :=
  if Text.isDigit c then some (c.toNat - 48)
  else if 'a' ≤ c && c ≤ 'z' then some (c.toNat - 87)
  else if 'A' ≤ c && c ≤ 'Z' then some (c.toNat - 55)
  else none

/-- The sign that passes for the letter of digit twenty. -/
def kelvinSign : Char := Char.ofNat 0x212a

/-- How many of the thirty-six digits a radix admits. A negative radix leaves out so many from the end. -/
def admitted (radix : Int) : Nat :=
  if radix < 0 then (36 + radix).toNat else min radix.toNat 36

/-- Does the character pass for a digit of the radix? -/
def passes (radix : Int) (c : Char) : Bool :=
  match if c = kelvinSign then some 20 else digit? c with
  | some d => d < admitted radix
  | none => false

/-- An optional sign and the text after it. -/
def splitSign : List Char → Bool × List Char
  | '-' :: rest => (true, rest)
  | '+' :: rest => (false, rest)
  | cs => (false, cs)

/-- The value of digits in a radix, most significant first. -/
def valueOf (radix : Nat) (digits : List Char) : Nat :=
  digits.foldl (fun n c => n * radix + (digit? c).getD 0) 0

/-- Are all lengths read in this radix? -/
def isPowerOfTwo (radix : Int) : Bool := [2, 4, 8, 16, 32].contains radix

/-- The integer written in a radix, or nothing if the text is no sign and digits. -/
def readInteger (text : List Char) (radix : Int) : Except Unreadable (Option Int) :=
  let (negative, digits) := splitSign text
  if digits.isEmpty || !digits.all (passes radix) then .ok none
  else if radix < 2 ∨ 36 < radix then .error .radix
  else
    let valued := digits.takeWhile fun c => (digit? c).isSome
    if digitLimit < valued.length && !isPowerOfTwo radix then .error (.length valued.length)
    else if valued.length < digits.length then .error (.character (String.ofList text) radix)
    else
      let n := valueOf radix.toNat digits
      .ok (some (if negative then -(n : Int) else n))

/-- A natural number written in decimal digits, as in a history index or a width. -/
def readDecimal (digits : List Char) : Except Unreadable Nat :=
  if digitLimit < digits.length then .error (.length digits.length)
  else .ok (valueOf 10 digits)

end Numeral

end Reckoner
