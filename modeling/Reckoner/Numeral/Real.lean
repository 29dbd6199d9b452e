import Reckoner.Numeral.Integer
import Reckoner.Text.Blank
import Reckoner.Double.Decimal

/-!
# Real numbers in decimal

A written real number is an optional sign and either digits with an optional point and an optional
exponent, or one of the words for infinity and not-a-number in any case. The dotted capital and the
dotless small letter i pass for an i when a word is recognised, but the word then has no value.
-/

namespace Reckoner

namespace Numeral

/-- What the text after the sign says. -/
inductive RealBody where
  | decimal (coefficient : Nat) (exponent : Int)
  | infinity
  | nan
  /-- A word that is recognised and has no value. -/
  | valueless
deriving DecidableEq

def spanDigits (cs : List Char) : List Char × List Char :=
  (cs.takeWhile Text.isDigit, cs.dropWhile Text.isDigit)

/-- Digits with an optional point, at least one digit in all: the digits, how many of them stand after
the point, and the text that follows. -/
def spanMantissa (cs : List Char) : Option (List Char × Nat × List Char) :=
  let (whole, rest) := spanDigits cs
  match rest with
  | '.' :: afterPoint =>
    let (places, rest) := spanDigits afterPoint
    if whole.isEmpty && places.isEmpty then none else some (whole ++ places, places.length, rest)
  | _ => if whole.isEmpty then none else some (whole, 0, rest)

/-- An exponent that takes up the whole text, zero if the text is empty. -/
def readExponent : List Char → Option Int
  | [] => some 0
  | c :: rest =>
    if c = 'e' ∨ c = 'E' then
      let (negative, digits) := splitSign rest
      if digits.isEmpty || !digits.all Text.isDigit then none
      else
        let n := valueOf 10 digits
        some (if negative then -(n : Int) else n)
    else none

/-- The small letter as which a character of a word is recognised. -/
def wordLetter (c : Char) : Char :=
  if c.toNat = 0x130 ∨ c.toNat = 0x131 then 'i' else c.toLower

/-- The words for infinity and not-a-number. -/
def readWord (cs : List Char) : Option RealBody :=
  let word := String.ofList (cs.map wordLetter)
  let body : Option RealBody :=
    if word = "inf" ∨ word = "infinity" then some .infinity
    else if word = "nan" then some .nan
    else none
  if cs.all fun c => c.toNat < 128 then body else body.map fun _ => .valueless

/-- The text after the sign. -/
def readBody (cs : List Char) : Option RealBody :=
  match spanMantissa cs with
  | some (digits, places, rest) =>
    (readExponent rest).map fun e => .decimal (valueOf 10 digits) (e - places)
  | none => readWord cs

/-- The double that a sign and a body stand for; a valueless body has none. -/
def RealBody.toDouble? (negative : Bool) : RealBody → Option Double
  | .decimal m e => some (.ofDecimal negative m e)
  | .infinity => some (.infinity negative)
  | .nan => some .nan
  | .valueless => none

/-- The sign and body of a written real number. -/
def readReal (text : List Char) : Option (Bool × RealBody) :=
  let (negative, rest) := splitSign text
  (readBody rest).map fun body => (negative, body)

/-- Single underscores between two digits may be left out. -/
def dropUnderscores : List Char → List Char
  | a :: '_' :: b :: rest =>
    if Text.isDigit a && Text.isDigit b then a :: dropUnderscores (b :: rest)
    else a :: '_' :: dropUnderscores (b :: rest)
  | c :: rest => c :: dropUnderscores rest
  | [] => []

/-- A decimal digit of another script as one of the ten digits. -/
def plainDigit (c : Char) : Char :=
  match Text.decimalDigit? c with
  | some d => Char.ofNat (48 + d)
  | none => c

/-- The double of a freely written number: space around it, single underscores between digits and
digits of other scripts are allowed. -/
def readLoosely (text : List Char) : Option Double :=
  (readReal (dropUnderscores ((Text.stripOf Text.isSpace text).map plainDigit))).bind fun (negative, body) =>
    body.toDouble? negative

end Numeral

end Reckoner
