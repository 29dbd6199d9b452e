import Reckoner.Text.Numeric

/-!
# Number tokens

A number is written with a base marker and digits of the base, or as a decimal number with an optional
point and an optional exponent; underscores may stand among the digits. `numberLength` is the length of
the number at the beginning of a text. A marker without a digit after it is no marker, and an exponent
without digits is no exponent: the number then ends before it.
-/

namespace Reckoner

namespace Number

/-- A digit of one of the marked bases. -/
def isDigitIn (marker c : Char) : Bool :=
  match marker with
  | 'x' => Text.isDigit c || ('a' ≤ c && c ≤ 'f') || ('A' ≤ c && c ≤ 'F')
  | 'o' => '0' ≤ c && c ≤ '7'
  | 'b' => c = '0' || c = '1'
  | 'd' => Text.isDigit c
  | _ => false

/-- The length of a zero, a base marker and a run of digits and underscores with at least one digit. -/
def markedLength? : List Char → Option Nat
  | '0' :: marker :: rest =>
    let run := rest.takeWhile fun c => c = '_' || isDigitIn marker c
    if run.any (isDigitIn marker) then some (2 + run.length) else none
  | _ => none

/-- The length of a run of decimal digits and underscores. -/
def runLength (cs : List Char) : Nat :=
  (cs.takeWhile fun c => c = '_' || Text.isDigit c).length

/-- Does the text begin with a decimal digit? -/
def beginsWithDigit : List Char → Bool
  | c :: _ => Text.isDigit c
  | [] => false

/-- The length of the mantissa: a digit, a run, and a point with a run; or a point, a digit and a run.
It is zero if the text begins with neither. -/
def mantissaLength (cs : List Char) : Nat :=
  if beginsWithDigit cs then
    let whole := runLength cs
    match cs.drop whole with
    | '.' :: rest => whole + 1 + runLength rest
    | _ => whole
  else
    match cs with
    | '.' :: rest => if beginsWithDigit rest then 1 + runLength rest else 0
    | _ => 0

/-- The length of an exponent: its letter, an optional sign and at least one digit; zero if there is
none. -/
def exponentLength : List Char → Nat
  | c :: rest =>
    if c = 'e' || c = 'E' then
      let signed := match rest with
        | s :: _ => if s = '+' || s = '-' then 1 else 0
        | [] => 0
      let digits := ((rest.drop signed).takeWhile Text.isDigit).length
      if digits = 0 then 0 else 1 + signed + digits
    else 0
  | [] => 0

/-- The length of the number at the beginning of a text, zero if there is none. -/
def numberLength (cs : List Char) : Nat :=
  match markedLength? cs with
  | some n => n
  | none =>
    let mantissa := mantissaLength cs
    if mantissa = 0 then 0 else mantissa + exponentLength (cs.drop mantissa)

end Number

end Reckoner
