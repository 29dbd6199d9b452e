import Reckoner.Format.Basic
import Reckoner.Value.Text

/-!
# Rendering

A result is rendered as a sign, a whole part in groups and, for doubles, a point and places. Zeros are
filled in before grouping, and so that sign and places count towards the width; blanks are filled in
last. Doubles are rendered in decimal only, and the words for not-a-number and infinity are only
brought to the width.
-/

namespace Reckoner

namespace Format

/-- The greatest width that can be filled, `2^63 - 1`. -/
def widthLimit : Nat := 9223372036854775807

/-- The text brought to a width by a filler in front of it. -/
def padLeft (filler : Char) (width : Nat) (cs : List Char) : List Char :=
  List.replicate (width - cs.length) filler ++ cs

/-- The digits with a separator before every group of `size` digits, counted from the right, except in
front of them all. Groups of size zero do not occur. -/
def grouped (separator : List Char) (size : Nat) (digits : List Char) : List Char :=
  (digits.foldr (fun c (after, text) =>
      (after + 1, c :: if size ≠ 0 ∧ after ≠ 0 ∧ after % size = 0 then separator ++ text else text))
    (0, ([] : List Char))).2

/-- A number taken apart: its sign, its whole part, and the point and places after it. -/
structure Parts where
  sign : List Char
  whole : List Char
  tail : List Char
deriving DecidableEq

/-- The parts of an integer in a base. -/
def Parts.ofInt (base : Base) (n : Int) : Parts :=
  { sign := if n < 0 then ['-'] else []
    whole := Nat.toDigits base.radix n.natAbs
    tail := [] }

/-- The parts of a written decimal number. -/
def Parts.ofText (text : List Char) : Parts :=
  let (sign, rest) : List Char × List Char := match text with
    | '-' :: rest => (['-'], rest)
    | _ => ([], text)
  { sign, whole := rest.takeWhile (· ≠ '.'), tail := rest.dropWhile (· ≠ '.') }

/-- The whole part with zeros in front, as many as the width lacks. -/
def filledWhole (format : Format) (parts : Parts) : List Char :=
  if format.zeroPad then
    padLeft '0' (format.width - parts.sign.length - parts.tail.length) parts.whole
  else parts.whole

/-- Puts the parts together. -/
def layOut (format : Format) (parts : Parts) : List Char :=
  padLeft ' ' format.width
    (parts.sign
      ++ grouped format.separator.text format.groupSize (filledWhole format parts) ++ parts.tail)

/-- The parts of a value; the words for infinity and not-a-number have none. -/
def partsOf (format : Format) : Value → Option Parts
  | .int _ n _ => some (.ofInt format.base n)
  | .double x => if x.isFinite then some (.ofText (x.write .plain).toList) else none

/-- The text of a value, if its base and width are in order. -/
def textOf (format : Format) (v : Value) : List Char :=
  match format.partsOf v with
  | some parts => layOut format parts
  | none => padLeft ' ' format.width v.shown.toList

/-- The text of a value in a format. -/
def render (format : Format) (v : Value) : Except Fault String :=
  if v.order = .double ∧ format.base ≠ .decimal then
    .error (.calculation (.doubleInBase v.shown format.base.radix))
  else if widthLimit < format.width then .error (.misuse .tooWide)
  else .ok (String.ofList (format.textOf v))

end Format

end Reckoner
