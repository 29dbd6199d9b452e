import Reckoner.Value.Literal

/-!
# Formats

A format says how results are laid out: the least width and whether it is filled with zeros, the base,
and the separator between groups of digits. Its annotation is the compact text

    [0][width][base][separator][group size]

in which every part may be left out. A leading zero is always the mark for filling with zeros; the
digits after it, unless they begin with another zero, are the width.
-/

namespace Reckoner

inductive Separator where
  | none
  | underscore
  | comma
  | space
deriving DecidableEq

namespace Separator

/-- What stands between two groups. -/
def text : Separator → List Char
  | none => []
  | underscore => ['_']
  | comma => [',']
  | space => [' ']

/-- The letter of the separator in annotations. -/
def code : Separator → Char
  | none => 'n'
  | underscore => '_'
  | comma => ','
  | space => 's'

def all : List Separator := [none, underscore, comma, space]

end Separator

structure Format where
  zeroPad : Bool
  width : Nat
  base : Base
  separator : Separator
  groupSize : Nat
deriving DecidableEq

namespace Format

/-- Decimal digits as they are. -/
def standard : Format :=
  { zeroPad := false, width := 0, base := .decimal, separator := .none, groupSize := 3 }

instance : Inhabited Format := ⟨standard⟩

/-- The parts of an annotation, numbers still as digits. -/
structure Outline where
  zeroPad : Bool
  width : List Char
  base : Option Base
  separator : Option Separator
  groupSize : List Char
deriving DecidableEq

/-- Takes the first of some things whose letter begins the text. -/
def takeCoded {α : Type} (letter : α → Char) (things : List α) (cs : List Char) :
    Option α × List Char :=
  match cs with
  | [] => (none, [])
  | c :: rest =>
    match things.find? (letter · = c) with
    | some thing => (some thing, rest)
    | none => (none, c :: rest)

/-- The parts of a stripped annotation. -/
def readOutline (cs : List Char) : Option Outline :=
  let (zeroPad, cs) : Bool × List Char := match cs with
    | '0' :: rest => (true, rest)
    | _ => (false, cs)
  let hasWidth := cs.head? ≠ some '0'
  let width := if hasWidth then cs.takeWhile Text.isDigit else []
  let (base, cs) := takeCoded Base.marker Base.all (cs.drop width.length)
  let (separator, cs) := takeCoded Separator.code Separator.all cs
  if cs.all Text.isDigit then some ⟨zeroPad, width, base, separator, cs⟩ else none

/-- The format that the parts of an annotation mean. -/
def ofOutline (a : Outline) : Except Numeral.Unreadable Format := do
  let width ← Numeral.readDecimal a.width
  let groupSize ←
    if a.groupSize.isEmpty then .ok standard.groupSize else Numeral.readDecimal a.groupSize
  .ok { zeroPad := a.zeroPad, width, base := a.base.getD .decimal,
        separator := a.separator.getD .none, groupSize }

/-- The format of an annotation, blanks around it being ignored. -/
def parse (text : String) : Except Fault Format :=
  match readOutline (Text.strip text.toList) with
  | none => .error (.calculation (.invalidFormat text))
  | some a =>
    match ofOutline a with
    | .ok format => .ok format
    | .error cause => .error (.misuse (.numeral cause))

end Format

end Reckoner
