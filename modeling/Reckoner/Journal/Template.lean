import Reckoner.Double.Places
import Reckoner.Text.Half
import Reckoner.Value.Rounding
import Reckoner.Value.Text

/-!
# Message templates

A journal message is a template with arguments. A directive begins with a percent sign, may hold flags,
a least width, a precision and a letter for the size of the argument, which says nothing, and ends in a
letter that says how the next argument is written. A star for a width or a precision takes it from the
arguments. Two percent signs stand for one. Every argument has to be used.

A mapping as the only argument may be used as a whole, once. Its entries have names, too: a name in
parentheses right after the percent sign makes the entry the next argument.
-/

namespace Reckoner

/-- An argument of a template. -/
inductive Argument where
  | text (s : String)
  | integer (n : Int)
  | real (x : Double)
  | truth (b : Bool)
  | nothing
  | value (v : Value)
  | list (items : List Argument)
  | mapping (entries : List (String × Argument))

namespace Argument

def kind : Argument → String
  | text _ => "str"
  | integer _ => "int"
  | real _ => "float"
  | truth _ => "bool"
  | nothing => "NoneType"
  | value _ => "Value"
  | list _ => "list"
  | mapping _ => "dict"

/-- The argument with texts in quotes, as `quote` puts them, and values with their orders. -/
def quotedBy (quote : String → String) : Argument → String
  | text s => quote s
  | integer n => toString n
  | real x => x.write .tagged
  | truth b => if b then "True" else "False"
  | nothing => "None"
  | value v => v.tagged
  | list items => "[" ++ ", ".intercalate (items.map (quotedBy quote)) ++ "]"
  | mapping entries =>
    "\x7b" ++ ", ".intercalate (entries.map fun e => quote e.1 ++ ": " ++ e.2.quotedBy quote) ++ "\x7d"
termination_by a => sizeOf a
decreasing_by
  · have := List.sizeOf_lt_of_mem (by assumption); simp only [list.sizeOf_spec]; omega
  · have := List.sizeOf_lt_of_mem (by assumption)
    cases e
    simp only [mapping.sizeOf_spec, Prod.mk.sizeOf_spec] at *
    omega

/-- The argument as it stands: texts and values are not marked, except in a list or a mapping. -/
def plain : Argument → String
  | text s => s
  | value v => v.shown
  | a => a.quotedBy Text.quoted

/-- The argument as an exact integer, if it is one. -/
def toInt? : Argument → Option Int
  | integer n => some n
  | truth b => some (if b then 1 else 0)
  | _ => none

/-- The integer part of the argument, if it is a number; a double may have none. -/
def whole? : Argument → Option (Except Misuse Int)
  | real x => some (Value.double x).toInt
  | value v => some v.toInt
  | a => a.toInt?.map .ok

/-- The argument as a double, if it is a number; an integer may be too large for one. -/
def real? : Argument → Option (Except Misuse Double)
  | real x => some (.ok x)
  | value v => some (.ok v.toDouble)
  | a => a.toInt?.map fun n =>
    match Double.ofInt? n with
    | some x => .ok x
    | none => .error .tooLargeForDouble

end Argument

/-- A directive of a template. -/
structure Directive where
  leftAligned : Bool
  zeroFilled : Bool
  plusSign : Bool
  blankSign : Bool
  alternate : Bool
  width : Nat
  precision : Option Nat
deriving DecidableEq

namespace Directive

/-- The text of a number: its sign, a mark of its base, and its digits. Zeros are filled in after the
mark, blanks around the whole. -/
def fillNumber (d : Directive) (negative : Bool) (mark digits : String) : String :=
  let sign := if negative then "-" else if d.plusSign then "+" else if d.blankSign then " " else ""
  let front := sign ++ mark
  let lacking := d.width - (front.length + digits.length)
  if d.leftAligned then front ++ digits ++ String.ofList (List.replicate lacking ' ')
  else if d.zeroFilled then front ++ Double.zeros lacking ++ digits
  else String.ofList (List.replicate lacking ' ') ++ front ++ digits

/-- The text of words, cut to the precision and brought to the width. -/
def fillText (d : Directive) (s : String) : String :=
  let cut := match d.precision with
    | some n => s.toList.take n
    | none => s.toList
  let lacking := List.replicate (d.width - cut.length) ' '
  String.ofList (if d.leftAligned then cut ++ lacking else lacking ++ cut)

/-- The greatest number of digits that an integer can be filled to, `2^31 - 4`. -/
def digitsLimit : Nat := 2147483644

/-- The text of an integer in a base; the precision is the least number of digits. -/
def fillInteger (d : Directive) (radix : Nat) (mark : String) (upper : Bool) (n : Int) :
    Except Misuse String :=
  let digits := Nat.toDigits radix n.natAbs
  let digits := if upper then digits.map Char.toUpper else digits
  let least := d.precision.getD 1
  if digitsLimit < least then .error .tooManyDigits
  else
    let filled := List.replicate (least - digits.length) '0' ++ digits
    .ok (d.fillNumber (n < 0) (if d.alternate then mark else "") (String.ofList filled))

/-- The text of a double by a way of writing finite magnitudes. The words for infinity and not-a-number
are filled like digits. -/
def fillReal (d : Directive) (upper : Bool) (write : Nat → String) (x : Double) : String :=
  let raise (s : String) : String := if upper then String.ofList (s.toList.map Char.toUpper) else s
  match x with
  | .nan => d.fillNumber false "" (raise "nan")
  | .ranked s r _ => d.fillNumber s "" (raise (if x.isFinite then write r else "inf"))

/-- The greatest precision, `2^31 - 1`. For numbers with an exponent it stands for no places. -/
def precisionLimit : Nat := 2147483647

/-- The text of an argument under a directive ending in a letter at a place of the template. -/
def apply (d : Directive) (letter : Char) (place : Nat) (a : Argument) : Except Misuse String :=
  let name := String.ofList [letter]
  let places := d.precision.getD 6
  let places := if places = precisionLimit && (letter = 'e' || letter = 'E') then 0 else places
  let integral (f : Int → Except Misuse String) : Except Misuse String :=
    match a.toInt? with
    | some n => f n
    | none => .error (.integerNeeded name a.kind)
  let real (upper : Bool) (write : Nat → String) : Except Misuse String :=
    match a.real? with
    | some number => number.map (d.fillReal upper write)
    | none => .error (.realNeeded a.kind)
  match letter with
  | 's' => .ok (d.fillText a.plain)
  | 'r' => .ok (d.fillText (a.quotedBy Text.quoted))
  | 'a' => .ok (d.fillText (a.quotedBy Text.quotedNarrowly))
  | 'd' | 'i' | 'u' =>
    match a.whole? with
    | some whole => whole.bind (d.fillInteger 10 "" false)
    | none => .error (.numberNeeded name a.kind)
  | 'o' => integral (d.fillInteger 8 "0o" false)
  | 'x' => integral (d.fillInteger 16 "0x" false)
  | 'X' => integral (d.fillInteger 16 "0X" true)
  | 'f' | 'F' => real (letter = 'F') (Double.fixedText d.alternate places)
  | 'e' | 'E' => real (letter = 'E') (Double.scientificText d.alternate places)
  | 'g' | 'G' => real (letter = 'G') (Double.generalText d.alternate (places - 1))
  | 'c' =>
    let d := { d with precision := none }
    match a with
    | .text s =>
      if s.length = 1 then .ok (d.fillText s) else .error .characterNeeded
    | _ =>
      match a.toInt? with
      | some n =>
        if 0 ≤ n ∧ n < 0x110000 then .ok (d.fillText (String.ofList [Text.character n.toNat]))
        else .error .characterRange
      | none => .error .characterNeeded
  | c => .error (.unknownDirective c place)

/-- The directive without flags, width and precision. -/
def plain : Directive := ⟨false, false, false, false, false, 0, none⟩

/-- The directive with one more flag, if the character is one. -/
def addFlag? (d : Directive) : Char → Option Directive
  | '-' => some { d with leftAligned := true }
  | '0' => some { d with zeroFilled := true }
  | '+' => some { d with plusSign := true }
  | ' ' => some { d with blankSign := true }
  | '#' => some { d with alternate := true }
  | _ => none

/-- Reads flags, and gives how many there are. -/
def readFlags (d : Directive) : List Char → Directive × Nat
  | [] => (d, 0)
  | c :: rest =>
    match d.addFlag? c with
    | some flagged =>
      let (all, n) := flagged.readFlags rest
      (all, n + 1)
    | none => (d, 0)

/-- The greatest width, `2^63 - 1`. -/
def widthLimit : Nat := 9223372036854775807

/-- Reads a number up to a limit, digits or a star that takes it from the arguments; one below zero may
be greater than the limit by one. Gives the number, if there is one, the length of its text and the
arguments that are left. -/
def readCount (limit : Nat) (beyondByDigits beyondByArgument : Misuse) (cs : List Char)
    (arguments : List Argument) : Except Misuse (Option Int × Nat × List Argument) :=
  match cs, arguments with
  | '*' :: _, [] => .error .missingArgument
  | '*' :: _, a :: others =>
    match a.toInt? with
    | some n =>
      if -limit - 1 ≤ n ∧ n ≤ limit then .ok (some n, 1, others) else .error beyondByArgument
    | none => .error .countNeeded
  | _, _ =>
    let digits := cs.takeWhile Text.isDigit
    let n := Numeral.valueOf 10 digits
    if limit < n then .error beyondByDigits
    else .ok (if digits.isEmpty then none else some n, digits.length, arguments)

/-- The length of a letter for the size of an argument. -/
def sizeLength : List Char → Nat
  | c :: _ => if c = 'h' ∨ c = 'l' ∨ c = 'L' then 1 else 0
  | [] => 0

/-- Reads a directive up to its last letter from the text after a percent sign. Gives its length and
the arguments that are left. A negative width aligns to the left, and the least one fills nothing; a
negative precision is zero. -/
def read (cs : List Char) (arguments : List Argument) :
    Except Misuse (Directive × Nat × List Argument) := do
  let (d, flags) := plain.readFlags cs
  let cs := cs.drop flags
  let (width, widthLength, arguments) ← readCount widthLimit .widthRange .tooWide cs arguments
  let least := width.getD 0
  let d := { d with
    width := if widthLimit < least.natAbs then 0 else least.natAbs
    leftAligned := d.leftAligned || least < 0 }
  match cs.drop widthLength with
  | '.' :: rest =>
    let (places, placesLength, arguments) ←
      readCount precisionLimit .precisionRange .tooPrecise rest arguments
    let length := flags + widthLength + 1 + placesLength + sizeLength (rest.drop placesLength)
    .ok ({ d with precision := some (places.getD 0).toNat }, length, arguments)
  | rest => .ok (d, flags + widthLength + sizeLength rest, arguments)

end Directive

/-- The entries of a mapping, by their names. -/
abbrev Named := List (String × Argument)

/-- The length of a name up to the parenthesis that closes it; `inner` more have to be closed before. -/
def nameLength (inner : Nat) : List Char → Option Nat
  | [] => none
  | c :: rest =>
    if c = ')' then
      if inner = 0 then some 0 else (nameLength (inner - 1) rest).map (· + 1)
    else (nameLength (if c = '(' then inner + 1 else inner) rest).map (· + 1)

/-- Reads a name in parentheses, if there is one. Gives the length of its text and the arguments that are
left, which are the entry of that name alone. -/
def readName (named : Option Named) (cs : List Char) (arguments : List Argument) :
    Except Misuse (Nat × List Argument) :=
  match cs, named with
  | '(' :: _, none => .error .namedArgument
  | '(' :: rest, some entries =>
    match nameLength 0 rest with
    | none => .error .unfinishedName
    | some n =>
      let name := String.ofList (rest.take n)
      match entries.lookup name with
      | some a => .ok (n + 2, [a])
      | none => .error (.missingName name)
  | _, _ => .ok (0, arguments)

/-- Fills a template from a place on with arguments, and with the entries of a mapping if there are
any. -/
def fillFrom (named : Option Named) (place : Nat) (cs : List Char) (arguments : List Argument) :
    Except Misuse (List Char) :=
  match cs with
  | [] => if arguments.isEmpty || named.isSome then .ok [] else .error .excessArgument
  | '%' :: '%' :: rest => (fillFrom named (place + 2) rest arguments).map ('%' :: ·)
  | '%' :: rest => do
    let (k, arguments) ← readName named rest arguments
    let (d, n, arguments) ← Directive.read (rest.drop k) arguments
    match rest.drop (k + n), arguments with
    | [], _ => .error .unfinishedDirective
    | _ :: _, [] => .error .missingArgument
    | letter :: _, a :: others =>
      let text ← d.apply letter (place + k + n + 1) a
      let more ← fillFrom named (place + k + n + 2) (rest.drop (k + n + 1)) others
      .ok (text.toList ++ more)
  | c :: rest => (fillFrom named (place + 1) rest arguments).map (c :: ·)
termination_by cs.length
decreasing_by
  all_goals (simp only [List.length_drop, List.length_cons]; omega)

/-- The entries of the arguments, if they are one mapping that has any. -/
def namedIn : List Argument → Option Named
  | [.mapping (entry :: others)] => some (entry :: others)
  | _ => none

/-- The message of a template; a template without arguments is its own message. -/
def fillTemplate (template : String) (arguments : List Argument) : Except Misuse String :=
  if arguments.isEmpty then .ok template
  else (fillFrom (namedIn arguments) 0 template.toList arguments).map String.ofList

end Reckoner
