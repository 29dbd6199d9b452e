import Reckoner.Order
import Reckoner.Token.Basic
import Reckoner.Numeral.Integer

/-!
# Faults

Whatever can go wrong is named by its cause. A `CalcError` is an answer of the calculator to an
expression that has no result: the caller sees its text and goes on. A `Misuse` breaks a promise of the
calling side, such as a wrong kind of operand, or meets a limit of number reading; it ends the call.
The wording of each cause is in its `message`.
-/

namespace Reckoner

/-- How a reference to an earlier result counts: back from the newest, or from the oldest. -/
inductive ReferenceKind where
  | relative
  | absolute
deriving DecidableEq

namespace ReferenceKind

def word : ReferenceKind → String
  | relative => "relative"
  | absolute => "absolute"

end ReferenceKind

/-- What the parser would have taken in the place of a token. -/
inductive Expectation where
  | kind (kind : TokenKind)
  | operator (spelling : String)
deriving DecidableEq

namespace Expectation

def word : Expectation → String
  | kind k => k.word
  | operator spelling => TokenKind.operator.word ++ "(" ++ spelling ++ ")"

end Expectation

/-- Why a text is no expression. -/
inductive SyntaxCause where
  | invalidToken
  | unexpectedEnd
  | unexpectedToken
  | extraToken
  | unknownName (name : String)
  | nestedTooDeeply
deriving DecidableEq

namespace SyntaxCause

def message : SyntaxCause → String
  | invalidToken => "invalid token"
  | unexpectedEnd => "unexpected EOF"
  | unexpectedToken => "unexpected token"
  | extraToken => "extra token"
  | unknownName name => "unknown name " ++ Text.quoted name
  | nestedTooDeeply => "expression nested too deeply"

end SyntaxCause

/-- A place where a text stops being an expression: the span of the offending token, what could have
stood there and what was found. -/
structure SyntaxFault where
  cause : SyntaxCause
  start : Nat
  stop : Nat
  expected : List Expectation
  found : Option String
deriving DecidableEq

namespace SyntaxFault

/-- One line with the cause, the span, the expectations and the find. -/
def message (f : SyntaxFault) : String :=
  let expected :=
    if f.expected.isEmpty then "" else "; expected " ++ ", ".intercalate (f.expected.map (·.word))
  let found := match f.found with
    | some text => "; found " ++ text
    | none => ""
  f.cause.message ++ " at span [" ++ toString f.start ++ ", " ++ toString f.stop ++ ")"
    ++ expected ++ found

/-- The line of carets under the span; an empty span gets one caret. -/
def carets (f : SyntaxFault) : String :=
  String.ofList (List.replicate f.start ' ' ++ List.replicate (max 1 (f.stop - f.start)) '^')

/-- The cause, the source line, and the carets under it. -/
def diagnostic (f : SyntaxFault) (source : String) : String :=
  f.cause.message ++ "\n" ++ source ++ "\n" ++ f.carets

end SyntaxFault

/-- Why an expression has no result. -/
inductive CalcError where
  | overflow
  | underflow
  | divisionByZero
  /-- An operation on integers met a double. -/
  | integerNeeded
  | outOfHistory (kind : ReferenceKind) (index : Int) (length : Nat)
  | unreadable (text : String) (radix : Option Int)
  | malformed (fault : SyntaxFault)
  | invalidFormat (text : String)
  | doubleInBase (shown : String) (base : Nat)
  /-- The tree is too deep to be evaluated. -/
  | tooDeep
deriving DecidableEq

namespace CalcError

def message : CalcError → String
  | overflow => "overflow"
  | underflow => "underflow"
  | divisionByZero => "attempt to divide by 0"
  | integerNeeded =>
    "attempted to perform an operation which only makes sense for integers, "
      ++ "but value is currently a float"
  | outOfHistory kind index length =>
    kind.word ++ " history index " ++ toString index ++ " out of bounds: [0.."
      ++ toString length ++ ")"
  | unreadable text radix =>
    "\"" ++ text ++ "\" cannot be parsed as Value" ++ match radix with
      | some r => " given radix " ++ toString r
      | none => ""
  | malformed fault => fault.message
  | invalidFormat text => "invalid output format " ++ Text.quoted text
  | doubleInBase shown base => "cannot render float " ++ shown ++ " in base " ++ toString base
  | tooDeep => "expression nested too deeply"

/-- What a user is shown of an error in a line: carets under the offending token, or the message. -/
def describe (source : String) : CalcError → String
  | malformed fault => fault.diagnostic source
  | e => e.message

end CalcError

/-- How a call breaks a promise or meets a limit. -/
inductive Misuse where
  | doesNotFit (n : Int) (order : IntOrder)
  | integersOnly (order : IntOrder) (kind : String)
  | truthOperand
  | foreignOperand (kind : String)
  | uncomparable (operator left right : String)
  | unsupported (operator left right : String)
  | integralOnly
  | tooLargeForDouble
  | integerOfNaN
  | integerOfInfinity
  | numeral (cause : Numeral.Unreadable)
  | valuelessReal (text : String)
  | tooWide
  | foreignNode (kind : String)
  | missingArgument
  | excessArgument
  | numberNeeded (directive kind : String)
  | integerNeeded (directive kind : String)
  | realNeeded (kind : String)
  | characterNeeded
  | characterRange
  | unknownDirective (directive : Char) (place : Nat)
  | unfinishedDirective
  /-- A width or a precision taken from an argument that is no integer. -/
  | countNeeded
  /-- A width beyond all that can be filled. -/
  | widthRange
  /-- A precision beyond all that can be written. -/
  | precisionRange
  /-- The same, taken from an argument. -/
  | tooPrecise
  /-- A directive that names its argument where arguments have no names. -/
  | namedArgument
  | unfinishedName
  | missingName (name : String)
  | yearOutOfRange (year : Int)
  /-- An option for the format has nothing for its argument. -/
  | nothingForFormat
  /-- An option for the level has nothing for its argument. -/
  | nothingForLevel
  /-- The name of a level stands for the layout of lines. -/
  | layoutForLevel
  /-- The name of a level stands for the table of layouts. -/
  | layoutsForLevel
  /-- An integer cannot be written with so many digits. -/
  | tooManyDigits
  | instantOfNaN
  /-- An instant is beyond the seconds of the clock. -/
  | clockRange
  /-- An instant is beyond the years of the calendar. -/
  | calendarRange
deriving DecidableEq

namespace Misuse

/-- The plain layout of a line. -/
def plainLayout : String := "%(levelname)s:%(name)s:%(message)s"

/-- The layouts of a line: the mark of a field, the name of the style, and the plain layout in it. -/
def layouts : List (String × String × String) :=
  [("%", "PercentStyle", plainLayout),
    ("\x7b", "StrFormatStyle", "\x7blevelname\x7d:\x7bname\x7d:\x7bmessage\x7d"),
    ("$", "StringTemplateStyle", "$\x7blevelname\x7d:$\x7bname\x7d:$\x7bmessage\x7d")]

/-- The code point of a character in hexadecimal. -/
def code (c : Char) : String := String.ofList (Nat.toDigits 16 c.toNat)

def message : Misuse → String
  | doesNotFit n order => toString n ++ " does not fit in " ++ order.name
  | integersOnly order kind => order.name ++ " values hold integers, got " ++ kind
  | truthOperand => "bool is not a numeric Value"
  | foreignOperand kind => "cannot use " ++ kind ++ " as a Value"
  | uncomparable operator left right =>
    "'" ++ operator ++ "' not supported between instances of '" ++ left ++ "' and '" ++ right ++ "'"
  | unsupported operator left right =>
    "unsupported operand type(s) for " ++ operator ++ ": '" ++ left ++ "' and '" ++ right ++ "'"
  | integralOnly => "only integral values may be demoted"
  | tooLargeForDouble => "int too large to convert to float"
  | integerOfNaN => "cannot convert float NaN to integer"
  | integerOfInfinity => "cannot convert float infinity to integer"
  | numeral .radix => "int() base must be >= 2 and <= 36, or 0"
  | numeral (.length digits) =>
    "Exceeds the limit (" ++ toString Numeral.digitLimit
      ++ " digits) for integer string conversion: value has " ++ toString digits
      ++ " digits; use sys.set_int_max_str_digits() to increase the limit"
  | numeral (.character text radix) =>
    "invalid literal for int() with base " ++ toString radix ++ ": "
      ++ String.ofList ((Text.quoted text).toList.take 200)
  | valuelessReal text => "could not convert string to float: " ++ Text.quoted text
  | tooWide => "Python int too large to convert to C ssize_t"
  | foreignNode kind => "Unsupported expression node " ++ kind
  | missingArgument => "not enough arguments for format string"
  | excessArgument => "not all arguments converted during string formatting"
  | numberNeeded directive kind =>
    "%" ++ directive ++ " format: a real number is required, not " ++ kind
  | integerNeeded directive kind =>
    "%" ++ directive ++ " format: an integer is required, not " ++ kind
  | realNeeded kind => "must be real number, not " ++ kind
  | characterNeeded => "%c requires int or char"
  | characterRange => "%c arg not in range(0x110000)"
  | unknownDirective directive place =>
    let shown := if 31 ≤ directive.toNat ∧ directive.toNat ≤ 126 then directive else '?'
    "unsupported format character '" ++ String.ofList [shown] ++ "' (0x" ++ code directive
      ++ ") at index " ++ toString place
  | unfinishedDirective => "incomplete format"
  | countNeeded => "* wants int"
  | widthRange => "width too big"
  | precisionRange => "precision too big"
  | tooPrecise => "Python int too large to convert to C int"
  | namedArgument => "format requires a mapping"
  | unfinishedName => "incomplete format key"
  | missingName name => Text.quoted name
  | nothingForFormat => "'list' object has no attribute 'strip'"
  | nothingForLevel => "'list' object has no attribute 'upper'"
  | layoutForLevel => "Unknown level: " ++ Text.quoted plainLayout
  | layoutsForLevel =>
    "Level not an integer or a valid string: \x7b" ++ ", ".intercalate (layouts.map
      fun (mark, style, layout) =>
        Text.quoted mark ++ ": (<class 'logging." ++ style ++ "'>, " ++ Text.quoted layout ++ ")")
      ++ "\x7d"
  | tooManyDigits => "precision too large"
  | instantOfNaN => "Invalid value NaN (not a number)"
  | clockRange => "timestamp out of range for platform time_t"
  | calendarRange => "[Errno 75] Value too large for defined data type"
  | yearOutOfRange year => "year " ++ toString year ++ " is out of range"

end Misuse

/-- What ends a call without a result. -/
inductive Fault where
  | calculation (error : CalcError)
  | misuse (misuse : Misuse)
deriving DecidableEq

/-- The kinds of fault that a caller tells apart: the errors of the calculator, and each misuse on its
own. -/
inductive FaultKind where
  /-- Integer arithmetic left all orders that hold its result, or divided by zero. -/
  | arithmetic
  | integerNeeded
  | outOfHistory
  | unreadable
  | malformed
  | format
  | nesting
  | misuse (misuse : Misuse)
deriving DecidableEq

namespace Fault

def message : Fault → String
  | calculation e => e.message
  | misuse m => m.message

def kind : Fault → FaultKind
  | calculation .overflow | calculation .underflow | calculation .divisionByZero => .arithmetic
  | calculation .integerNeeded => .integerNeeded
  | calculation (.outOfHistory ..) => .outOfHistory
  | calculation (.unreadable ..) => .unreadable
  | calculation (.malformed _) => .malformed
  | calculation (.invalidFormat _) | calculation (.doubleInBase ..) => .format
  | calculation .tooDeep => .nesting
  | misuse m => .misuse m

end Fault

end Reckoner
