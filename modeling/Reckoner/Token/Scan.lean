import Reckoner.Token.Basic
import Reckoner.Token.Number
import Reckoner.Text.Blank
import Reckoner.Text.Letter

/-!
# Reading tokens

`lexeme` finds the token at the beginning of a text, its kind and its length; `scan` walks the text,
passing over blanks, until it ends or no token begins. The walk gets shorter with every token because a
lexeme is never empty.
-/

namespace Reckoner

/-- The place of a character at which no token begins. -/
structure LexFault where
  place : Nat
deriving DecidableEq

namespace LexFault

def message (fault : LexFault) : String := "invalid token at index " ++ toString fault.place

end LexFault

namespace Token

/-- The spellings of operators, longer ones before their beginnings. -/
def operators : List String :=
  ["<<<", ">>>", "**", "//", "<<", ">>", "+", "-", "*", "/", "%", "&", "|", "^", "!"]

def operatorLength (cs : List Char) : Nat :=
  match operators.find? fun spelling => spelling.toList.isPrefixOf cs with
  | some spelling => spelling.length
  | none => 0

/-- May the character begin a name? -/
def beginsName (c : Char) : Bool := c = '_' || Text.isLetter c

/-- May the character go on with a name? -/
def continuesName (c : Char) : Bool := c = '_' || Text.isLetter c || Text.isNumeric c

/-- The length of a history reference after its first sign: digits, or further signs. -/
def referenceLength (cs : List Char) : Nat :=
  if Number.beginsWithDigit cs then (cs.takeWhile Text.isDigit).length
  else (cs.takeWhile (· = '@')).length

/-- The kind of the token at the beginning of a text and how many characters it has after the first. -/
def lexeme : List Char → Option (TokenKind × Nat)
  | [] => none
  | c :: rest =>
    if c = '(' then some (.opening, 0)
    else if c = ')' then some (.closing, 0)
    else if c = '@' then some (.history, referenceLength rest)
    else
      match Number.numberLength (c :: rest), operatorLength (c :: rest) with
      | n + 1, _ => some (.number, n)
      | 0, n + 1 => some (.operator, n)
      | 0, 0 =>
        if beginsName c then some (.name, (rest.takeWhile continuesName).length) else none

/-- The tokens of a text that begins at a given place of the source, the last one excepted. -/
def scanFrom (place : Nat) (cs : List Char) : Except LexFault (List Token) :=
  match cs with
  | [] => .ok []
  | c :: rest =>
    if Text.isBlank c then scanFrom (place + 1) rest
    else
      match lexeme (c :: rest) with
      | none => .error ⟨place⟩
      | some (kind, n) =>
        let token : Token :=
          ⟨kind, String.ofList (c :: rest.take n), place, place + (n + 1)⟩
        (scanFrom (place + (n + 1)) (rest.drop n)).map (token :: ·)
termination_by cs.length
decreasing_by
  · simp
  · simp only [List.length_drop, List.length_cons]; omega

/-- The tokens of a source, ending with the token of kind `finish`. -/
def scan (source : List Char) : Except LexFault (List Token) :=
  (scanFrom 0 source).map (· ++ [finishAt source.length])

end Token

end Reckoner
