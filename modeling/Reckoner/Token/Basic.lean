/-!
# Tokens

A token is a kind, the text it was read from and the span of that text, counted in characters from the
start of the source. Every token list ends with the one token of kind `finish`, which is empty.
-/

namespace Reckoner

inductive TokenKind where
  | number
  | history
  | operator
  | name
  | opening
  | closing
  | finish
deriving DecidableEq

namespace TokenKind

/-- The word for a kind in messages. -/
def word : TokenKind → String
  | number => "NUMBER"
  | history => "HISTORY"
  | operator => "OP"
  | name => "NAME"
  | opening => "LPAREN"
  | closing => "RPAREN"
  | finish => "EOF"

end TokenKind

structure Token where
  kind : TokenKind
  text : String
  start : Nat
  stop : Nat
deriving DecidableEq

namespace Token

/-- The token that ends every list, at the end of a source of `length` characters. -/
def finishAt (length : Nat) : Token := ⟨.finish, "", length, length⟩

/-- The token as messages show it: its kind and, unless the source has ended, its text. -/
def shown (t : Token) : String :=
  if t.kind = .finish then t.kind.word else t.kind.word ++ "(" ++ t.text ++ ")"

end Token

end Reckoner
