import Reckoner.Text.Printable

/-!
# Quoted text

Messages and journal lines show text between quotes: single ones, unless the text holds a single quote
and no double one. The quote in use and the backslash are escaped by a backslash, line feeds, returns
and tabs by their letters, and whatever does not show in print by its code point in hexadecimal. In
narrow texts nothing shows but the printable characters below 128.
-/

namespace Reckoner

namespace Text

/-- The code point in lower-case hexadecimal, filled with zeros to `width` digits. -/
def hexCode (width n : Nat) : List Char :=
  let digits := Nat.toDigits 16 n
  List.replicate (width - digits.length) '0' ++ digits

/-- How a character stands between quotes, given which characters show. -/
def quotedChar (shows : Char → Bool) (quote c : Char) : List Char :=
  if c = '\\' ∨ c = quote then ['\\', c]
  else if c = '\n' then ['\\', 'n']
  else if c = '\r' then ['\\', 'r']
  else if c = '\t' then ['\\', 't']
  else if shows c then [c]
  else if c.toNat < 0x100 then '\\' :: 'x' :: hexCode 2 c.toNat
  else if c.toNat < 0x10000 then '\\' :: 'u' :: hexCode 4 c.toNat
  else '\\' :: 'U' :: hexCode 8 c.toNat

/-- The quote that surrounds a text. -/
def quoteFor (cs : List Char) : Char :=
  if cs.contains '\x27' && !cs.contains '\x22' then '\x22' else '\x27'

/-- The text between quotes, given which characters show. -/
def quotedBy (shows : Char → Bool) (s : String) : String :=
  let quote := quoteFor s.toList
  String.ofList (quote :: s.toList.flatMap (quotedChar shows quote) ++ [quote])

/-- The text between quotes. -/
def quoted (s : String) : String := quotedBy isPrintable s

/-- The text between quotes, in characters below 128 only. -/
def quotedNarrowly (s : String) : String := quotedBy (fun c => isPrintable c && c.toNat < 128) s

end Text

end Reckoner
