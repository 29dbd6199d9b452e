import Reckoner.Double.Layout
import Reckoner.Double.Rounding

/-!
# Doubles to a number of places

A magnitude is rounded once, from its exact value and a tie to the even digit, either to a number of
places after the point or to a number of significant digits. A full text has a point even if no places
follow it, and keeps the zeros at the end of its places.
-/

namespace Reckoner

namespace Double

/-- The magnitude of a finite rank times `10^k`, rounded to a natural number. -/
def scaledWhole (rank : Nat) (k : Int) : Nat :=
  let (n, d) := Decimal.ratio (units rank) k
  halfEven n (d * one)

/-- Digits with a point before the last `places` of them. -/
def pointBefore (full : Bool) (places : Nat) (digits : List Char) : String :=
  let filled := List.replicate (places + 1 - digits.length) '0' ++ digits
  let whole := filled.take (filled.length - places)
  String.ofList whole
    ++ if places = 0 && !full then "" else "." ++ String.ofList (filled.drop (filled.length - places))

/-- More digits than any finite double has that is written out exactly. Digits beyond them are
zeros. -/
def mostDigits : Nat := 1100

/-- A finite magnitude with a number of places after the point. -/
def fixedText (full : Bool) (places rank : Nat) : String :=
  let shown := min places mostDigits
  pointBefore full shown (Nat.toDigits 10 (scaledWhole rank shown)) ++ zeros (places - shown)

/-- A finite magnitude to `n + 1` significant digits: the digits and the exponent of the first one. -/
def significantDigits (n rank : Nat) : List Char × Int :=
  if rank = 0 then (List.replicate (n + 1) '0', 0)
  else
    let point := decimalPoint rank
    let digits := Nat.toDigits 10 (scaledWhole rank (n + 1 - point))
    (digits.take (n + 1), point - 1 + (digits.length - (n + 1)))

/-- A finite magnitude as one digit, `places` digits after the point, and an exponent. -/
def scientificText (full : Bool) (places rank : Nat) : String :=
  let shown := min places mostDigits
  let (digits, exponent) := significantDigits shown rank
  pointBefore full shown digits ++ zeros (places - shown) ++ "e" ++ exponentText exponent

/-- Drops zeros at the end of the places, and the point if nothing is left after it. -/
def dropPlaces (text : String) : String :=
  if text.toList.contains '.' then
    let kept := text.toList.reverse.dropWhile (· = '0')
    String.ofList (if kept.head? = some '.' then kept.drop 1 else kept).reverse
  else text

/-- A finite magnitude to `n + 1` significant digits, with an exponent if it is below `10^-4` or has
more than `n + 1` digits before the point. Unless the text is full, zeros at the end of the places are
dropped. -/
def generalText (full : Bool) (n rank : Nat) : String :=
  let shown := min n mostDigits
  let (digits, exponent) := significantDigits shown rank
  let finish (text : String) : String := if full then text ++ zeros (n - shown) else dropPlaces text
  if exponent < -4 ∨ (shown : Int) < exponent then
    finish (pointBefore full shown digits) ++ "e" ++ exponentText exponent
  else
    finish (pointBefore full (shown - exponent).toNat digits)

end Double

end Reckoner
