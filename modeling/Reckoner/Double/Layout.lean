import Reckoner.Double.Digits

/-!
# Written forms of doubles

A `Layout` holds the decisions of a written form: which numbers are written positionally, what is
appended to a whole number, and the words for not-a-number and infinity. Two forms are in use: the
plain one in which results are shown, always positional, and the tagged one of the journal, which
turns to an exponent from `10^16` on and below `10^-4`.
-/

namespace Reckoner

namespace Double

/-- The decisions of a written form. `positional` says of the place of the decimal point whether the
digits are laid out around it; otherwise an exponent of at least two digits follows. -/
structure Layout where
  positional : Int → Bool
  wholeMark : String
  nanWord : String

/-- Results are shown without an exponent and without a point after a whole number. -/
def Layout.plain : Layout := ⟨fun _ => true, "", "NaN"⟩

/-- The journal shows from five places after the point on, and from seventeen digits before it on,
an exponent, and marks whole numbers by a zero after the point. -/
def Layout.tagged : Layout := ⟨fun point => -4 < point && point ≤ 16, ".0", "nan"⟩

/-- A text of `n` zeros. -/
def zeros (n : Nat) : String := String.ofList (List.replicate n '0')

/-- Digits laid out around the decimal point, whole numbers with the mark appended. -/
def positionalText (mark : String) (digits : List Char) (point : Int) : String :=
  if point ≤ 0 then
    "0." ++ zeros (-point).toNat ++ String.ofList digits
  else if digits.length ≤ point.toNat then
    String.ofList digits ++ zeros (point.toNat - digits.length) ++ mark
  else
    String.ofList (digits.take point.toNat) ++ "." ++ String.ofList (digits.drop point.toNat)

/-- An exponent with its sign and at least two digits. -/
def exponentText (e : Int) : String :=
  let magnitude := toString e.natAbs
  (if e < 0 then "-" else "+") ++ (if magnitude.length < 2 then "0" else "") ++ magnitude

/-- One digit before the point, the others after it, and the exponent. -/
def exponentialText (digits : List Char) (point : Int) : String :=
  let rest := digits.drop 1
  String.ofList (digits.take 1) ++ (if rest.isEmpty then "" else "." ++ String.ofList rest)
    ++ "e" ++ exponentText (point - 1)

/-- The text of a magnitude. -/
def magnitudeText (layout : Layout) (rank : Nat) : String :=
  if rank = infinityRank then "inf"
  else if rank = 0 then positionalText layout.wholeMark ['0'] 1
  else
    let decimal := shortest rank
    let digits := Nat.toDigits 10 decimal.coefficient
    let point : Int := digits.length + decimal.exponent
    if layout.positional point then positionalText layout.wholeMark digits point
    else exponentialText digits point

/-- The text of a double in a written form. -/
def write (layout : Layout) : Double → String
  | .nan => layout.nanWord
  | .ranked negative rank _ => (if negative then "-" else "") ++ magnitudeText layout rank

end Double

end Reckoner
