import Reckoner.Double.Rounding

/-!
# Arithmetic on doubles

Each operation computes its exact result in units and rounds it once. The special cases are those of
the standard for binary floating point: an operation without a meaningful result gives not-a-number,
and signs of zeros and infinities follow the operands.
-/

namespace Reckoner

namespace Double

/-- A signed magnitude as an integer. -/
def signed (negative : Bool) (magnitude : Nat) : Int :=
  if negative then -magnitude else magnitude

/-- The sum. Opposite infinities have none; a zero sum is negative only if both terms are. -/
protected def add : Double → Double → Double
  | .nan, _ => .nan
  | .ranked .., .nan => .nan
  | .ranked s r hr, .ranked t q hq =>
    if r = infinityRank then
      if q = infinityRank ∧ s ≠ t then .nan else .ranked s r hr
    else if q = infinityRank then .ranked t q hq
    else
      let total := signed s (units r) + signed t (units q)
      if total = 0 then zero (s && t) else ofUnits total

protected def sub (x y : Double) : Double := x.add y.neg

/-- The product. Zero times infinity has none. -/
protected def mul : Double → Double → Double
  | .nan, _ => .nan
  | .ranked .., .nan => .nan
  | .ranked s r _, .ranked t q _ =>
    if r = infinityRank ∨ q = infinityRank then
      if r = 0 ∨ q = 0 then .nan else infinity (s ^^ t)
    else ofRatio (s ^^ t) (units r * units q) one

/-- The quotient. Zero by zero and infinity by infinity have none; anything else by zero is infinite. -/
protected def div : Double → Double → Double
  | .nan, _ => .nan
  | .ranked .., .nan => .nan
  | .ranked s r _, .ranked t q _ =>
    if r = infinityRank then
      if q = infinityRank then .nan else infinity (s ^^ t)
    else if q = infinityRank then zero (s ^^ t)
    else if q = 0 then
      if r = 0 then .nan else infinity (s ^^ t)
    else ofRatio (s ^^ t) (units r * one) (units q)

instance : Add Double := ⟨Double.add⟩
instance : Sub Double := ⟨Double.sub⟩
instance : Mul Double := ⟨Double.mul⟩
instance : Div Double := ⟨Double.div⟩

/-- The remainder of truncated division, exact, with the sign of the dividend. -/
def rem : Double → Double → Double
  | .nan, _ => .nan
  | .ranked .., .nan => .nan
  | .ranked s r hr, .ranked _ q _ =>
    if r = infinityRank ∨ q = 0 then .nan
    else if q = infinityRank then .ranked s r hr
    else ofRatio s (units r % units q) 1

/-! ### Rounding to integers

A finite double is a whole part of `units r / one` and a rest of `units r % one`; each of the four
roundings keeps the whole part or adds one to it, and keeps the sign. -/

/-- Rounds the magnitude to the whole part, or one more where `up` says so of sign and rest. -/
def roundWhole (up : Bool → Nat → Bool) : Double → Double
  | .nan => .nan
  | .ranked s r hr =>
    if r = infinityRank then .ranked s r hr
    else
      let whole := units r / one
      ofRatio s ((if up s (units r % one) then whole + 1 else whole) * one) 1

/-- The greatest integer that is not above the double. -/
def floor : Double → Double := roundWhole fun s rest => s && rest ≠ 0

/-- The least integer that is not below the double. -/
def ceil : Double → Double := roundWhole fun s rest => !s && rest ≠ 0

/-- The nearest integer, a half going away from zero. -/
def round : Double → Double := roundWhole fun _ rest => one ≤ 2 * rest

/-- The integer part of a finite double, toward zero. -/
def truncated : Double → Int
  | .nan => 0
  | .ranked s r _ => signed s (units r / one)

/-- The part of a finite double after the point, in units. -/
def fraction : Double → Nat
  | .nan => 0
  | .ranked _ r _ => units r % one

/-- Is the double a finite integer? -/
def isIntegral (x : Double) : Bool := x.isFinite && x.fraction = 0

end Double

end Reckoner
