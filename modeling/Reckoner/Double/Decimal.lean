import Reckoner.Double.Rounding

/-!
# Doubles of decimal numbers

`ofDecimal` rounds `m * 10^e` once to the nearest double. Powers of ten that are certainly beyond the
finite range, or certainly below half the least subnormal, are answered without being computed.
-/

namespace Reckoner

namespace Double

/-- Greatest decimal exponent worth computing: `10^310` is above every finite double. -/
def decimalCeiling : Int := 310

/-- The double nearest to `m * 10^e`, with the given sign. -/
def ofDecimal (negative : Bool) (m : Nat) (e : Int) : Double :=
  if m = 0 then zero negative
  else if decimalCeiling < e then infinity negative
  else if e < -(m.log2 + 400) then zero negative
  else if 0 ≤ e then ofRatio negative (m * Nat.pow 10 e.toNat * one) 1
  else ofRatio negative (m * one) (Nat.pow 10 (-e).toNat)

end Double

end Reckoner
