import Reckoner.Double.Basic

/-!
# Rounding to the nearest double

A non-negative quantity given as a quotient `n / d` of units is rounded once, to the nearest double,
a tie going to the even significand. Everything that produces a double from exact data (integers,
sums, products, quotients, decimal text) passes through `ofRatio` or `ofUnits`.
-/

namespace Reckoner

namespace Double

/-- `n / d` rounded to the nearest natural number, a tie to the even one. -/
def halfEven (n d : Nat) : Nat :=
  let q := n / d
  match compare (2 * (n % d)) d with
  | .lt => q
  | .eq => q + q % 2
  | .gt => q + 1

/-- The rank of the double nearest to `n / d` units. The significand keeps 53 binary digits; when it
rounds up to `2^53` the sum still names the next rank. -/
def nearestRank (n d : Nat) : Nat :=
  let s := (n / d).log2 - 52
  min infinityRank (s * binade + halfEven n (d * Nat.pow 2 s))

/-- The double nearest to `n / d` units, with the given sign. -/
def ofRatio (negative : Bool) (n d : Nat) : Double :=
  .ranked negative (nearestRank n d) (Nat.min_le_left ..)

/-- The double nearest to a whole number of units; zero comes out positive. -/
def ofUnits (u : Int) : Double :=
  ofRatio (u < 0) u.natAbs 1

/-- The double nearest to an integer. -/
def ofInt (n : Int) : Double :=
  ofUnits (n * one)

/-- The double nearest to an integer, if that is finite. -/
def ofInt? (n : Int) : Option Double :=
  if (ofInt n).isFinite then some (ofInt n) else none

end Double

end Reckoner
