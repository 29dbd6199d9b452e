import Reckoner.Double.Basic

/-!
# The fewest digits that identify a double

The reals that round to a finite double form an interval around it, from halfway to the neighbour below
to halfway to the neighbour above, with its ends exactly when the rank is even. `shortest` finds the
decimal number with the fewest digits in that interval, and of those the one nearest to the double:
for `n = 1, 2, …` it tests the two neighbours of the double among the numbers of `n` digits.
-/

namespace Reckoner

/-- The decimal number `coefficient * 10^exponent`. -/
structure Decimal where
  coefficient : Nat
  exponent : Int
deriving DecidableEq

namespace Decimal

/-- The same number with no trailing zero in the coefficient. -/
def strip (d : Decimal) : Decimal :=
  if d.coefficient ≠ 0 ∧ d.coefficient % 10 = 0 then
    strip { coefficient := d.coefficient / 10, exponent := d.exponent + 1 }
  else d
termination_by d.coefficient
decreasing_by omega

/-- `n * 10^k` as a quotient of naturals. -/
def ratio (n : Nat) (k : Int) : Nat × Nat :=
  if 0 ≤ k then (n * Nat.pow 10 k.toNat, 1) else (n, Nat.pow 10 (-k).toNat)

end Decimal

namespace Double

/-- Does `c * 10^k` round to the double of positive finite rank `r`? -/
def identifies (r c : Nat) (k : Int) : Bool :=
  let (n, d) := Decimal.ratio (2 * one * c) k
  let low := (units (r - 1) + units r) * d
  let high := (units r + units (r + 1)) * d
  if r % 2 = 0 then low ≤ n && n ≤ high else low < n && n < high

/-- Is the magnitude of rank `r` below `10^k`? -/
def isBelowPower (r : Nat) (k : Int) : Bool :=
  let (n, d) := Decimal.ratio one k
  units r * d < n

/-- The place of the decimal point: `k` with `10^(k-1) ≤ x < 10^k`. The binary exponent gives a
first candidate that is too low by a step or two. -/
def decimalPoint (r : Nat) : Int :=
  let binary : Int := (units r).log2 - 1074
  let start := Int.fdiv (binary * 30103) 100000
  ([start, start + 1, start + 2].find? (isBelowPower r)).getD (start + 3)

/-- Of the neighbours of rank `r` among the multiples of `10^k`, the nearer one that identifies it;
a tie goes to the even one. -/
def onGrid (r : Nat) (k : Int) : Option Decimal :=
  let (n, d) := Decimal.ratio (units r) (-k)
  let below := n / (d * one)
  let rest := n % (d * one)
  let chosen :=
    match identifies r below k, identifies r (below + 1) k with
    | true, false => some below
    | false, true => some (below + 1)
    | false, false => none
    | true, true =>
      match compare (2 * rest) (d * one) with
      | .lt => some below
      | .gt => some (below + 1)
      | .eq => some (below + below % 2)
  chosen.map fun c => { coefficient := c, exponent := k }

/-- The fewest digits that identify the double of positive finite rank `r`. Seventeen always suffice;
the exact value stands by for the case that none was found. -/
def shortest (r : Nat) : Decimal :=
  let point := decimalPoint r
  let found := (List.range 17).findSome? fun (n : Nat) => onGrid r (point - (n + 1))
  (found.getD { coefficient := units r * Nat.pow 5 1074, exponent := -1074 }).strip

end Double

end Reckoner
