import Reckoner.Value.Comparison

/-!
# Arithmetic

Sums, differences, products, powers, negation and magnitude are computed exactly at the order at which
their operands meet. Where the result does not fit, one operand is promoted and the operation is tried
again; at doubles it always succeeds. The orders that were too narrow are reported along with the
result. Division leads to doubles; division by an integer zero is refused.
-/

namespace Reckoner

namespace Value

/-- The result of an operation that climbs the orders, with the orders that were too narrow for it. -/
structure Ascent where
  result : Value
  overflowed : List IntOrder
deriving DecidableEq

/-- Climbs with two operands until `exact` fits, or applies `rounded` to doubles. -/
def climb (exact : Int → Int → Int) (rounded : Double → Double → Double) (a b : Value) : Ascent :=
  match _met : a.matchOrders b with
  | .doubles x y => ⟨.double (rounded x y), []⟩
  | .ints o m n hm hn =>
    if h : o.Fits (exact m n) then ⟨.int o (exact m n) h, []⟩
    else
      let higher := climb exact rounded (promote (.int o m hm)) (.int o n hn)
      { higher with overflowed := o :: higher.overflowed }
termination_by 4 - (a.matchOrders b).order.rank
decreasing_by
  have rise := rank_lt_promote o m hm
  have kept := rank_le_matchOrders (promote (.int o m hm)) (.int o n hn)
  have := o.rank_lt_four
  rw [_met]
  simp only [Matched.order_ints, Order.rank_integer]
  omega

/-- Climbs with one operand until `exact` fits, or applies `rounded` to a double. -/
def climbAlone (exact : Int → Int) (rounded : Double → Double) : Value → Value
  | .double x => .double (rounded x)
  | .int o n h =>
    if fits : o.Fits (exact n) then .int o (exact n) fits
    else climbAlone exact rounded (promote (.int o n h))
termination_by v => 4 - v.order.rank
decreasing_by
  have := rank_lt_promote o n h
  have := o.rank_lt_four
  simp only [order_int, Order.rank_integer]
  omega

def add (a b : Value) : Ascent := climb (· + ·) (· + ·) a b

/-- The difference. A left operand below the right one is given a sign first. -/
def sub (a b : Value) : Ascent :=
  climb (· - ·) (· - ·) (if b.compare a == .gt then a.promoteToSigned else a) b

def mul (a b : Value) : Ascent := climb (· * ·) (· * ·) a b

/-- The negation, at a signed order or as a double. -/
def neg (a : Value) : Value := climbAlone (- ·) Double.neg a.promoteToSigned

/-- The magnitude, at the value's own order where it fits. -/
def abs (a : Value) : Value := climbAlone (fun n => n.natAbs) Double.abs a

/-- The quotient as a double. -/
def div (a b : Value) : Except Fault Value :=
  match a.matchOrders b with
  | .ints _ m n _ _ =>
    if n = 0 then .error (.calculation .divisionByZero)
    else .ok (.double (.ofInt m / .ofInt n))
  | .doubles x y => .ok (.double (x / y))

/-- The quotient rounded down to an integer. -/
def floorDiv (a b : Value) : Except Fault Value := do
  let quotient ← a.div b
  demote (.double quotient.toDouble.floor)

/-- The remainder of truncated division, with the sign of the dividend. -/
def rem (a b : Value) : Except Fault Value :=
  match a.matchOrders b with
  | .ints o m n _ _ =>
    if n = 0 then .error (.calculation .divisionByZero) else make o (Int.tmod m n)
  | .doubles x y => .ok (.double (x.rem y))

/-! ### Powers -/

/-- Is a power certainly too wide for an order? The logarithm bounds its width from below, so that no
power much wider than the order is ever computed. -/
def isTooWide (order : IntOrder) (base : Int) (exponent : Nat) : Bool :=
  1 < base.natAbs && order.width ≤ base.natAbs.log2 * exponent

/-- The power of an integer, if the order holds it. -/
def powerWithin? (order : IntOrder) (base : Int) (exponent : Nat) : Option Int :=
  if isTooWide order base exponent then none
  else if order.Fits (Int.pow base exponent) then some (Int.pow base exponent) else none

theorem fits_of_powerWithin? {o : IntOrder} {m r : Int} {k : Nat} (h : powerWithin? o m k = some r) :
    o.Fits r := by
  unfold powerWithin? at h
  split at h
  · exact absurd h (by simp)
  · split at h
    · next fits => exact Option.some.inj h ▸ fits
    · exact absurd h (by simp)

/-- Climbs with the base of a power until the power fits, or computes it with doubles. -/
def climbPower (exponent : Nat) : Value → Ascent
  | .double x => ⟨.double (x.pow (.ofInt exponent)), []⟩
  | .int o m hm =>
    match h : powerWithin? o m exponent with
    | some r => ⟨.int o r (fits_of_powerWithin? h), []⟩
    | none =>
      let higher := climbPower exponent (promote (.int o m hm))
      { higher with overflowed := o :: higher.overflowed }
termination_by v => 4 - v.order.rank
decreasing_by
  have := rank_lt_promote o m hm
  have := o.rank_lt_four
  simp only [order_int, Order.rank_integer]
  omega

/-- The power. An integer base takes a count as its exponent. -/
def pow (a b : Value) : Except Fault Ascent :=
  match a.matchOrders b with
  | .doubles x y => .ok ⟨.double (x.pow y), []⟩
  | .ints o m n hm hn => do
    let exponent ← count (.int o n hn)
    .ok (climbPower exponent (.int o m hm))

end Value

end Reckoner
