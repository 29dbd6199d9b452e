import Reckoner.Value.Basic

/-!
# Promotion

`promote` moves a value one step up the orders. The step from unsigned integers of 128 bits depends on
the value: it leads to the next order that holds it. The step from signed integers of 128 bits leads to
doubles and may round. `matchOrders` promotes the lower of two values until both are at one order;
`demote` goes back down to the first integer order that holds an integral value.
-/

namespace Reckoner

namespace Value

/-- One step up. -/
def promote : Value → Value
  | .int .u64 n h =>
    .int .u128 n ⟨h.1, Int.le_trans h.2 (by decide)⟩
  | .int .u128 n h =>
    if h64 : n ≤ IntOrder.i64.high then
      .int .i64 n ⟨Int.le_trans (by decide) h.1, h64⟩
    else if h128 : n ≤ IntOrder.i128.high then
      .int .i128 n ⟨Int.le_trans (by decide) h.1, h128⟩
    else .double (.ofInt n)
  | .int .i64 n h =>
    .int .i128 n ⟨Int.le_trans (by decide) h.1, Int.le_trans h.2 (by decide)⟩
  | .int .i128 n _ => .double (.ofInt n)
  | .double x => .double x

/-- Promotion leaves an integer order for a higher one. -/
theorem rank_lt_promote (o : IntOrder) (n : Int) (h : o.Fits n) :
    o.rank < (int o n h).promote.order.rank := by
  cases o with
  | u64 => exact Nat.lt_succ_self 0
  | u128 =>
    simp only [promote]
    split
    · exact (by decide : (1 : Nat) < 2)
    · split
      · exact (by decide : (1 : Nat) < 3)
      · exact (by decide : (1 : Nat) < 4)
  | i64 => exact Nat.lt_succ_self 2
  | i128 => exact Nat.lt_succ_self 3

/-- An unsigned value moves up until its order has a sign. -/
def promoteToSigned : Value → Value
  | .int .u64 n h => (promote (.int .u64 n h)).promote
  | .int .u128 n h => promote (.int .u128 n h)
  | v => v

def promoteToDouble (v : Value) : Value := .double v.toDouble

/-- Two values at one order. -/
inductive Matched where
  | ints (order : IntOrder) (m n : Int) (fitsLeft : order.Fits m) (fitsRight : order.Fits n)
  | doubles (x y : Double)

namespace Matched

def order : Matched → Order
  | .ints o .. => .integer o
  | .doubles .. => .double

def left : Matched → Value
  | .ints o m _ h _ => .int o m h
  | .doubles x _ => .double x

def right : Matched → Value
  | .ints o _ n _ h => .int o n h
  | .doubles _ y => .double y

@[simp] theorem order_ints {o : IntOrder} {m n : Int} (hm : o.Fits m) (hn : o.Fits n) :
    (ints o m n hm hn).order = .integer o := rfl

@[simp] theorem order_doubles (x y : Double) : (doubles x y).order = .double := rfl

end Matched

/-- Promotes the lower of two values, step by step, until both are at one order. -/
def matchOrders (a b : Value) : Matched :=
  match a, b with
  | .int o m hm, .int p n hn =>
    if same : o = p then .ints o m n hm (same ▸ hn)
    else if o.rank < p.rank then matchOrders (promote (.int o m hm)) (.int p n hn)
    else matchOrders (.int o m hm) (promote (.int p n hn))
  | .int o m hm, .double y => matchOrders (promote (.int o m hm)) (.double y)
  | .double x, .int p n hn => matchOrders (.double x) (promote (.int p n hn))
  | .double x, .double y => .doubles x y
termination_by (4 - a.order.rank) + (4 - b.order.rank)
decreasing_by
  · have := rank_lt_promote o m hm
    have := o.rank_lt_four
    simp only [order_int, Order.rank_integer]; omega
  · have := rank_lt_promote p n hn
    have := p.rank_lt_four
    simp only [order_int, Order.rank_integer]; omega
  · have := rank_lt_promote o m hm
    have := o.rank_lt_four
    simp only [order_int, order_double, Order.rank_integer, Order.rank_double]; omega
  · have := rank_lt_promote p n hn
    have := p.rank_lt_four
    simp only [order_int, order_double, Order.rank_integer, Order.rank_double]; omega

/-- The order that two values meet at is not below that of the left one. -/
theorem rank_le_matchOrders (a b : Value) : a.order.rank ≤ (a.matchOrders b).order.rank := by
  fun_induction matchOrders a b with
  | case1 => exact Nat.le_refl _
  | case2 o m hm p n hn _ _ ih =>
    exact Nat.le_trans (Nat.le_of_lt (rank_lt_promote o m hm)) ih
  | case3 o m hm p n hn _ _ ih => exact ih
  | case4 o m hm y ih => exact Nat.le_trans (Nat.le_of_lt (rank_lt_promote o m hm)) ih
  | case5 x p n hn ih => exact ih
  | case6 => exact Nat.le_refl _

/-- A fraction below this bound, which is `2^-52` in units, counts as none when a double is taken for an
integer. -/
def fractionTolerance : Nat := Nat.pow 2 1022

/-- Moves an integral value down to the first integer order that holds it. A double that is not finite
or beyond all integer orders stays. -/
def demote : Value → Except Fault Value
  | .int _ n _ => .ok ((narrow? n).getD (.double (.ofInt n)))
  | .double x =>
    if !x.isFinite then .ok (.double x)
    else if x.fraction < fractionTolerance then .ok ((narrow? x.truncated).getD (.double x))
    else .error (.misuse .integralOnly)

/-- The greatest count of places to shift or rotate by, and the greatest exponent, `2^32 - 1`. -/
def countLimit : Nat := 4294967295

/-- The value as a count: of places to shift or rotate by, or of factors. -/
def count : Value → Except Fault Nat
  | .int _ n _ => within n
  | .double x =>
    if x.isBelowZero then .error (.calculation .overflow)
    else if x.isIntegral then within x.truncated
    else .error (.calculation .integerNeeded)
where
  within (n : Int) : Except Fault Nat :=
    if 0 ≤ n ∧ n ≤ countLimit then .ok n.toNat else .error (.calculation .overflow)

end Value

end Reckoner
