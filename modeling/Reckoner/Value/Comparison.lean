import Reckoner.Value.Promotion
import Reckoner.Sorting.Runs

/-!
# Comparison

Values are compared loosely, as numbers, after matching their orders, or strictly, order first. Loose
comparison of integers with doubles, and of large unsigned integers with signed ones, goes through
doubles and may call different integers equal to one double; it is therefore no total preorder.
-/

namespace Reckoner

namespace Value

/-- The loose order of two values. -/
protected def compare (a b : Value) : Ordering :=
  match a.matchOrders b with
  | .ints _ m n _ _ => Ord.compare m n
  | .doubles x y => x.compare y

/-- The strict order: first by order, then by number. -/
def strictCompare : Value → Value → Ordering
  | .int o m _, .int p n _ => (Ord.compare o.rank p.rank).then (Ord.compare m n)
  | .int .., .double _ => .lt
  | .double _, .int .. => .gt
  | .double x, .double y => x.compare y

/-- Are the values equal as numbers? -/
def same (a b : Value) : Bool := a.compare b == .eq

/-- Are the values equal in order and number? -/
def strictSame : Value → Value → Bool
  | .int o m _, .int p n _ => o = p && Ord.compare m n == .eq
  | .double x, .double y => x.compare y == .eq
  | .int .., .double _ | .double _, .int .. => false

/-- Is `a` below `b` as a number? -/
def below (a b : Value) : Bool := a.compare b == .lt

/-! ### Lists -/

/-- The values in ascending loose order, equal ones in their given order. -/
def sorted (values : List Value) : List Value := Sorting.sort below values

end Value

end Reckoner
