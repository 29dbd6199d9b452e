/-!
# Orders

Every value lives at one of five orders: unsigned and signed integers of 64 and of 128 bits, and
doubles. Orders are ranked; a value may always be promoted to a higher order when it needs room.
-/

namespace Reckoner

/-- The integer orders, in increasing rank. -/
inductive IntOrder where
  | u64
  | u128
  | i64
  | i128
deriving DecidableEq

namespace IntOrder

def rank : IntOrder → Nat
  | u64 => 0
  | u128 => 1
  | i64 => 2
  | i128 => 3

/-- The number of bits. -/
def width : IntOrder → Nat
  | u64 | i64 => 64
  | u128 | i128 => 128

def isSigned : IntOrder → Bool
  | u64 | u128 => false
  | i64 | i128 => true

/-- The least integer of the order: zero without a sign, and `-2^63` or `-2^127` with one. -/
def low : IntOrder → Int
  | u64 | u128 => 0
  | i64 => -9223372036854775808
  | i128 => -170141183460469231731687303715884105728

/-- The greatest integer of the order: one below `2^64`, `2^128`, `2^63` and `2^127`, in
turn. -/
def high : IntOrder → Int
  | u64 => 18446744073709551615
  | u128 => 340282366920938463463374607431768211455
  | i64 => 9223372036854775807
  | i128 => 170141183460469231731687303715884105727

/-- Does the order hold the integer? -/
def Fits (order : IntOrder) (n : Int) : Prop := order.low ≤ n ∧ n ≤ order.high

instance (order : IntOrder) (n : Int) : Decidable (order.Fits n) :=
  inferInstanceAs (Decidable (_ ∧ _))

/-- The name under which messages speak of the order. -/
def name : IntOrder → String
  | u64 => "UNSIGNED_INT"
  | u128 => "UNSIGNED_BIG_INT"
  | i64 => "SIGNED_INT"
  | i128 => "SIGNED_BIG_INT"

/-- All integer orders, in the order in which a home for an integer is sought. -/
def all : List IntOrder := [u64, u128, i64, i128]

/-- The two's complement pattern of an integer. -/
def pattern (order : IntOrder) (n : Int) : BitVec order.width := BitVec.ofInt order.width n

/-- The integer of a two's complement pattern. -/
def ofPattern (order : IntOrder) (bits : BitVec order.width) : Int :=
  if order.isSigned then bits.toInt else bits.toNat

theorem rank_lt_four (order : IntOrder) : order.rank < 4 := by
  cases order <;> decide

theorem rank_injective {o p : IntOrder} (h : o.rank = p.rank) : o = p := by
  cases o <;> cases p <;> simp_all [rank]

end IntOrder

/-- The orders of values: the integer orders, and doubles above them. -/
inductive Order where
  | integer (order : IntOrder)
  | double
deriving DecidableEq

namespace Order

def rank : Order → Nat
  | integer order => order.rank
  | double => 4

def width : Order → Nat
  | integer order => order.width
  | double => 64

def isInteger : Order → Bool
  | integer _ => true
  | double => false

/-- The orders from the signed integers on hold negative numbers. -/
def isSigned : Order → Bool
  | integer order => order.isSigned
  | double => true

def name : Order → String
  | integer order => order.name
  | double => "FLOAT"

@[simp] theorem rank_integer (o : IntOrder) : (integer o).rank = o.rank := rfl

@[simp] theorem rank_double : double.rank = 4 := rfl

theorem rank_le_four (order : Order) : order.rank ≤ 4 := by
  cases order with
  | integer o => exact Nat.le_of_lt o.rank_lt_four
  | double => exact Nat.le_refl _

theorem rank_injective {o p : Order} (h : o.rank = p.rank) : o = p := by
  cases o with
  | integer o =>
    cases p with
    | integer p => rw [IntOrder.rank_injective h]
    | double => have := o.rank_lt_four; simp only [rank] at h; omega
  | double =>
    cases p with
    | integer p => have := p.rank_lt_four; simp only [rank] at h; omega
    | double => rfl

end Order

end Reckoner
