/-!
# Double-precision numbers

A double is a not-a-number or a signed *rank*: its place when the non-negative doubles are listed in
increasing order. Rank `0` is zero, rank `1` the least subnormal, and rank `infinityRank` infinity.
A finite rank stands for the integer `units r` counted in units of `2^-1074`, so every finite double
is an exact integer number of units and all arithmetic on doubles is arithmetic on integers.

There is one not-a-number. The order `compare` puts it above everything else and the negative zero
below the positive one, so it is total and tells any two doubles apart.
-/

namespace Reckoner

namespace Double

/-- The number of ranks that share one distance to their neighbours. -/
def binade : Nat := Nat.pow 2 52

/-- The rank of infinity, one above the rank of the greatest finite double. -/
def infinityRank : Nat := 2047 * binade

end Double

/-- A double-precision number: a not-a-number, or a sign and a rank. -/
inductive Double where
  | nan
  | ranked (negative : Bool) (rank : Nat) (bounded : rank ≤ Double.infinityRank)
deriving DecidableEq

namespace Double

def zero (negative : Bool) : Double := .ranked negative 0 (Nat.zero_le _)

def infinity (negative : Bool) : Double := .ranked negative infinityRank (Nat.le_refl _)

instance : Inhabited Double := ⟨zero false⟩

/-- How far the significand of a rank is shifted: ranks below `2 * binade` count single units, and
each later binade doubles the distance between neighbours. -/
def shift (rank : Nat) : Nat := rank / binade - 1

/-- The significand of a rank, below `2^53`. -/
def significand (rank : Nat) : Nat :=
  if rank < binade then rank else binade + rank % binade

/-- The magnitude of a rank in units of `2^-1074`. -/
def units (rank : Nat) : Nat := significand rank * Nat.pow 2 (shift rank)

/-- The number of units in one. -/
def one : Nat := Nat.pow 2 1074

def isNaN : Double → Bool
  | .nan => true
  | .ranked .. => false

def isFinite : Double → Bool
  | .nan => false
  | .ranked _ r _ => r < infinityRank

/-- Does the sign bit stand? A not-a-number has none. -/
def isNegative : Double → Bool
  | .nan => false
  | .ranked s _ _ => s

def neg : Double → Double
  | .nan => .nan
  | .ranked s r h => .ranked (!s) r h

def abs : Double → Double
  | .nan => .nan
  | .ranked _ r h => .ranked false r h

instance : Neg Double := ⟨neg⟩

/-- The place of a double in the total order. -/
def key : Double → Int
  | .nan => infinityRank + 1
  | .ranked false r _ => r
  | .ranked true r _ => -1 - r

/-- Total order: the negative zero below the positive one, not-a-number above infinity. -/
protected def compare (x y : Double) : Ordering := Ord.compare x.key y.key

/-- Is `x` less than zero? Neither zero is, nor is not-a-number. -/
def isBelowZero : Double → Bool
  | .nan => false
  | .ranked s r _ => s && r ≠ 0

/-- The sign-and-magnitude bit pattern. -/
def toBits : Double → UInt64
  | .nan => 0x7ff8000000000000
  | .ranked s r _ => UInt64.ofNat ((if s then Nat.pow 2 63 else 0) + r)

/-- The double with a given bit pattern; all not-a-number patterns are one. -/
def ofBits (bits : UInt64) : Double :=
  let rank := bits.toNat % Nat.pow 2 63
  if h : rank ≤ infinityRank then .ranked (Nat.pow 2 63 ≤ bits.toNat) rank h else .nan

@[simp] theorem neg_neg (x : Double) : x.neg.neg = x := by
  cases x <;> simp [neg]

@[simp] theorem abs_abs (x : Double) : x.abs.abs = x.abs := by
  cases x <;> rfl

/-- The order tells any two doubles apart. -/
theorem key_injective {x y : Double} (h : x.key = y.key) : x = y := by
  cases x with
  | nan =>
    cases y with
    | nan => rfl
    | ranked t q hq => cases t <;> simp only [key] at h <;> omega
  | ranked s r hr =>
    cases y with
    | nan => cases s <;> simp only [key] at h <;> omega
    | ranked t q hq =>
      cases s <;> cases t <;> simp only [key] at h
      · have : r = q := by omega
        subst this; rfl
      · omega
      · omega
      · have : r = q := by omega
        subst this; rfl

end Double

end Reckoner
