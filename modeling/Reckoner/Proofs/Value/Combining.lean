import Mathlib.Data.Int.Bitwise
import Reckoner.Value.Bits

/-!
# Combining the bits of integers

In two's complement an integer has a bit at every place, and an operation that combines the bits of two
integers does so at every place (`combineBits_eq_bitwise`).

An integer fits an order just if its bits beyond the order are all alike: from a place on that the order
knows, all are clear, or all are set if the order has a sign (`fits_iff_alike`).  Bits that are alike are
combined into bits that are alike, so a combination never leaves the order of its operands
(`fits_bitwise`), provided that clear bits are combined into clear ones.
-/

namespace Reckoner

/-- The bits of two integers are combined at every place. -/
theorem combineBits_eq_bitwise (f : Bool → Bool → Bool) : combineBits f = Int.bitwise f := by
  have naturals : ∀ g, combineNats g = Int.natBitwise g := by
    intro g
    funext m n
    unfold combineNats Int.natBitwise
    cases g false false <;> rfl
  funext m n
  rcases m with m | m <;> rcases n with n | n
  · exact congrFun₂ (naturals f) m n
  · exact congrFun₂ (naturals fun x y => f x !y) m n
  · exact congrFun₂ (naturals fun x y => f (!x) y) m n
  · exact congrFun₂ (naturals fun x y => f (!x) !y) m n

/-! ## Bits that are alike -/

/-- All bits of the integer from a place on are the same. -/
def Alike (n : Int) (place : Nat) (b : Bool) : Prop := ∀ i, place ≤ i → n.testBit i = b

section Alike

variable {m n : Int} {k : Nat} {a b : Bool}

theorem alike_natCast_iff {n k : Nat} : Alike n k false ↔ n < Nat.pow 2 k := by
  constructor
  · intro alike
    exact Nat.lt_pow_two_of_testBit n alike
  · intro below i later
    exact Nat.testBit_lt_two_pow (Nat.lt_of_lt_of_le below (Nat.pow_le_pow_right (by decide) later))

theorem not_alike_natCast {n k : Nat} : ¬ Alike n k true := by
  intro alike
  have clear : n.testBit (max n k) = false :=
    Nat.testBit_lt_two_pow (Nat.lt_of_le_of_lt (Nat.le_max_left n k) Nat.lt_two_pow_self)
  have set : n.testBit (max n k) = true := alike (max n k) (Nat.le_max_right n k)
  rw [clear] at set
  cases set

/-- The bits of `-n - 1` are the opposite of those of `n`. -/
theorem alike_negSucc_iff {n k : Nat} : Alike (Int.negSucc n) k b ↔ Alike n k (!b) := by
  have opposite : ∀ i, (Int.negSucc n).testBit i = b ↔ (n : Int).testBit i = !b := by
    intro i
    change (!n.testBit i) = b ↔ n.testBit i = !b
    rw [Bool.not_eq_eq_eq_not]
  exact forall₂_congr fun i _ => opposite i

theorem pow_eq_natCast (k : Nat) : Int.pow 2 k = (Nat.pow 2 k : Nat) := (Int.natCast_pow 2 k).symm

theorem alike_false_iff : Alike n k false ↔ 0 ≤ n ∧ n < Int.pow 2 k := by
  rw [pow_eq_natCast]
  cases n with
  | ofNat n =>
    refine alike_natCast_iff.trans ?_
    rw [Int.ofNat_eq_natCast]
    omega
  | negSucc n =>
    rw [alike_negSucc_iff]
    exact iff_of_false not_alike_natCast (fun nonneg => absurd nonneg.1 (by omega))

theorem alike_true_iff : Alike n k true ↔ -Int.pow 2 k ≤ n ∧ n < 0 := by
  rw [pow_eq_natCast]
  cases n with
  | ofNat n => exact iff_of_false not_alike_natCast (fun negative => absurd negative.2 (by simp))
  | negSucc n =>
    rw [alike_negSucc_iff]
    refine alike_natCast_iff.trans ?_
    omega

/-- Bits that are alike are combined into bits that are alike. -/
theorem Alike.bitwise (f : Bool → Bool → Bool) (left : Alike m k a) (right : Alike n k b) :
    Alike (Int.bitwise f m n) k (f a b) := by
  intro i later
  rw [Int.testBit_bitwise, left i later, right i later]

end Alike

namespace IntOrder

variable {o : IntOrder} {m n : Int} {f : Bool → Bool → Bool}

/-- The place from which on the bits of all integers of the order are alike: the sign bit, or the first bit
that there is no room for. -/
def signPlace (o : IntOrder) : Nat := if o.isSigned then o.width - 1 else o.width

theorem low_eq (o : IntOrder) : o.low = if o.isSigned then -Int.pow 2 o.signPlace else 0 := by
  cases o <;> decide

theorem high_eq (o : IntOrder) : o.high = Int.pow 2 o.signPlace - 1 := by
  cases o <;> decide

theorem fits_iff_alike :
    o.Fits n ↔ ∃ b, Alike n o.signPlace b ∧ (b = true → o.isSigned = true) := by
  rw [Bool.exists_bool, alike_false_iff, alike_true_iff, Fits, low_eq, high_eq]
  cases o.isSigned with
  | false =>
    simp only [Bool.false_eq_true, if_false, forall_true_left, and_false, or_false, false_implies,
      and_true]
    omega
  | true =>
    simp only [if_true, implies_true, and_true]
    omega

/-- No operation leaves the order of its operands that combines clear bits into clear ones. -/
theorem fits_bitwise (keeps : f false false = false) (hm : o.Fits m) (hn : o.Fits n) :
    o.Fits (Int.bitwise f m n) := by
  obtain ⟨a, left, signedLeft⟩ := fits_iff_alike.mp hm
  obtain ⟨b, right, signedRight⟩ := fits_iff_alike.mp hn
  refine fits_iff_alike.mpr ⟨f a b, left.bitwise f right, ?_⟩
  intro set
  by_contra unsigned
  obtain rfl : a = false := Bool.eq_false_iff.mpr fun clear => unsigned (signedLeft clear)
  obtain rfl : b = false := Bool.eq_false_iff.mpr fun clear => unsigned (signedRight clear)
  rw [keeps] at set
  cases set

end IntOrder

end Reckoner
