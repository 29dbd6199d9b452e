import Reckoner.Proofs.Value.Climbing
import Reckoner.Proofs.Value.Comparing

/-!
# Differences and comparisons

A difference of integers lies on the side of zero that the comparison of its operands says, with one
exception (`compare_sub_zero`).  At an integer order the difference is exact.  It is rounded to a double
in three cases: where the operands are compared as doubles too; where it is beyond all signed orders, so
that the operands lie on two sides of zero; and where the left one of two unsigned integers is below the
right one and that is beyond the signed orders.  Only in the last case the integers are compared exactly,
and can have one nearest double nevertheless (`IsLost`).
-/

namespace Reckoner

namespace Value

/-- The integer with which a difference is compared. -/
def zero : Value := .int .u64 0 (by decide)

theorem toDouble_zero : zero.toDouble = .zero false := Double.ofInt_zero

/-- A double compares with the integer zero as with the positive zero. -/
theorem compare_double_zero (x : Double) : (double x).compare zero = x.compare (.zero false) := by
  rw [compare_of_order_double (Or.inl rfl), toDouble_zero]
  rfl

section Integers

variable {o p : IntOrder} {m n r : Int} {x : Double}

theorem compare_int_zero (h : o.Fits r) : (int o r h).compare zero = Ord.compare r 0 :=
  compare_of_not_apart h _ fun apart => nomatch (apart_zero_iff.mp apart).2.2

theorem compare_sub_int (m n : Int) : Ord.compare (m - n) 0 = Ord.compare m n := by
  rcases Int.lt_trichotomy m n with less | same | more
  · rw [Int.compare_eq_lt.mpr less, Int.compare_eq_lt.mpr (Int.sub_neg_of_lt less)]
  · rw [Int.compare_eq_eq.mpr same, Int.compare_eq_eq.mpr (Int.sub_eq_zero.mpr same)]
  · rw [Int.compare_eq_gt.mpr more, Int.compare_eq_gt.mpr (Int.sub_pos_of_lt more)]

/-- The difference of two rounded integers lies on the side of zero that the order of the doubles says. -/
theorem compare_sub_rounded (hm : o.Fits m) (hn : p.Fits n) :
    (Double.ofInt m - Double.ofInt n).compare (.zero false) =
      (Double.ofInt m).compare (Double.ofInt n) :=
  Double.compare_sub (Double.isFinite_ofInt hm) (Double.isFinite_ofInt hn)
    (Double.ofInt_ne_negative_zero n)

/-! ## With a sign -/

/-- Integers whose difference is beyond the signed orders while they are not lie on two sides of zero. -/
theorem compare_ofInt_of_beyond (hm : IntOrder.i128.Fits m) (hn : IntOrder.i128.Fits n)
    (beyond : ¬ IntOrder.i128.Fits (m - n)) :
    (Double.ofInt m).compare (Double.ofInt n) = Ord.compare m n := by
  have sides : m < 0 ∧ 0 ≤ n ∨ n < 0 ∧ 0 ≤ m := by
    simp only [IntOrder.Fits, IntOrder.low, IntOrder.high] at hm hn beyond
    omega
  rcases sides with ⟨negative, nonneg⟩ | ⟨negative, nonneg⟩
  · rw [Int.compare_eq_lt.mpr (Int.lt_of_lt_of_le negative nonneg)]
    exact Int.compare_eq_lt.mpr (Double.key_ofInt_lt_of_neg negative nonneg)
  · rw [Int.compare_eq_gt.mpr (Int.lt_of_lt_of_le negative nonneg)]
    exact Int.compare_eq_gt.mpr (Double.key_ofInt_lt_of_neg negative nonneg)

/-- With a sign among the operands a difference lies where their comparison says. -/
theorem compare_sub_of_signed (hm : o.Fits m) (hn : p.Fits n)
    (sign : o.isSigned = true ∨ p.isSigned = true) :
    ((int o m hm).sub (int p n hn)).result.compare zero = (int o m hm).compare (int p n hn) := by
  rw [sub_of_signed hm hn sign]
  by_cases apart : Apart o p m n
  · rw [meeting_of_apart hm hn apart, compare_of_apart hm hn apart, ← compare_sub_rounded hm hn]
    exact compare_double_zero _
  · rw [compare_of_not_apart hm hn apart]
    rcases firstFit_cases (m - n) (.ofInt m - .ofInt n) ((int o m hm).meeting (int p n hn)) with
      ⟨q, -, fits, found⟩ | ⟨beyond, found⟩
    · rw [found, compare_int_zero fits, compare_sub_int]
    · have widest : IntOrder.i128 ∈ (int o m hm).meeting (int p n hn) := by
        rcases meeting_of_signed hm hn sign apart with meets | meets
        · rw [meets]
          decide
        · rw [meets]
          decide
      obtain ⟨left, right⟩ := List.mem_filter.mp widest
      rw [found, compare_double_zero, compare_sub_rounded hm hn]
      exact compare_ofInt_of_beyond (mem_homes_int.mp left).2
        (mem_homes_int.mp (of_decide_eq_true right)).2 (beyond _ widest)

/-! ## Without signs -/

/-- Is the difference of two unsigned integers, the right one larger and beyond the signed orders, lost in
rounding? -/
structure IsLost (o p : IntOrder) (m n : Int) : Prop where
  left : o.isSigned = false
  right : p.isSigned = false
  below : m < n
  beyond : IntOrder.i128.high < n
  rounded : Double.ofInt m = Double.ofInt n

theorem signedHomes_of_beyond (beyond : IntOrder.i128.high < n) : signedHomes n = [] := by
  have wide : ¬ n ≤ IntOrder.i64.high := fun h =>
    absurd (Int.le_trans h (by decide)) (Int.not_le.mpr beyond)
  rw [signedHomes, if_neg wide, if_neg (Int.not_le.mpr beyond)]

theorem i128_mem_signedHomes (within : n ≤ IntOrder.i128.high) : .i128 ∈ signedHomes n := by
  rw [signedHomes, if_pos within]
  split
  · exact List.mem_cons_of_mem _ List.mem_cons_self
  · exact List.mem_cons_self

/-- A difference below zero of unsigned integers, the right one beyond the signed orders, is rounded. -/
theorem sub_of_beyond (hm : o.Fits m) (hn : p.Fits n) (left : o.isSigned = false)
    (right : p.isSigned = false) (below : m < n) (beyond : IntOrder.i128.high < n) :
    ((int o m hm).sub (int p n hn)).result = .double (.ofInt m - .ofInt n) := by
  rw [sub_of_lt hm hn left right below, signedHomes_of_beyond beyond]
  rfl

/-- A lost difference is the positive zero. -/
theorem sub_of_isLost (hm : o.Fits m) (hn : p.Fits n) (lost : IsLost o p m n) :
    ((int o m hm).sub (int p n hn)).result = .double (.zero false) := by
  rw [sub_of_beyond hm hn lost.left lost.right lost.below lost.beyond]
  have level := compare_sub_rounded hm hn
  rw [lost.rounded, Double.compare, Double.compare, Int.compare_eq_eq.mpr rfl] at level
  rw [lost.rounded]
  exact congrArg double (Double.key_injective (Int.compare_eq_eq.mp level))

/-- Without signs a difference lies where the comparison says unless it is lost. -/
theorem compare_sub_of_unsigned (hm : o.Fits m) (hn : p.Fits n) (left : o.isSigned = false)
    (right : p.isSigned = false) (kept : ¬ IsLost o p m n) :
    ((int o m hm).sub (int p n hn)).result.compare zero = Ord.compare m n := by
  rcases Int.lt_or_le m n with below | above
  · rcases Int.lt_or_le IntOrder.i128.high n with beyond | within
    · have apart : Double.ofInt m ≠ Double.ofInt n := fun rounded =>
        kept ⟨left, right, below, beyond, rounded⟩
      have le := Double.key_ofInt_mono (Int.le_of_lt below)
      have ne : (Double.ofInt m).key ≠ (Double.ofInt n).key := fun h => apart (Double.key_injective h)
      rw [sub_of_beyond hm hn left right below beyond, compare_double_zero, compare_sub_rounded hm hn,
        Int.compare_eq_lt.mpr below]
      exact Int.compare_eq_lt.mpr (Int.lt_iff_le_and_ne.mpr ⟨le, ne⟩)
    · have least := nonneg_of_unsigned hm left
      have fits : IntOrder.i128.Fits (m - n) := by
        simp only [IntOrder.Fits, IntOrder.low, IntOrder.high] at within ⊢
        omega
      rw [sub_of_lt hm hn left right below]
      rcases firstFit_cases (m - n) (.ofInt m - .ofInt n) (signedHomes n) with
        ⟨q, -, fits, found⟩ | ⟨beyond, -⟩
      · rw [found, compare_int_zero fits, compare_sub_int]
      · exact absurd fits (beyond .i128 (i128_mem_signedHomes within))
  · obtain ⟨fits, exact⟩ := sub_of_le hm hn left right above
    rw [exact, compare_int_zero fits, compare_sub_int]

/-- A difference of integers compares with zero as its operands do with each other, unless it is lost: then
it is zero, while the left operand compares as below the right one. -/
theorem compare_sub_zero (hm : o.Fits m) (hn : p.Fits n) :
    let a := int o m hm
    let b := int p n hn
    (¬ IsLost o p m n → (a.sub b).result.compare zero = a.compare b) ∧
    (IsLost o p m n → (a.sub b).result = .double (.zero false) ∧
      (a.sub b).result.compare zero = .eq ∧ a.compare b = .lt) := by
  intro a b
  have exact (left : o.isSigned = false) (right : p.isSigned = false) :
      a.compare b = Ord.compare m n := by
    refine compare_of_not_apart hm hn fun apart => ?_
    rcases apart.sign with sign | sign
    · exact Bool.false_ne_true (left.symm.trans sign)
    · exact Bool.false_ne_true (right.symm.trans sign)
  constructor
  · intro kept
    by_cases sign : o.isSigned = true ∨ p.isSigned = true
    · exact compare_sub_of_signed hm hn sign
    · have left := Bool.eq_false_iff.mpr (not_or.mp sign).1
      have right := Bool.eq_false_iff.mpr (not_or.mp sign).2
      rw [exact left right]
      exact compare_sub_of_unsigned hm hn left right kept
  · intro lost
    have nothing : (a.sub b).result = .double (.zero false) := sub_of_isLost hm hn lost
    rw [nothing, exact lost.left lost.right]
    refine ⟨rfl, ?_, Int.compare_eq_lt.mpr lost.below⟩
    rw [compare_double_zero]
    exact Int.compare_eq_eq.mpr rfl

theorem compare_sub_zero_beyond :
    let a := int .u128 170141183460469231731687303715884105728 (by decide)
    let b := int .u128 170141183460469231731687303715884105729 (by decide)
    let c := int .i128 (-1) (by decide)
    (a.sub b).result = .double (.zero false) ∧ (c.sub b).result.compare zero = c.compare b := by
  have lost : IsLost .u128 .u128 170141183460469231731687303715884105728
      170141183460469231731687303715884105729 :=
    ⟨rfl, rfl, by decide, by decide, by decide +kernel⟩
  exact ⟨((compare_sub_zero _ _).2 lost).1, (compare_sub_zero _ _).1 fun kept => nomatch kept.left⟩

end Integers

/-- A lesser integer without a sign is subtracted from as a double when the greater one fits no signed order,
and then the difference of two that are unequal may be zero. -/
theorem difference_of_unequal_is_zero :
    let a := int .u128 170141183460469231731687303715884105728 (by decide)
    let b := int .u128 170141183460469231731687303715884105729 (by decide)
    a.compare b = .lt ∧ (a.sub b).result = .double (.zero false) ∧
      (a.sub b).result.compare zero = .eq := by
  decide +kernel

end Value

end Reckoner
