import Mathlib.Order.Monotone.Basic
import Reckoner.Double.Arithmetic
import Reckoner.Order

/-!
# The order of doubles

Rounding to the nearest double keeps the order: of two quantities in units the smaller one has the
smaller rank (`nearestRank_mono`), because the significand of the larger one starts no lower and ranks
count on from one binade to the next.  Ranks in turn order the doubles by their amounts
(`units_strictMono`), so the order of doubles is that of the numbers that they stand for, with the two
zeros told apart and not-a-number on top (`compare_eq_compareNumbers`).  It follows that integers are
rounded to doubles in order (`key_ofInt_mono`) and that a difference of rounded integers has the sign
that their order says (`compare_sub`).
-/

namespace Reckoner

/-- No order holds an integer of greater magnitude than the unsigned orders do. -/
theorem IntOrder.natAbs_le_of_fits {o : IntOrder} {n : Int} (h : o.Fits n) :
    n.natAbs ≤ IntOrder.u128.high.natAbs := by
  cases o <;> simp only [Fits, low, high] at h ⊢ <;> omega

namespace Double

/-! ## Rounding to a natural number -/

theorem div_le_halfEven (n d : Nat) : n / d ≤ halfEven n d := by
  unfold halfEven
  dsimp only
  split <;> omega

theorem halfEven_le_succ_div (n d : Nat) : halfEven n d ≤ n / d + 1 := by
  unfold halfEven
  dsimp only
  split <;> omega

/-- Rounding to a natural number keeps the order. -/
theorem halfEven_mono {n m d : Nat} (h : n ≤ m) : halfEven n d ≤ halfEven m d := by
  have quotients : n / d ≤ m / d := Nat.div_le_div_right h
  rcases Nat.lt_or_eq_of_le quotients with further | same
  · have above := halfEven_le_succ_div n d
    have below := div_le_halfEven m d
    omega
  · -- With one quotient the rests decide, and a larger rest is rounded down only if a smaller one is.
    have rests : n % d ≤ m % d := by
      have left := Nat.div_add_mod n d
      have right := Nat.div_add_mod m d
      rw [same] at left
      omega
    unfold halfEven
    dsimp only
    rw [same]
    split <;> split <;> simp only [Nat.compare_eq_lt, Nat.compare_eq_eq, Nat.compare_eq_gt] at * <;>
      omega

/-! ## Ranks -/

/-- The exponent of the significand that a quantity of units is rounded to. -/
def exponent (n d : Nat) : Nat := (n / d).log2 - 52

theorem nearestRank_eq (n d : Nat) :
    nearestRank n d = min infinityRank
      (exponent n d * binade + halfEven n (d * Nat.pow 2 (exponent n d))) := rfl

theorem exponent_mono {n m : Nat} (d : Nat) (h : n ≤ m) : exponent n d ≤ exponent m d := by
  have quotients : n / d ≤ m / d := Nat.div_le_div_right h
  have logarithms : (n / d).log2 ≤ (m / d).log2 := by
    by_cases zero : n / d = 0
    · rw [zero]
      exact Nat.zero_le _
    · have nonzero : m / d ≠ 0 := Nat.ne_of_gt (Nat.lt_of_lt_of_le (Nat.pos_of_ne_zero zero) quotients)
      exact (Nat.le_log2 nonzero).mpr (Nat.le_trans (Nat.log2_self_le zero) quotients)
  exact Nat.sub_le_sub_right logarithms 52

/-- A significand has at most 53 binary digits, or is the power of two after them. -/
theorem halfEven_le_two_mul_binade (n d : Nat) :
    halfEven n (d * Nat.pow 2 (exponent n d)) ≤ 2 * binade := by
  have quotient : n / (d * Nat.pow 2 (exponent n d)) < 2 * binade := by
    rw [← Nat.div_div_eq_div_mul]
    refine Nat.div_lt_of_lt_mul ?_
    have short : n / d < Nat.pow 2 ((n / d).log2 + 1) := Nat.lt_log2_self
    have digits : (n / d).log2 + 1 ≤ exponent n d + 53 := by unfold exponent; omega
    calc n / d < Nat.pow 2 ((n / d).log2 + 1) := short
      _ ≤ Nat.pow 2 (exponent n d + 53) := Nat.pow_le_pow_right (by decide) digits
      _ = Nat.pow 2 (exponent n d) * (2 * binade) := Nat.pow_add 2 (exponent n d) 53
  exact Nat.le_trans (halfEven_le_succ_div _ _) quotient

/-- With an exponent the significand has all its 53 binary digits. -/
theorem binade_le_halfEven {n d : Nat} (h : 0 < exponent n d) :
    binade ≤ halfEven n (d * Nat.pow 2 (exponent n d)) := by
  refine Nat.le_trans ?_ (div_le_halfEven _ _)
  have digits : (n / d).log2 = 52 + exponent n d := by unfold exponent at h ⊢; omega
  have nonzero : n / d ≠ 0 := by
    intro zero
    rw [zero] at digits
    have : Nat.log2 0 = 0 := by decide
    omega
  have positive : 0 < Nat.pow 2 (exponent n d) := Nat.pow_pos (by decide)
  rw [← Nat.div_div_eq_div_mul, Nat.le_div_iff_mul_le positive]
  calc binade * Nat.pow 2 (exponent n d)
      = Nat.pow 2 (52 + exponent n d) := (Nat.pow_add 2 52 (exponent n d)).symm
    _ = Nat.pow 2 (n / d).log2 := by rw [digits]
    _ ≤ n / d := Nat.log2_self_le nonzero

/-- Rounding to the nearest double keeps the order. -/
theorem nearestRank_mono {n m : Nat} (d : Nat) (h : n ≤ m) : nearestRank n d ≤ nearestRank m d := by
  rw [nearestRank_eq, nearestRank_eq]
  refine Nat.le_min.mpr ⟨Nat.min_le_left _ _, Nat.le_trans (Nat.min_le_right _ _) ?_⟩
  rcases Nat.lt_or_eq_of_le (exponent_mono d h) with further | same
  · have above := halfEven_le_two_mul_binade n d
    have below := binade_le_halfEven (Nat.lt_of_le_of_lt (Nat.zero_le _) further)
    have binades : (exponent n d + 1) * binade ≤ exponent m d * binade :=
      Nat.mul_le_mul_right binade further
    rw [Nat.add_mul] at binades
    omega
  · rw [same]
    exact Nat.add_le_add_left (halfEven_mono h) _

theorem nearestRank_zero : nearestRank 0 1 = 0 := by decide +kernel

/-- Nothing but zero is rounded to zero. -/
theorem nearestRank_pos {n : Nat} (h : 0 < n) : 0 < nearestRank n 1 :=
  Nat.lt_of_lt_of_le (by decide +kernel : 0 < nearestRank 1 1) (nearestRank_mono 1 h)

/-! ## Amounts -/

/-- Ranks below two binades count single units. -/
theorem units_of_lt {r : Nat} (h : r < 2 * binade) : units r = r := by
  have size : binade = 4503599627370496 := rfl
  have first : r / binade - 1 = 0 := by rw [size] at h ⊢; omega
  have whole : significand r = r := by
    unfold significand
    rw [size] at h ⊢
    split <;> omega
  unfold units shift
  rw [whole, first]
  exact Nat.mul_one r

theorem units_of_le {r : Nat} (h : binade ≤ r) :
    units r = (binade + r % binade) * Nat.pow 2 (r / binade - 1) := by
  unfold units significand shift
  rw [if_neg (Nat.not_lt.mpr h)]

/-- The next rank stands for more units. -/
theorem units_lt_units_succ (r : Nat) : units r < units (r + 1) := by
  have size : binade = 4503599627370496 := rfl
  by_cases single : r + 1 < 2 * binade
  · rw [units_of_lt single, units_of_lt (Nat.lt_of_succ_lt single)]
    exact Nat.lt_succ_self r
  · have large : binade ≤ r := by rw [size] at single ⊢; omega
    rw [units_of_le large, units_of_le (Nat.le_succ_of_le large)]
    by_cases inside : r % binade + 1 < binade
    · have place : (r + 1) / binade = r / binade := by rw [size] at inside ⊢; omega
      have next : (r + 1) % binade = r % binade + 1 := by rw [size] at inside ⊢; omega
      rw [place, next]
      exact Nat.mul_lt_mul_of_pos_right (by omega) (Nat.pow_pos (by decide))
    · -- The first rank of a binade has the least significand and twice the distance.
      have place : (r + 1) / binade - 1 = (r / binade - 1) + 1 := by
        rw [size] at inside large ⊢; omega
      have next : (r + 1) % binade = 0 := by rw [size] at inside ⊢; omega
      have short : binade + r % binade < binade * 2 := by rw [size]; omega
      rw [place, next, Nat.add_zero]
      calc (binade + r % binade) * Nat.pow 2 (r / binade - 1)
          < binade * 2 * Nat.pow 2 (r / binade - 1) :=
            Nat.mul_lt_mul_of_pos_right short (Nat.pow_pos (by decide))
        _ = binade * (Nat.pow 2 (r / binade - 1) * 2) := by
            rw [Nat.mul_assoc, Nat.mul_comm 2]

theorem units_strictMono : StrictMono units := strictMono_nat_of_lt_succ units_lt_units_succ

@[simp] theorem units_zero : units 0 = 0 := units_of_lt (by decide)

/-- The amount of a double in units. That of infinity is what its rank would stand for. -/
def amount : Double → Int
  | .nan => 0
  | .ranked s r _ => signed s (units r)

/-- The comparison of doubles by their numbers: not-a-number above all others, then the amounts, and at
last a negative sign below a positive one. -/
def compareNumbers (x y : Double) : Ordering :=
  ((Ord.compare x.isNaN y.isNaN).then (Ord.compare x.amount y.amount)).then
    (Ord.compare (!x.isNegative) (!y.isNegative))

section Numbers

variable {s t : Bool} {r q : Nat} {hr : r ≤ infinityRank} {hq : q ≤ infinityRank}

@[simp] theorem amount_positive : (ranked false r hr).amount = units r := rfl

@[simp] theorem amount_negative : (ranked true r hr).amount = -units r := rfl

theorem natAbs_amount (s : Bool) (hr : r ≤ infinityRank) :
    (ranked s r hr).amount.natAbs = units r := by
  cases s with
  | false => exact Int.natAbs_natCast _
  | true => rw [amount_negative, Int.natAbs_neg, Int.natAbs_natCast]

theorem key_lt_key_of_amount_lt (h : (ranked s r hr).amount < (ranked t q hq).amount) :
    (ranked s r hr).key < (ranked t q hq).key := by
  cases s with
  | false =>
    cases t with
    | false =>
      have ranks : r < q := units_strictMono.lt_iff_lt.mp (Int.ofNat_lt.mp h)
      simp only [key]
      omega
    | true =>
      rw [amount_positive, amount_negative] at h
      omega
  | true =>
    cases t with
    | false =>
      simp only [key]
      omega
    | true =>
      have ranks : q < r := units_strictMono.lt_iff_lt.mp (Int.ofNat_lt.mp (Int.neg_lt_neg_iff.mp h))
      simp only [key]
      omega

/-- Only the two zeros share an amount. -/
theorem eq_or_zero_of_amount_eq (h : (ranked s r hr).amount = (ranked t q hq).amount) :
    r = q ∧ (s = t ∨ r = 0) := by
  have magnitudes : units r = units q := by
    rw [← natAbs_amount s hr, h, natAbs_amount]
  have ranks : r = q := units_strictMono.injective magnitudes
  subst ranks
  refine ⟨rfl, ?_⟩
  by_cases signs : s = t
  · exact Or.inl signs
  · have nothing : units r = 0 := by
      cases s with
      | false =>
        cases t with
        | false => exact absurd rfl signs
        | true =>
          rw [amount_positive, amount_negative] at h
          omega
      | true =>
        cases t with
        | false =>
          rw [amount_positive, amount_negative] at h
          omega
        | true => exact absurd rfl signs
    exact Or.inr (units_strictMono.injective (nothing.trans units_zero.symm))

end Numbers

/-- Doubles are compared by their numbers. -/
theorem compare_eq_compareNumbers (x y : Double) : x.compare y = compareNumbers x y := by
  cases x with
  | nan =>
    cases y with
    | nan => exact Int.compare_eq_eq.mpr rfl
    | ranked t q hq =>
      refine Int.compare_eq_gt.mpr ?_
      cases t <;> simp only [key] <;> omega
  | ranked s r hr =>
    cases y with
    | nan =>
      refine Int.compare_eq_lt.mpr ?_
      cases s <;> simp only [key] <;> omega
    | ranked t q hq =>
      rcases Int.lt_trichotomy (ranked s r hr).amount (ranked t q hq).amount with less | same | more
      · have keys := key_lt_key_of_amount_lt less
        rw [Double.compare, compareNumbers, Int.compare_eq_lt.mpr keys, Int.compare_eq_lt.mpr less]
        rfl
      · obtain ⟨rfl, signs⟩ := eq_or_zero_of_amount_eq same
        rw [compareNumbers, Int.compare_eq_eq.mpr same]
        rcases signs with rfl | rfl
        · rw [Double.compare, Int.compare_eq_eq.mpr rfl]
          cases s <;> rfl
        · cases s <;> cases t <;> rfl
      · have keys := key_lt_key_of_amount_lt more
        rw [Double.compare, compareNumbers, Int.compare_eq_gt.mpr keys, Int.compare_eq_gt.mpr more]
        rfl

/-! ## Rounded integers -/

/-- The rank of the double nearest to an integer. -/
def integerRank (n : Int) : Nat := nearestRank (n * one).natAbs 1

theorem integerRank_le (n : Int) : integerRank n ≤ infinityRank := Nat.min_le_left _ _

theorem one_pos : 0 < one := by decide +kernel

theorem natAbs_mul_one (n : Int) : (n * one).natAbs = n.natAbs * one := by
  rw [Int.natAbs_mul, Int.natAbs_natCast]

theorem ofInt_of_nonneg {n : Int} (h : 0 ≤ n) :
    ofInt n = ranked false (integerRank n) (integerRank_le n) := by
  have sign : decide (n * one < 0) = false :=
    decide_eq_false (Int.not_lt.mpr (Int.mul_nonneg h (Int.natCast_nonneg one)))
  unfold ofInt ofUnits ofRatio
  rw [sign]
  rfl

theorem ofInt_of_neg {n : Int} (h : n < 0) :
    ofInt n = ranked true (integerRank n) (integerRank_le n) := by
  have unit : (0 : Int) < one := Int.natCast_pos.mpr one_pos
  have sign : decide (n * one < 0) = true := decide_eq_true (Int.mul_neg_of_neg_of_pos h unit)
  unfold ofInt ofUnits ofRatio
  rw [sign]
  rfl

theorem integerRank_mono {m n : Int} (h : m.natAbs ≤ n.natAbs) : integerRank m ≤ integerRank n := by
  refine nearestRank_mono 1 ?_
  rw [natAbs_mul_one, natAbs_mul_one]
  exact Nat.mul_le_mul_right one h

/-- No integer but zero is rounded to zero. -/
theorem integerRank_pos {n : Int} (h : n ≠ 0) : 0 < integerRank n := by
  refine nearestRank_pos ?_
  rw [natAbs_mul_one]
  exact Nat.mul_pos (Int.natAbs_pos.mpr h) one_pos

@[simp] theorem ofInt_zero : ofInt 0 = zero false := by
  have rank : integerRank 0 = 0 := by
    rw [integerRank, Int.zero_mul]
    exact nearestRank_zero
  rw [ofInt_of_nonneg (Int.le_refl 0)]
  simp only [rank]
  rfl

/-- The negative zero is the rounding of no integer. -/
theorem ofInt_ne_negative_zero (n : Int) : ofInt n ≠ zero true := by
  intro equal
  rcases Int.lt_or_le n 0 with negative | nonneg
  · rw [ofInt_of_neg negative] at equal
    have rank : integerRank n = 0 := (ranked.inj equal).2
    have := integerRank_pos (Int.ne_of_lt negative)
    omega
  · rw [ofInt_of_nonneg nonneg] at equal
    cases (ranked.inj equal).1

/-- Integers are rounded to doubles in order. -/
theorem key_ofInt_mono {m n : Int} (h : m ≤ n) : (ofInt m).key ≤ (ofInt n).key := by
  rcases Int.lt_or_le n 0 with below | above
  · have ranks : integerRank n ≤ integerRank m := integerRank_mono (by omega)
    rw [ofInt_of_neg below, ofInt_of_neg (Int.lt_of_le_of_lt h below)]
    simp only [key]
    omega
  · rw [ofInt_of_nonneg above]
    rcases Int.lt_or_le m 0 with negative | nonneg
    · rw [ofInt_of_neg negative]
      simp only [key]
      omega
    · have ranks : integerRank m ≤ integerRank n := integerRank_mono (by omega)
      rw [ofInt_of_nonneg nonneg]
      simp only [key]
      omega

/-- Integers on two sides of zero are told apart by their roundings. -/
theorem key_ofInt_lt_of_neg {m n : Int} (negative : m < 0) (nonneg : 0 ≤ n) :
    (ofInt m).key < (ofInt n).key := by
  rw [ofInt_of_neg negative, ofInt_of_nonneg nonneg]
  simp only [key]
  omega

/-- All integers of the integer orders are far from infinity. -/
theorem isFinite_ofInt {o : IntOrder} {n : Int} (h : o.Fits n) : (ofInt n).isFinite = true := by
  have rank : integerRank n < infinityRank :=
    Nat.lt_of_le_of_lt (integerRank_mono (IntOrder.natAbs_le_of_fits h)) (by decide +kernel)
  rcases Int.lt_or_le n 0 with negative | nonneg
  · rw [ofInt_of_neg negative]
    exact decide_eq_true rank
  · rw [ofInt_of_nonneg nonneg]
    exact decide_eq_true rank

/-! ## Differences -/

/-- A difference of finite doubles is the rounded difference of their amounts. -/
theorem sub_of_finite {s t : Bool} {r q : Nat} {hr : r ≤ infinityRank} {hq : q ≤ infinityRank}
    (left : (ranked s r hr).isFinite = true) (right : (ranked t q hq).isFinite = true) :
    ranked s r hr - ranked t q hq =
      if (ranked s r hr).amount - (ranked t q hq).amount = 0 then zero (s && !t)
      else ofUnits ((ranked s r hr).amount - (ranked t q hq).amount) := by
  have first : r ≠ infinityRank := Nat.ne_of_lt (of_decide_eq_true left)
  have second : q ≠ infinityRank := Nat.ne_of_lt (of_decide_eq_true right)
  have opposite : signed (!t) (units q) = -signed t (units q) := by
    cases t with
    | false => rfl
    | true => exact (Int.neg_neg _).symm
  change (if r = infinityRank then _ else if q = infinityRank then _ else
    if signed s (units r) + signed (!t) (units q) = 0 then zero (s && !t)
    else ofUnits (signed s (units r) + signed (!t) (units q))) = _
  rw [if_neg first, if_neg second, opposite]
  rfl

/-- Rounding units keeps the side of zero. -/
theorem compare_ofUnits_zero {u : Int} (h : u ≠ 0) :
    (ofUnits u).compare (zero false) = Ord.compare u 0 := by
  have rank : 0 < nearestRank u.natAbs 1 := nearestRank_pos (Int.natAbs_pos.mpr h)
  unfold ofUnits ofRatio zero
  rcases Int.lt_or_gt_of_ne h with negative | positive
  · rw [Int.compare_eq_lt.mpr negative, decide_eq_true negative]
    refine Int.compare_eq_lt.mpr ?_
    simp only [key]
    omega
  · rw [Int.compare_eq_gt.mpr positive, decide_eq_false (Int.not_lt.mpr (Int.le_of_lt positive))]
    refine Int.compare_eq_gt.mpr ?_
    simp only [key]
    omega

/-- The difference of finite doubles lies on the side of zero that their order says.  Only the positive
zero less the negative one, which is below it, is zero. -/
theorem compare_sub {x y : Double} (left : x.isFinite = true) (right : y.isFinite = true)
    (other : y ≠ zero true) : (x - y).compare (zero false) = x.compare y := by
  cases x with
  | nan => cases left
  | ranked s r hr =>
    cases y with
    | nan => cases right
    | ranked t q hq =>
      rw [sub_of_finite left right, compare_eq_compareNumbers (ranked s r hr), compareNumbers]
      rcases Int.lt_trichotomy (ranked s r hr).amount (ranked t q hq).amount with less | same | more
      · have total : (ranked s r hr).amount - (ranked t q hq).amount < 0 := Int.sub_neg_of_lt less
        rw [if_neg (Int.ne_of_lt total), compare_ofUnits_zero (Int.ne_of_lt total),
          Int.compare_eq_lt.mpr total, Int.compare_eq_lt.mpr less]
        rfl
      · -- Equal amounts differ in the sign of zero at most.
        obtain ⟨rfl, signs⟩ := eq_or_zero_of_amount_eq same
        rw [if_pos (Int.sub_eq_zero.mpr same), Int.compare_eq_eq.mpr same]
        cases s with
        | false =>
          cases t with
          | false => rfl
          | true =>
            have rank : r = 0 := signs.resolve_left Bool.false_ne_true
            subst rank
            exact absurd rfl other
        | true => cases t <;> rfl
      · have total : (ranked s r hr).amount - (ranked t q hq).amount > 0 := Int.sub_pos_of_lt more
        rw [if_neg (Int.ne_of_gt total), compare_ofUnits_zero (Int.ne_of_gt total),
          Int.compare_eq_gt.mpr total, Int.compare_eq_gt.mpr more]
        rfl

end Double

end Reckoner
