import Mathlib.Data.Nat.Prime.Basic
import Reckoner.Proofs.Double.Integral

/-!
# Quotients of integers

The quotient of two integers as doubles has been rounded three times, and its floor may miss that of the
exact quotient.  It does not where the dividend is small: an integer below `2^53` is a double itself, and
what has been rounded is off by no more than one part in `2^53` (`units_nearestRank_error`), so that the
quotient of such a dividend is off by less than one part in the divisor.  An exact quotient that is no
integer is at least that far from the next one, and hence stays between its neighbours; one that is an
integer is not rounded at all, because the divisors of a double are doubles (`units_nearestRank_of_dvd`).
Both together give the floor of the exact quotient (`fdiv_amount_div_of_lt`).
-/

namespace Reckoner

namespace Double

/-! ## Quantities that are doubles already -/

/-- Only the quotient counts for what is rounded. -/
theorem halfEven_mul_right (n d : Nat) {k : Nat} (h : 0 < k) : halfEven (n * k) (d * k) = halfEven n d := by
  have rests : compare (2 * (n % d * k)) (d * k) = compare (2 * (n % d)) d := by
    rw [← Nat.mul_assoc]
    rcases Nat.lt_trichotomy (2 * (n % d)) d with less | same | more
    · rw [Nat.compare_eq_lt.mpr less, Nat.compare_eq_lt.mpr (Nat.mul_lt_mul_of_pos_right less h)]
    · rw [same, Nat.compare_eq_eq.mpr rfl, Nat.compare_eq_eq.mpr rfl]
    · rw [Nat.compare_eq_gt.mpr more, Nat.compare_eq_gt.mpr (Nat.mul_lt_mul_of_pos_right more h)]
  simp only [halfEven, Nat.mul_div_mul_right n d h, Nat.mul_mod_mul_right, rests]

theorem nearestRank_mul_right (n d : Nat) {k : Nat} (h : 0 < k) :
    nearestRank (n * k) (d * k) = nearestRank n d := by
  simp only [nearestRank, Nat.mul_div_mul_right n d h, Nat.mul_right_comm d k, halfEven_mul_right _ _ h]

theorem nearestRank_mul_self (n : Nat) {d : Nat} (h : 0 < d) : nearestRank (n * d) d = nearestRank n 1 := by
  calc nearestRank (n * d) d = nearestRank (n * d) (1 * d) := by rw [Nat.one_mul]
    _ = nearestRank n 1 := nearestRank_mul_right n 1 h

/-- A short significand needs no greater exponent than it has. -/
theorem exponent_le {c p : Nat} (short : c < 2 * binade) : exponent (c * Nat.pow 2 p) 1 ≤ p := by
  rw [exponent, Nat.div_one]
  rcases Nat.eq_zero_or_pos c with rfl | positive
  · rw [Nat.zero_mul]
    exact Nat.zero_le p
  · have some : c * Nat.pow 2 p ≠ 0 := Nat.ne_of_gt (Nat.mul_pos positive (Nat.pow_pos (by decide)))
    have below : c * Nat.pow 2 p < Nat.pow 2 (53 + p) :=
      calc c * Nat.pow 2 p < 2 * binade * Nat.pow 2 p :=
            Nat.mul_lt_mul_of_pos_right short (Nat.pow_pos (by decide))
        _ = Nat.pow 2 (53 + p) := (Nat.pow_add 2 53 p).symm
    have digits : (c * Nat.pow 2 p).log2 < 53 + p := (Nat.log2_lt some).mpr below
    omega

/-- A short significand is rounded to itself, whatever its exponent. -/
theorem units_nearestRank_significand {c u p : Nat} (hu : u = Nat.pow 2 p) (short : c < 2 * binade)
    (finite : nearestRank (c * u) 1 < infinityRank) : units (nearestRank (c * u) 1) = c * u := by
  subst hu
  have least : exponent (c * Nat.pow 2 p) 1 ≤ p := exponent_le short
  rw [units_nearestRank finite, Nat.one_mul]
  generalize exponent (c * Nat.pow 2 p) 1 = s at least ⊢
  have split : c * Nat.pow 2 p = c * Nat.pow 2 (p - s) * Nat.pow 2 s := by
    rw [Nat.mul_assoc]
    exact congrArg (c * ·) (Nat.pow_sub_mul_pow 2 least).symm
  have positive : 0 < Nat.pow 2 s := Nat.pow_pos (by decide)
  rw [split, halfEven_mul _ positive]

theorem significand_lt (r : Nat) : significand r < 2 * binade := by
  have size : binade = 4503599627370496 := rfl
  unfold significand
  rw [size]
  split <;> omega

/-- What is not above a finite double is not rounded to infinity. -/
theorem nearestRank_lt_infinityRank {n d r : Nat} (positive : 0 < d) (inside : r < infinityRank)
    (h : n ≤ units r * d) : nearestRank n d < infinityRank := by
  calc nearestRank n d ≤ nearestRank (units r * d) d := nearestRank_mono d h
    _ = nearestRank (units r) 1 := nearestRank_mul_self _ positive
    _ ≤ nearestRank (units (infinityRank - 1)) 1 :=
      nearestRank_mono 1 (units_strictMono.monotone (Nat.le_sub_one_of_lt inside))
    _ < infinityRank := by decide +kernel

/-- The divisors of a double are doubles. -/
theorem units_nearestRank_of_dvd {k r : Nat} (inside : r < infinityRank) (some : units r ≠ 0)
    (h : k ∣ units r) : units (nearestRank k 1) = k := by
  have finite : nearestRank k 1 < infinityRank := by
    refine nearestRank_lt_infinityRank Nat.one_pos inside ?_
    rw [Nat.mul_one]
    exact Nat.le_of_dvd (Nat.pos_of_ne_zero some) h
  obtain ⟨c, power, divides, two, rfl⟩ := Nat.dvd_mul.mp h
  obtain ⟨p, -, rfl⟩ := (Nat.dvd_prime_pow Nat.prime_two).mp two
  have long : 0 < significand r := Nat.pos_of_ne_zero (left_ne_zero_of_mul some)
  exact units_nearestRank_significand rfl (Nat.lt_of_le_of_lt (Nat.le_of_dvd long divides) (significand_lt r)) finite

/-- A double is rounded to itself. -/
theorem nearestRank_units {r : Nat} (inside : r < infinityRank) : nearestRank (units r) 1 = r := by
  rcases Nat.eq_zero_or_pos (units r) with nothing | some
  · have first : r = 0 := units_strictMono.injective (nothing.trans units_zero.symm)
    rw [first, units_zero]
    exact nearestRank_zero
  · exact units_strictMono.injective (units_nearestRank_of_dvd inside (Nat.ne_of_gt some) (Nat.dvd_refl _))

/-! ## The error of rounding -/

/-- A natural number is rounded to from no further than a half. -/
theorem halfEven_error {n d : Nat} (positive : 0 < d) :
    2 * ((halfEven n d * d : Nat) - (n : Int)).natAbs ≤ d := by
  have split : d * (n / d) + n % d = n := Nat.div_add_mod n d
  have rest : n % d < d := Nat.mod_lt n positive
  have sides : halfEven n d = n / d ∧ 2 * (n % d) ≤ d ∨ halfEven n d = n / d + 1 ∧ d ≤ 2 * (n % d) := by
    unfold halfEven
    dsimp only
    rcases Nat.lt_trichotomy (2 * (n % d)) d with less | same | more
    · rw [Nat.compare_eq_lt.mpr less]
      exact Or.inl ⟨rfl, Nat.le_of_lt less⟩
    · -- A half goes either way.
      rw [Nat.compare_eq_eq.mpr same]
      rcases Nat.mod_two_eq_zero_or_one (n / d) with even | odd
      · exact Or.inl ⟨congrArg (n / d + ·) even, Nat.le_of_eq same⟩
      · exact Or.inr ⟨congrArg (n / d + ·) odd, Nat.le_of_eq same.symm⟩
    · rw [Nat.compare_eq_gt.mpr more]
      exact Or.inr ⟨rfl, Nat.le_of_lt more⟩
  rcases sides with ⟨same, small⟩ | ⟨next, large⟩
  · have whole : halfEven n d * d = d * (n / d) := by rw [same, Nat.mul_comm]
    omega
  · have whole : halfEven n d * d = d * (n / d) + d := by rw [next, Nat.add_mul, Nat.one_mul, Nat.mul_comm]
    omega

/-- A quotient with a significand of full length is off by one part in `2^53` at most. -/
theorem units_nearestRank_error {n d : Nat} (finite : nearestRank n d < infinityRank) (positive : 0 < d)
    (long : binade * d ≤ n) :
    2 * binade * ((units (nearestRank n d) * d : Nat) - (n : Int)).natAbs ≤ n := by
  have quotient : Nat.pow 2 52 ≤ n / d := (Nat.le_div_iff_mul_le positive).mpr long
  have some : n / d ≠ 0 := Nat.ne_of_gt (Nat.lt_of_lt_of_le (Nat.pow_pos (by decide)) quotient)
  have digits : 52 + exponent n d = (n / d).log2 := Nat.add_sub_cancel' ((Nat.le_log2 some).mpr quotient)
  have step : binade * (d * Nat.pow 2 (exponent n d)) ≤ n :=
    calc binade * (d * Nat.pow 2 (exponent n d))
      _ = binade * Nat.pow 2 (exponent n d) * d := by rw [Nat.mul_comm d, Nat.mul_assoc]
      _ = Nat.pow 2 (52 + exponent n d) * d := congrArg (· * d) (Nat.pow_add 2 52 _).symm
      _ = Nat.pow 2 (n / d).log2 * d := by rw [digits]
      _ ≤ n / d * d := Nat.mul_le_mul_right d (Nat.log2_self_le some)
      _ ≤ n := Nat.div_mul_le_self n d
  have grid : 0 < d * Nat.pow 2 (exponent n d) := Nat.mul_pos positive (Nat.pow_pos (by decide))
  have whole : units (nearestRank n d) * d =
      halfEven n (d * Nat.pow 2 (exponent n d)) * (d * Nat.pow 2 (exponent n d)) := by
    rw [units_nearestRank finite, Nat.mul_assoc, Nat.mul_comm (Nat.pow 2 _) d]
  rw [whole]
  calc 2 * binade * _ = binade * (2 * _) := by rw [Nat.mul_comm 2 binade, Nat.mul_assoc]
    _ ≤ binade * (d * Nat.pow 2 (exponent n d)) := Nat.mul_le_mul_left binade (halfEven_error grid)
    _ ≤ n := step

/-! ## Floors -/

theorem signed_false (u : Nat) : signed false u = u := rfl

theorem signed_true (u : Nat) : signed true u = -u := rfl

/-- The floor of a signed quotient: a negative one with a rest is moved on by one, away from zero. -/
theorem signed_fdiv (s : Bool) (u : Nat) {d : Nat} (h : 0 < d) :
    (signed s u).fdiv d = signed s (if s && u % d ≠ 0 then u / d + 1 else u / d) := by
  cases s with
  | false => exact (Int.ofNat_fdiv u d).symm
  | true =>
    change (-(u : Int)).fdiv d = -((if true && u % d ≠ 0 then u / d + 1 else u / d : Nat) : Int)
    rw [Int.neg_fdiv, ← Int.ofNat_fdiv]
    by_cases exact : u % d = 0
    · have divides : (d : Int) ∣ u := Int.natCast_dvd_natCast.mpr (Nat.dvd_of_mod_eq_zero exact)
      rw [if_pos (Or.inr divides), if_neg (by simp [exact]), Int.sub_zero]
    · have rest : ¬ ((d : Int) = 0 ∨ (d : Int) ∣ u) := by
        rw [Int.natCast_dvd_natCast, Nat.dvd_iff_mod_eq_zero]
        omega
      rw [if_neg rest, if_pos (by simp [exact]), Int.natCast_add, Int.neg_add]
      rfl

theorem signed_mul (s : Bool) (u d : Nat) : signed s (u * d) = signed s u * d := by
  cases s with
  | false => exact Int.natCast_mul u d
  | true => exact (congrArg Int.neg (Int.natCast_mul u d)).trans (Int.neg_mul u d).symm

/-- The sign of a quotient is that of the product. -/
theorem signed_fdiv_signed (s t : Bool) (u d : Nat) :
    (signed s u).fdiv (signed t d) = (signed (s ^^ t) u).fdiv d := by
  cases t with
  | false => rw [Bool.xor_false]; rfl
  | true =>
    cases s with
    | false => exact (Int.neg_fdiv_neg u (-d)).symm.trans (by rw [Int.neg_neg]; rfl)
    | true => exact Int.neg_fdiv_neg u d

/-- Only a double with a short whole part has something behind it. -/
theorem div_lt_binade {r u p : Nat} (hu : u = Nat.pow 2 p) (rest : units r % u ≠ 0) :
    units r / u < binade := by
  have narrow : shift r < p := by
    by_contra wide
    refine rest (Nat.mod_eq_zero_of_dvd ?_)
    rw [hu]
    exact Nat.dvd_mul_left_of_dvd (Nat.pow_dvd_pow 2 (Nat.not_lt.mp wide)) _
  have positive : 0 < u := by
    rw [hu]
    exact Nat.pow_pos (by decide)
  refine (Nat.div_lt_iff_lt_mul positive).mpr ?_
  calc units r = significand r * Nat.pow 2 (shift r) := rfl
    _ ≤ significand r * Nat.pow 2 (p - 1) :=
      Nat.mul_le_mul_left _ (Nat.pow_le_pow_right (by decide) (Nat.le_sub_one_of_lt narrow))
    _ < 2 * binade * Nat.pow 2 (p - 1) :=
      Nat.mul_lt_mul_of_pos_right (significand_lt r) (Nat.pow_pos (by decide))
    _ = binade * (Nat.pow 2 (p - 1) * 2) := by rw [Nat.mul_comm 2 binade, Nat.mul_assoc, Nat.mul_comm 2]
    _ = binade * u := by
      rw [hu]
      exact congrArg (binade * ·) (Nat.pow_pred_mul (Nat.zero_lt_of_lt narrow))

/-- An integer below `2^53` is a double. -/
theorem units_nearestRank_of_lt {k : Nat} (short : k < 2 * binade) :
    nearestRank (k * one) 1 < infinityRank ∧ units (nearestRank (k * one) 1) = k * one := by
  have finite : nearestRank (k * one) 1 < infinityRank :=
    Nat.lt_of_le_of_lt (nearestRank_mono 1 (Nat.mul_le_mul_right one (Nat.le_of_lt short))) (by decide +kernel)
  obtain ⟨p, power⟩ := exists_one_eq_pow
  exact ⟨finite, units_nearestRank_significand power short finite⟩

/-- A whole part that is kept is the double itself, and one that is moved on is short, so that neither is
rounded again. -/
theorem units_nearestRank_whole {r k : Nat} (inside : r < infinityRank)
    (near : k = units r / one ∨ k = units r / one + 1 ∧ units r % one ≠ 0) :
    nearestRank (k * one) 1 < infinityRank ∧ units (nearestRank (k * one) 1) = k * one := by
  by_cases rest : units r % one = 0
  · have kept : k * one = units r := by
      rcases near with rfl | ⟨-, some⟩
      · exact Nat.div_mul_cancel (Nat.dvd_of_mod_eq_zero rest)
      · exact absurd rest some
    rw [kept, nearestRank_units inside]
    exact ⟨inside, rfl⟩
  · obtain ⟨p, power⟩ := exists_one_eq_pow
    have below := div_lt_binade power rest
    have size : 0 < binade := by decide
    have short : k < 2 * binade := by omega
    exact units_nearestRank_of_lt short

/-! ## Whole doubles -/

/-- The double is finite and equals the integer. -/
structure IsInteger (x : Double) (k : Int) : Prop where
  finite : x.isFinite = true
  amount_eq : x.amount = k * one

theorem IsInteger.truncated_eq {x : Double} {k : Int} (h : x.IsInteger k) :
    x.truncated = k ∧ x.fraction = 0 := by
  cases x with
  | nan => cases h.finite
  | ranked s r hr =>
    have whole : units r = k.natAbs * one := by
      rw [← natAbs_amount s hr, h.amount_eq, natAbs_mul_one]
    have scale : (one : Int) ≠ 0 := Int.natCast_ne_zero.mpr (Nat.ne_of_gt one_pos)
    rw [truncated, fraction, whole, Nat.mul_div_cancel _ one_pos, Nat.mul_mod_left]
    refine ⟨Int.eq_of_mul_eq_mul_right scale ?_, rfl⟩
    rw [← signed_mul, ← whole]
    exact h.amount_eq

section Rounding

variable {up : Bool → Nat → Bool} {s : Bool} {r : Nat} {hr : r ≤ infinityRank} {x : Double}

theorem roundWhole_ranked (inside : r < infinityRank) :
    roundWhole up (ranked s r hr) =
      ofRatio s ((if up s (units r % one) then units r / one + 1 else units r / one) * one) 1 := by
  rw [roundWhole, if_neg (Nat.ne_of_lt inside)]

/-- A rounding that leaves whole parts without a rest alone gives the integer that it rounds to. -/
theorem isInteger_roundWhole (settled : up s 0 = false) (inside : r < infinityRank) :
    (roundWhole up (ranked s r hr)).IsInteger
      (signed s (if up s (units r % one) then units r / one + 1 else units r / one)) := by
  rw [roundWhole_ranked inside]
  generalize chosen : (if up s (units r % one) then units r / one + 1 else units r / one) = whole
  have near : whole = units r / one ∨ whole = units r / one + 1 ∧ units r % one ≠ 0 := by
    by_cases moved : up s (units r % one) = true
    · rw [if_pos moved] at chosen
      refine Or.inr ⟨chosen.symm, fun none => ?_⟩
      rw [none, settled] at moved
      cases moved
    · rw [if_neg moved] at chosen
      exact Or.inl chosen.symm
  obtain ⟨finite, exact⟩ := units_nearestRank_whole inside near
  refine ⟨decide_eq_true finite, ?_⟩
  change signed s (units (nearestRank (whole * one) 1)) = _
  rw [exact, signed_mul]

/-- The floor of a finite double is the greatest integer not above its amount. -/
theorem isInteger_floor (finite : x.isFinite = true) : x.floor.IsInteger (x.amount.fdiv one) := by
  cases x with
  | nan => cases finite
  | ranked s r hr =>
    rw [amount, signed_fdiv s _ one_pos]
    exact isInteger_roundWhole (by simp) (of_decide_eq_true finite)

end Rounding

/-! ## Integers as doubles -/

/-- The integer is a double itself. -/
def IsExact (n : Int) : Prop := (ofInt n).amount = n * one

theorem signed_natAbs (n : Int) : signed (decide (n < 0)) n.natAbs = n := by
  rcases Int.lt_or_le n 0 with negative | nonneg
  · rw [decide_eq_true negative]
    change -(n.natAbs : Int) = n
    omega
  · rw [decide_eq_false (Int.not_lt.mpr nonneg)]
    exact Int.natAbs_of_nonneg nonneg

theorem ofInt_eq (n : Int) : ofInt n = ranked (decide (n < 0)) (integerRank n) (integerRank_le n) := by
  rcases Int.lt_or_le n 0 with negative | nonneg
  · rw [ofInt_of_neg negative, decide_eq_true negative]
  · rw [ofInt_of_nonneg nonneg, decide_eq_false (Int.not_lt.mpr nonneg)]

theorem integerRank_eq (n : Int) : integerRank n = nearestRank (n.natAbs * one) 1 := by
  rw [integerRank, natAbs_mul_one]

theorem isFinite_ofInt_iff {n : Int} : (ofInt n).isFinite = true ↔ integerRank n < infinityRank := by
  rw [ofInt_eq]
  exact decide_eq_true_iff

theorem isExact_iff {n : Int} : IsExact n ↔ units (integerRank n) = n.natAbs * one := by
  constructor
  · intro exact
    have amounts : (ofInt n).amount = n * one := exact
    rw [← natAbs_mul_one, ← amounts, ofInt_eq, natAbs_amount]
  · intro exact
    rw [IsExact, ofInt_eq, amount, exact, signed_mul, signed_natAbs]

theorem isExact_of_lt {n : Int} (short : n.natAbs < 2 * binade) : IsExact n := by
  rw [isExact_iff, integerRank_eq]
  exact (units_nearestRank_of_lt short).2

section Quotients

variable {o p : IntOrder} {m n : Int}

theorem integerRank_lt_of_fits (h : o.Fits n) : integerRank n < infinityRank :=
  isFinite_ofInt_iff.mp (isFinite_ofInt h)

/-- The units of a rounded integer are whole ones. -/
theorem exists_units_integerRank (h : o.Fits n) : ∃ k, units (integerRank n) = k * one := by
  have finite := integerRank_lt_of_fits h
  rw [integerRank_eq] at finite ⊢
  obtain ⟨k, whole⟩ := one_dvd_units_nearestRank finite
  exact ⟨k, whole.trans (Nat.mul_comm _ _)⟩

/-- The rank of the quotient of two integers as doubles. -/
def quotientRank (m n : Int) : Nat := nearestRank (units (integerRank m) * one) (units (integerRank n))

theorem units_integerRank_pos (h : n ≠ 0) : 0 < units (integerRank n) := by
  rw [← units_zero]
  exact units_strictMono (integerRank_pos h)

theorem quotientRank_le (m n : Int) : quotientRank m n ≤ infinityRank := Nat.min_le_left ..

/-- A divisor is at least one, so that the quotient is no longer than the dividend. -/
theorem quotientRank_lt (hm : o.Fits m) (hn : p.Fits n) (h : n ≠ 0) : quotientRank m n < infinityRank := by
  obtain ⟨k, whole⟩ := exists_units_integerRank hn
  have positive := units_integerRank_pos h
  have least : one ≤ units (integerRank n) := by
    rw [whole] at positive ⊢
    exact Nat.le_mul_of_pos_left one (Nat.pos_of_mul_pos_right positive)
  exact nearestRank_lt_infinityRank positive (integerRank_lt_of_fits hm) (Nat.mul_le_mul_left _ least)

theorem div_ofInt (hm : o.Fits m) (hn : p.Fits n) (h : n ≠ 0) :
    ofInt m / ofInt n =
      ranked (decide (m < 0) ^^ decide (n < 0)) (quotientRank m n) (quotientRank_le m n) := by
  have left := Nat.ne_of_lt (integerRank_lt_of_fits hm)
  have right := Nat.ne_of_lt (integerRank_lt_of_fits hn)
  have some := Nat.ne_of_gt (integerRank_pos h)
  rw [ofInt_eq m, ofInt_eq n]
  change Double.div _ _ = _
  rw [Double.div, if_neg left, if_neg right, if_neg some]
  rfl

theorem isFinite_div_ofInt (hm : o.Fits m) (hn : p.Fits n) (h : n ≠ 0) :
    (ofInt m / ofInt n).isFinite = true := by
  rw [div_ofInt hm hn h]
  exact decide_eq_true (quotientRank_lt hm hn h)

/-- The floor is that of the exact quotient if the magnitudes have one whole part and both or neither have
a rest. -/
theorem fdiv_amount_of_whole (hm : o.Fits m) (hn : p.Fits n) (h : n ≠ 0)
    (whole : units (quotientRank m n) / one = m.natAbs / n.natAbs)
    (rest : units (quotientRank m n) % one = 0 ↔ m.natAbs % n.natAbs = 0) :
    (ofInt m / ofInt n).amount.fdiv one = m.fdiv n := by
  have exact : m.fdiv n = (signed (decide (m < 0) ^^ decide (n < 0)) m.natAbs).fdiv n.natAbs := by
    rw [← signed_fdiv_signed, signed_natAbs, signed_natAbs]
  rw [exact, div_ofInt hm hn h, amount, signed_fdiv _ _ one_pos, signed_fdiv _ _ (Int.natAbs_pos.mpr h), whole]
  simp only [rest, ne_eq]

/-- An exact quotient of a double is not rounded. -/
theorem units_quotientRank_mul {k : Int} (hm : o.Fits (n * k)) (h : n ≠ 0) (exact : IsExact (n * k)) :
    units (quotientRank (n * k) n) = k.natAbs * one := by
  have dividend : units (integerRank (n * k)) = k.natAbs * one * n.natAbs := by
    rw [isExact_iff.mp exact, Int.natAbs_mul, Nat.mul_comm n.natAbs, Nat.mul_right_comm]
  have positive := units_integerRank_pos h
  rcases Nat.eq_zero_or_pos (units (integerRank (n * k))) with none | some
  · have zero : k.natAbs * one = 0 :=
      (Nat.mul_eq_zero.mp (dividend.symm.trans none)).resolve_right (Int.natAbs_ne_zero.mpr h)
    have nothing : quotientRank (n * k) n = nearestRank 0 1 := by
      rw [quotientRank, none, ← nearestRank_mul_self 0 positive, Nat.zero_mul, Nat.zero_mul]
    rw [nothing, nearestRank_zero, units_zero, zero]
  · -- Divisor and quotient divide the dividend and are doubles with it.
    have exactly {c : Nat} (divides : c ∣ units (integerRank (n * k))) : units (nearestRank c 1) = c :=
      units_nearestRank_of_dvd (integerRank_lt_of_fits hm) (Nat.ne_of_gt some) divides
    have divisor : units (integerRank n) = n.natAbs * one := by
      rw [integerRank_eq]
      refine exactly ?_
      rw [dividend, Nat.mul_assoc, Nat.mul_comm one]
      exact Nat.dvd_mul_left _ _
    have product : units (integerRank (n * k)) * one = k.natAbs * one * units (integerRank n) := by
      rw [dividend, divisor, Nat.mul_assoc]
    rw [quotientRank, product, nearestRank_mul_self _ positive]
    refine exactly ?_
    rw [dividend]
    exact Nat.dvd_mul_right _ _

/-- The floor of the quotient of a double that the divisor divides is that of the exact quotient. -/
theorem fdiv_amount_div_of_dvd (hm : o.Fits m) (hn : p.Fits n) (h : n ≠ 0) (exact : IsExact m)
    (divides : n ∣ m) : (ofInt m / ofInt n).amount.fdiv one = m.fdiv n := by
  obtain ⟨k, rfl⟩ := divides
  have quotient := units_quotientRank_mul hm h exact
  have positive : 0 < n.natAbs := Int.natAbs_pos.mpr h
  refine fdiv_amount_of_whole hm hn h ?_ ?_
  · rw [quotient, Int.natAbs_mul, Nat.mul_div_cancel _ one_pos, Nat.mul_div_cancel_left _ positive]
  · rw [quotient, Int.natAbs_mul, Nat.mul_mod_left, Nat.mul_mod_right]

theorem natAbs_mod_ne_zero (rest : ¬ n ∣ m) : m.natAbs % n.natAbs ≠ 0 := by
  intro none
  exact rest (Int.natAbs_dvd_natAbs.mp (Nat.dvd_of_mod_eq_zero none))

/-- What lies between two neighbours is divided with a rest. -/
theorem div_mod_of_between {u d k : Nat} (above : k * d < u) (below : u < (k + 1) * d) :
    u / d = k ∧ u % d ≠ 0 := by
  have whole : u / d = k := Nat.div_eq_of_lt_le (Nat.le_of_lt above) below
  refine ⟨whole, fun none => ?_⟩
  have split := Nat.div_add_mod u d
  rw [whole, none, Nat.add_zero, Nat.mul_comm] at split
  omega

/-- An error below one part in the divisor does not lead across an integer. -/
theorem between_of_error {u m d k e : Nat} (above : k * d < m) (below : m < (k + 1) * d)
    (error : ((u * d : Nat) - ((m * e : Nat) : Int)).natAbs < e) : k * e < u ∧ u < (k + 1) * e := by
  have lower : (k * d + 1) * e ≤ m * e := Nat.mul_le_mul_right e above
  have upper : (m + 1) * e ≤ (k + 1) * d * e := Nat.mul_le_mul_right e below
  rw [Nat.add_mul, Nat.one_mul] at lower upper
  constructor
  · refine Nat.lt_of_mul_lt_mul_right (a := d) ?_
    rw [Nat.mul_right_comm]
    omega
  · refine Nat.lt_of_mul_lt_mul_right (a := d) ?_
    rw [Nat.mul_right_comm]
    omega

/-- The rounded divisor leaves a small dividend where it is. -/
theorem exists_between (hn : p.Fits n) (nonzero : n ≠ 0) (short : m.natAbs < 2 * binade) (rest : ¬ n ∣ m) :
    ∃ d, units (integerRank n) = d * one ∧ d ≤ Nat.pow 2 128 ∧
      m.natAbs / n.natAbs * d < m.natAbs ∧ m.natAbs < (m.natAbs / n.natAbs + 1) * d := by
  obtain ⟨d, divisor⟩ := exists_units_integerRank hn
  have remains : 0 < m.natAbs % n.natAbs := Nat.pos_of_ne_zero (natAbs_mod_ne_zero rest)
  have wide : d * one ≤ Nat.pow 2 128 * one := by
    calc d * one = units (integerRank n) := divisor.symm
      _ ≤ units (integerRank IntOrder.u128.high) :=
        units_strictMono.monotone (integerRank_mono (IntOrder.natAbs_le_of_fits hn))
      _ = Nat.pow 2 128 * one := by decide +kernel
  refine ⟨d, divisor, Nat.le_of_mul_le_mul_right wide one_pos, ?_⟩
  rcases Nat.lt_or_ge n.natAbs (2 * binade) with small | large
  · -- A small divisor has not been rounded.
    have same : d = n.natAbs :=
      Nat.eq_of_mul_eq_mul_right one_pos (divisor.symm.trans (isExact_iff.mp (isExact_of_lt small)))
    have split := Nat.div_add_mod m.natAbs n.natAbs
    have inside := Nat.mod_lt m.natAbs (Nat.pos_of_ne_zero (Int.natAbs_ne_zero.mpr nonzero))
    rw [same, Nat.add_mul, Nat.one_mul, Nat.mul_comm]
    omega
  · -- A large one is still above the dividend.
    have far : 2 * binade * one ≤ d * one := by
      calc 2 * binade * one ≤ units (integerRank (2 * binade : Nat)) := by decide +kernel
        _ ≤ units (integerRank n) := units_strictMono.monotone (integerRank_mono large)
        _ = d * one := divisor
    have above : m.natAbs < d := Nat.lt_of_lt_of_le short (Nat.le_of_mul_le_mul_right far one_pos)
    have less : m.natAbs < n.natAbs := Nat.lt_of_lt_of_le short large
    rw [Nat.mod_eq_of_lt less] at remains
    rw [Nat.div_eq_of_lt less, Nat.zero_mul, Nat.zero_add, Nat.one_mul]
    exact ⟨remains, above⟩

/-- The floor of the quotient of a small integer is that of the exact quotient. -/
theorem fdiv_amount_div_of_lt (hm : o.Fits m) (hn : p.Fits n) (h : n ≠ 0) (short : m.natAbs < 2 * binade) :
    (ofInt m / ofInt n).amount.fdiv one = m.fdiv n := by
  by_cases divides : n ∣ m
  · exact fdiv_amount_div_of_dvd hm hn h (isExact_of_lt short) divides
  · obtain ⟨d, divisor, wide, above, below⟩ := exists_between hn h short divides
    have positive : 0 < d := by
      refine Nat.pos_of_mul_pos_right (b := one) ?_
      rw [← divisor]
      exact units_integerRank_pos h
    have rank : quotientRank m n = nearestRank (m.natAbs * one) d := by
      rw [quotientRank, isExact_iff.mp (isExact_of_lt short), divisor, nearestRank_mul_right _ _ one_pos]
    have finite : nearestRank (m.natAbs * one) d < infinityRank := rank ▸ quotientRank_lt hm hn h
    have long : binade * d ≤ m.natAbs * one := by
      calc binade * d ≤ binade * Nat.pow 2 128 := Nat.mul_le_mul_left binade wide
        _ ≤ one := by decide +kernel
        _ ≤ m.natAbs * one := Nat.le_mul_of_pos_left one (Nat.zero_lt_of_lt above)
    -- The dividend is short, so the error stays below one part in the divisor.
    have error := units_nearestRank_error finite positive long
    have near : ((units (quotientRank m n) * d : Nat) - ((m.natAbs * one : Nat) : Int)).natAbs < one := by
      refine Nat.lt_of_mul_lt_mul_left (a := 2 * binade) ?_
      rw [rank]
      exact Nat.lt_of_le_of_lt error (Nat.mul_lt_mul_of_pos_right short one_pos)
    obtain ⟨lower, upper⟩ := between_of_error above below near
    obtain ⟨whole, moved⟩ := div_mod_of_between lower upper
    exact fdiv_amount_of_whole hm hn h whole (iff_of_false moved (natAbs_mod_ne_zero divides))

end Quotients

end Double

end Reckoner
