import Reckoner.Proofs.Double.Order

/-!
# Integral doubles

Rounding a double to an integer ends in one more rounding, that of the integer to the nearest double,
and the result is an integer again.  For that the units of a nearest rank are needed, not only their
order: they are the rounded significand times a power of two (`units_nearestRank`).  Where that power is
below the number of units in one, no digit of the integer is lost; where it is not, every significand
stands for an integer (`one_dvd_units_nearestRank`).  So a rounded double that is finite has nothing after
the point (`fraction_roundWhole`).
-/

namespace Reckoner

namespace Double

/-- Rounding a multiple of the divisor loses nothing. -/
theorem halfEven_mul (k : Nat) {d : Nat} (h : 0 < d) : halfEven (k * d) d = k := by
  have rest : compare (2 * 0) d = .lt := Nat.compare_eq_lt.mpr (by omega)
  simp only [halfEven, Nat.mul_mod_left, rest, Nat.mul_div_cancel k h]

/-- A significand of full length in the binade of its exponent, or the first one of the next binade. -/
theorem units_of_significand {s m : Nat} (least : binade ≤ m) (most : m ≤ 2 * binade) :
    units (s * binade + m) = m * Nat.pow 2 s := by
  have size : 0 < binade := by decide
  rw [units_of_le (Nat.le_trans least (Nat.le_add_left ..))]
  rcases Nat.lt_or_eq_of_le most with inside | next
  · have split : s * binade + m = (m - binade) + binade * (s + 1) := by
      rw [Nat.mul_add, Nat.mul_comm binade s]
      omega
    have short : m - binade < binade := by omega
    rw [split, Nat.add_mul_div_left _ _ size, Nat.div_eq_of_lt short, Nat.add_mul_mod_self_left,
      Nat.mod_eq_of_lt short, Nat.zero_add, Nat.add_sub_cancel, Nat.add_sub_cancel' least]
  · have split : s * binade + m = binade * (s + 2) := by
      rw [next, Nat.mul_add, Nat.mul_comm binade s, Nat.mul_comm binade 2]
    rw [split, Nat.mul_div_cancel_left _ size, Nat.mul_mod_right, Nat.add_zero, next]
    calc binade * Nat.pow 2 (s + 1) = binade * (Nat.pow 2 s * 2) := rfl
      _ = 2 * binade * Nat.pow 2 s := by rw [Nat.mul_comm (Nat.pow 2 s), ← Nat.mul_assoc, Nat.mul_comm binade]

/-- The units of a nearest finite rank: its significand, moved to its exponent. -/
theorem units_nearestRank {n d : Nat} (finite : nearestRank n d < infinityRank) :
    units (nearestRank n d) =
      halfEven n (d * Nat.pow 2 (exponent n d)) * Nat.pow 2 (exponent n d) := by
  have rank : nearestRank n d =
      exponent n d * binade + halfEven n (d * Nat.pow 2 (exponent n d)) := by
    rw [nearestRank_eq] at finite ⊢
    omega
  have most := halfEven_le_two_mul_binade n d
  rw [rank]
  rcases Nat.lt_or_ge (halfEven n (d * Nat.pow 2 (exponent n d))) binade with short | full
  · -- Only without an exponent is a significand short.
    have none : exponent n d = 0 := by
      by_contra some
      exact Nat.not_lt.mpr (binade_le_halfEven (Nat.pos_of_ne_zero some)) short
    rw [none] at short ⊢
    rw [Nat.zero_mul, Nat.zero_add, units_of_lt (by omega)]
    exact (Nat.mul_one _).symm
  · exact units_of_significand full most

/-- Rounding to a nearest double keeps a quantity a multiple of a power of two. -/
theorem dvd_units_nearestRank {u p k : Nat} (hu : u = Nat.pow 2 p)
    (finite : nearestRank (k * u) 1 < infinityRank) : u ∣ units (nearestRank (k * u) 1) := by
  rw [units_nearestRank finite, Nat.one_mul]
  generalize exponent (k * u) 1 = s
  rcases Nat.le_total s p with small | large
  · have power : u = Nat.pow 2 (p - s) * Nat.pow 2 s := hu.trans (Nat.pow_sub_mul_pow 2 small).symm
    have exact : halfEven (k * u) (Nat.pow 2 s) = k * Nat.pow 2 (p - s) := by
      rw [power, ← Nat.mul_assoc]
      exact halfEven_mul _ (Nat.pow_pos (by decide))
    rw [exact, Nat.mul_assoc, ← power]
    exact Nat.dvd_mul_left u k
  · rw [hu]
    exact Nat.dvd_mul_left_of_dvd (Nat.pow_dvd_pow 2 large) _

theorem exists_one_eq_pow : ∃ p, one = Nat.pow 2 p := by
  unfold one
  exact ⟨_, rfl⟩

/-- The double nearest to an integer is an integer. -/
theorem one_dvd_units_nearestRank {k : Nat} (finite : nearestRank (k * one) 1 < infinityRank) :
    one ∣ units (nearestRank (k * one) 1) := by
  obtain ⟨p, power⟩ := exists_one_eq_pow
  exact dvd_units_nearestRank power finite

/-- A rounded double that is finite has nothing after the point. -/
theorem fraction_roundWhole {up : Bool → Nat → Bool} {x : Double}
    (finite : (roundWhole up x).isFinite = true) : (roundWhole up x).fraction = 0 := by
  cases x with
  | nan => rfl
  | ranked s r hr =>
    simp only [roundWhole] at finite ⊢
    split
    case isTrue infinite =>
      rw [if_pos infinite] at finite
      exact absurd infinite (Nat.ne_of_lt (of_decide_eq_true finite))
    case isFalse inside =>
      rw [if_neg inside] at finite
      exact Nat.mod_eq_zero_of_dvd (one_dvd_units_nearestRank (of_decide_eq_true finite))

end Double

end Reckoner
