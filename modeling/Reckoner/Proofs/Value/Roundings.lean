import Reckoner.Proofs.Value.Narrowing
import Reckoner.Value.Rounding

/-!
# Roundings

A rounding of doubles keeps the whole part of a magnitude or moves it on by one, and the result is the
integer that the rounding is named for (`Rounding.isInteger_kernel`).  It leaves integers and doubles that
are not finite alone (`Rounding.kernel_of_isInteger`), so that one rounding undoes nothing of another.

A rounding of values then moves the double down to the first order that holds the integer, and none lower
does (`Lands`).  Where it ends, all roundings stay, and so does moving down once more (`Lands.apply`,
`Lands.demote`).
-/

namespace Reckoner

namespace Double

/-- The three roundings to integers. -/
inductive Rounding where
  | ceil
  | floor
  | round
deriving DecidableEq

namespace Rounding

/-- Is the whole part of a magnitude moved on, given the sign and the rest? -/
def movesOn : Rounding → Bool → Nat → Bool
  | ceil => fun s rest => !s && rest ≠ 0
  | floor => fun s rest => s && rest ≠ 0
  | round => fun _ rest => one ≤ 2 * rest

/-- The rounding of doubles. -/
def kernel : Rounding → Double → Double
  | ceil => Double.ceil
  | floor => Double.floor
  | round => Double.round

/-- So many units are rounded to the integer `k`: the least one not below them, the greatest one not above
them, or the nearest one, of two the one that is further from zero. -/
def Meets : Rounding → Int → Int → Prop
  | ceil, u, k => u ≤ k * one ∧ k * one < u + one
  | floor, u, k => k * one ≤ u ∧ u < k * one + one
  | round, u, k => 2 * (u - k * one).natAbs ≤ one ∧
      (2 * (u - k * one).natAbs = one → u.natAbs < (k * one).natAbs)

variable {x : Double} {k : Int}

theorem kernel_eq (r : Rounding) : r.kernel = roundWhole r.movesOn := by
  cases r <;> rfl

theorem movesOn_zero (r : Rounding) (s : Bool) : r.movesOn s 0 = false := by
  cases r <;> cases s <;> decide +kernel

/-- Moving on the whole part where a rounding says so leads to its integer. -/
theorem meets_signed (r : Rounding) (s : Bool) (u : Nat) :
    r.Meets (signed s u) (signed s (if r.movesOn s (u % one) then u / one + 1 else u / one)) := by
  have split : u / one * one + u % one = u := Nat.div_add_mod' u one
  have rest : u % one < one := Nat.mod_lt u one_pos
  generalize chosen : (if r.movesOn s (u % one) then u / one + 1 else u / one) = whole
  have scaled : signed s whole * one = signed s (whole * one) := (signed_mul s whole one).symm
  have reached : r.movesOn s (u % one) = true ∧ whole * one = u / one * one + one ∨
      ¬ r.movesOn s (u % one) = true ∧ whole * one = u / one * one := by
    by_cases moved : r.movesOn s (u % one) = true
    · rw [if_pos moved] at chosen
      exact Or.inl ⟨moved, by rw [← chosen, Nat.add_mul, Nat.one_mul]⟩
    · rw [if_neg moved] at chosen
      exact Or.inr ⟨moved, by rw [← chosen]⟩
  generalize u / one * one = least at split reached
  generalize u % one = beyond at split rest reached
  generalize whole * one = most at scaled reached
  -- Which side of zero the units are on decides what moving on means.
  cases s with
  | false =>
    rw [signed_false most] at scaled
    rw [signed_false u]
    cases r <;> simp only [Meets, scaled] <;> simp [movesOn] at reached <;> generalize one = d at * <;> omega
  | true =>
    rw [signed_true most] at scaled
    rw [signed_true u]
    cases r <;> simp only [Meets, scaled] <;> simp [movesOn] at reached <;> generalize one = d at * <;> omega

/-- A finite double is rounded to an integer. -/
theorem isInteger_kernel (r : Rounding) (finite : x.isFinite = true) :
    ∃ k, (r.kernel x).IsInteger k ∧ r.Meets x.amount k := by
  cases x with
  | nan => cases finite
  | ranked s rank bounded =>
    rw [kernel_eq]
    exact ⟨_, isInteger_roundWhole (r.movesOn_zero s) (of_decide_eq_true finite), r.meets_signed s _⟩

/-- A double that is not finite is not rounded. -/
theorem kernel_of_not_isFinite (r : Rounding) (infinite : x.isFinite = false) : r.kernel x = x := by
  rw [kernel_eq]
  cases x with
  | nan => rfl
  | ranked s rank bounded =>
    have last : rank = infinityRank :=
      Nat.le_antisymm bounded (Nat.not_lt.mp (of_decide_eq_false infinite))
    rw [roundWhole, if_pos last]

/-- An integer is not rounded, and keeps its sign. -/
theorem kernel_of_isInteger (r : Rounding) (whole : x.IsInteger k) : r.kernel x = x := by
  rw [kernel_eq]
  cases x with
  | nan => cases whole.finite
  | ranked s rank bounded =>
    have inside : rank < infinityRank := of_decide_eq_true whole.finite
    have nothing : units rank % one = 0 := whole.truncated_eq.2
    have kept : units rank / one * one = units rank := Nat.div_mul_cancel (Nat.dvd_of_mod_eq_zero nothing)
    have same : nearestRank (units rank) 1 = rank := nearestRank_units inside
    rw [roundWhole_ranked inside, nothing, movesOn_zero, if_neg Bool.false_ne_true, kept, ofRatio]
    simp only [same]

end Rounding

/-- An integer that is a double itself is this double. -/
theorem IsExact.isInteger {n : Int} {o : IntOrder} (exact : IsExact n) (fits : o.Fits n) :
    (ofInt n).IsInteger n :=
  ⟨isFinite_ofInt fits, exact⟩

end Double

namespace Value

open Double (Rounding)

/-- The rounding of values. -/
def applyRounding : Rounding → Value → Except Fault Value
  | .ceil => ceil
  | .floor => floor
  | .round => round

theorem applyRounding_eq (r : Rounding) : applyRounding r = roundBy r.kernel := by
  cases r <;> rfl

/-- Where a double comes down: at the first order that holds its integer; but it stays a double if it has
none, or one beyond all orders. -/
inductive Lands (x : Double) : Value → Prop where
  | infinite (h : x.isFinite = false) : Lands x (.double x)
  | beyond {k : Int} (whole : x.IsInteger k)
      (h : ¬ (IntOrder.i128.low ≤ k ∧ k ≤ IntOrder.u128.high)) : Lands x (.double x)
  | narrow {k : Int} {w : Value} (whole : x.IsInteger k) (h : w.IsNarrowest k) : Lands x w

variable {x : Double} {w : Value}

theorem demote_of_not_isFinite (infinite : x.isFinite = false) : demote (.double x) = .ok (.double x) := by
  rw [demote, infinite]
  rfl

/-- A double that has come down is demoted to where it is. -/
theorem Lands.demote_double (h : Lands x w) : demote (.double x) = .ok w := by
  cases h with
  | infinite infinite => exact demote_of_not_isFinite infinite
  | beyond whole outside =>
    rw [demote_of_isInteger whole, narrow?_of_beyond outside]
    rfl
  | narrow whole narrowest =>
    rw [demote_of_isInteger whole, narrow?_of_isNarrowest narrowest]
    rfl

/-- An integer, and a double without one, comes down somewhere. -/
theorem exists_lands (h : x.isFinite = true → ∃ k, x.IsInteger k) : ∃ w, Lands x w := by
  by_cases finite : x.isFinite = true
  · obtain ⟨k, whole⟩ := h finite
    by_cases within : IntOrder.i128.low ≤ k ∧ k ≤ IntOrder.u128.high
    · obtain ⟨w, -, narrowest⟩ := exists_isNarrowest within.1 within.2
      exact ⟨w, .narrow whole narrowest⟩
    · exact ⟨_, .beyond whole within⟩
  · exact ⟨_, .infinite (Bool.eq_false_of_not_eq_true finite)⟩

/-- Rounding leaves alone what has come down. -/
theorem Lands.apply (h : Lands x w) (r : Rounding) : applyRounding r w = .ok w := by
  rw [applyRounding_eq]
  have landed := h.demote_double
  cases h with
  | infinite infinite =>
    change Value.demote (.double (r.kernel x)) = _
    rwa [r.kernel_of_not_isFinite infinite]
  | beyond whole outside =>
    change Value.demote (.double (r.kernel x)) = _
    rwa [r.kernel_of_isInteger whole]
  | narrow whole narrowest =>
    obtain ⟨o, fits, rfl, -⟩ := narrowest
    rfl

/-- Demoting leaves alone what has come down. -/
theorem Lands.demote (h : Lands x w) : w.demote = .ok w := by
  have landed := h.demote_double
  cases h with
  | infinite infinite => exact landed
  | beyond whole outside => exact landed
  | narrow whole narrowest =>
    have found := narrow?_of_isNarrowest narrowest
    obtain ⟨o, fits, rfl, -⟩ := narrowest
    rw [Value.demote, found]
    rfl

/-- An integer is demoted to the first order that holds it, and so is the double that it is. -/
theorem exists_demote_int {o : IntOrder} {n : Int} (h : o.Fits n) :
    ∃ w, ofInt n = .ok w ∧ (int o n h).demote = .ok w ∧
      (Double.IsExact n → (int o n h).promoteToDouble.demote = .ok w) := by
  obtain ⟨p, hp, narrowed⟩ := exists_narrow?_eq_some h
  refine ⟨int p n hp, ?_, ?_, ?_⟩
  · rw [ofInt, narrowed]
  · rw [demote, narrowed]
    rfl
  · intro exact
    rw [promoteToDouble, toDouble, demote_of_isInteger (exact.isInteger h), narrowed]
    rfl

/-- Roundings leave integers alone.  A double is rounded to an integer, and comes down at the first order
that holds it; there all roundings leave it alone, and moving it down once more does too. -/
theorem roundings_land (r : Rounding) :
    (∀ (o : IntOrder) (n : Int) (h : o.Fits n), applyRounding r (int o n h) = .ok (int o n h) ∧
      ∃ w, ofInt n = .ok w ∧ (int o n h).demote = .ok w ∧
        (Double.IsExact n → (int o n h).promoteToDouble.demote = .ok w)) ∧
    ∀ x : Double, (x.isFinite = true → ∃ k, (r.kernel x).IsInteger k ∧ r.Meets x.amount k) ∧
      (x.isFinite = false → r.kernel x = x) ∧
      ∃ w, applyRounding r (.double x) = .ok w ∧ Lands (r.kernel x) w ∧ w.demote = .ok w ∧
        ∀ again : Rounding, applyRounding again w = .ok w := by
  constructor
  · intro o n h
    refine ⟨?_, exists_demote_int h⟩
    rw [applyRounding_eq]
    rfl
  · intro x
    have landing : ∃ w, Lands (r.kernel x) w := by
      refine exists_lands ?_
      intro finite
      by_cases inside : x.isFinite = true
      · obtain ⟨k, whole, -⟩ := r.isInteger_kernel inside
        exact ⟨k, whole⟩
      · rw [r.kernel_of_not_isFinite (Bool.eq_false_of_not_eq_true inside)] at finite
        exact absurd finite inside
    obtain ⟨w, lands⟩ := landing
    refine ⟨r.isInteger_kernel, r.kernel_of_not_isFinite, w, ?_, lands, lands.demote, lands.apply⟩
    rw [applyRounding_eq]
    exact lands.demote_double

example : applyRounding .ceil (.double (.zero true)) = .ok (int .u64 0 (by decide)) := by decide +kernel

end Value

end Reckoner
