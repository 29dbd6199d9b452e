import Reckoner.Proofs.Value.Division
import Reckoner.Proofs.Value.Narrowing
import Reckoner.Proofs.Value.Range

/-!
# Floored quotients

`floorDiv` divides doubles, floors the quotient and moves it down to the first order that holds it.  The
floor of a finite quotient is an integer, so the last step never fails, and the result is the floor of the
quotient of the nearest doubles (`floorDiv_int`).  That is the floor of the exact quotient just if rounding
has not led across an integer.  It has not for dividends below `2^53` and for dividends that are doubles and
multiples of the divisor (`floorDiv_floors`); but `2^53` divided by `2^53 + 1` gives one.
-/

namespace Reckoner

namespace Value

section Integers

variable {o p : IntOrder} {m n : Int}

/-- Integers divide as doubles, however they are matched, unless the divisor is zero. -/
theorem div_int (hm : o.Fits m) (hn : p.Fits n) (h : n ≠ 0) :
    (int o m hm).div (int p n hn) = .ok (.double (.ofInt m / .ofInt n)) := by
  by_cases apart : Apart o p m n
  · exact div_of_apart hm hn apart
  · rw [div_of_not_apart hm hn apart, if_neg h]

theorem floorDiv_of_div {a b : Value} {x : Double} (h : a.div b = .ok (.double x)) :
    a.floorDiv b = demote (.double x.floor) := by
  rw [floorDiv, h]
  rfl

/-- The floor of the quotient of two integers as doubles. -/
def floorOfDoubles (m n : Int) : Int := (Double.ofInt m / Double.ofInt n).amount.fdiv Double.one

theorem floorDiv_int (hm : o.Fits m) (hn : p.Fits n) (h : n ≠ 0) :
    (int o m hm).floorDiv (int p n hn) =
      .ok ((narrow? (floorOfDoubles m n)).getD (.double (Double.ofInt m / Double.ofInt n).floor)) := by
  have whole := Double.isInteger_floor (Double.isFinite_div_ofInt hm hn h)
  rw [floorDiv_of_div (div_int hm hn h), demote_of_isInteger whole, floorOfDoubles]

/-! ## Which integer is found -/

/-- A floor that is moved down, if it can be, is one integer in range just if it is that integer. -/
theorem narrow?_getD_eq_ofInt_iff {k : Int} {x : Double} (hk : o.Fits k) :
    .ok ((narrow? n).getD (.double x)) = ofInt k ↔ n = k := by
  obtain ⟨q, hq, narrowed⟩ := exists_narrow?_eq_some hk
  have target : ofInt k = .ok (int q k hq) := by rw [ofInt, narrowed]
  rw [target]
  constructor
  · intro same
    have found : (narrow? n).getD (.double x) = int q k hq := Except.ok.inj same
    cases search : narrow? n with
    | none =>
      rw [search] at found
      cases found
    | some v =>
      obtain ⟨r, hr, rfl⟩ := eq_int_of_narrow? search
      rw [search] at found
      exact (int.inj found).2
  · rintro rfl
    rw [narrowed]
    rfl

/-- The result of dividing an integer by another one and flooring the quotient. -/
structure FloorsQuotient (m n : Int) (result : Except Fault Value) : Prop where
  /-- The quotient of the nearest doubles is floored, and stays a double beyond the orders. -/
  floored : result =
    .ok ((narrow? (floorOfDoubles m n)).getD (.double (Double.ofInt m / Double.ofInt n).floor))
  /-- It is the floor of the exact quotient where both floors agree. -/
  exact_iff : IntOrder.i128.low ≤ m.fdiv n → m.fdiv n ≤ IntOrder.u128.high →
    (result = ofInt (m.fdiv n) ↔ floorOfDoubles m n = m.fdiv n)
  /-- Both floors agree for small dividends. -/
  short : m.natAbs < Nat.pow 2 53 → result = ofInt (m.fdiv n)
  /-- Both floors agree for multiples of the divisor that are doubles. -/
  divisible : Double.IsExact m → n ∣ m → IntOrder.i128.low ≤ m.fdiv n → m.fdiv n ≤ IntOrder.u128.high →
    result = ofInt (m.fdiv n)

/-- Integers are divided as doubles and the quotient is floored. -/
theorem floorDiv_floors (hm : o.Fits m) (hn : p.Fits n) (h : n ≠ 0) :
    FloorsQuotient m n ((int o m hm).floorDiv (int p n hn)) := by
  have result := floorDiv_int hm hn h
  have agree (least : IntOrder.i128.low ≤ m.fdiv n) (most : m.fdiv n ≤ IntOrder.u128.high) :
      (int o m hm).floorDiv (int p n hn) = ofInt (m.fdiv n) ↔ floorOfDoubles m n = m.fdiv n := by
    obtain ⟨q, hq⟩ := exists_fits least most
    rw [result]
    exact narrow?_getD_eq_ofInt_iff hq
  refine ⟨result, agree, ?_, ?_⟩
  · intro short
    have size : (m.fdiv n).natAbs < Nat.pow 2 53 := Nat.lt_of_le_of_lt (Int.natAbs_fdiv_le_natAbs m n) short
    simp only [Nat.pow_eq] at size
    refine (agree ?_ ?_).mpr (Double.fdiv_amount_div_of_lt hm hn h short)
    · simp only [IntOrder.low]
      omega
    · simp only [IntOrder.high]
      omega
  · intro exact divides least most
    exact (agree least most).mpr (Double.fdiv_amount_div_of_dvd hm hn h exact divides)

theorem floorDiv_floors_below :
    let greatest := int .i64 (-9007199254740991) (by decide)
    let rounded := int .u64 9007199254740993 (by decide)
    FloorsQuotient (-9007199254740991) 9007199254740993 (greatest.floorDiv rounded) ∧
      greatest.floorDiv rounded = ofInt (-1) :=
  ⟨floorDiv_floors _ _ (by decide), (floorDiv_floors _ _ (by decide)).short (by decide)⟩

/-- The floor of a quotient is taken of its nearest double, so an integer with more bits than a double is not
even divided by one exactly. -/
theorem floorDiv_not_exact :
    ¬ ∀ (o p : IntOrder) (m n : Int) (hm : o.Fits m) (hn : p.Fits n), n ≠ 0 →
      IntOrder.i128.low ≤ m.fdiv n → m.fdiv n ≤ IntOrder.u128.high →
        (int o m hm).floorDiv (int p n hn) = ofInt (m.fdiv n) := by
  intro exact
  have kept := exact .u64 .u64 9007199254740993 1 (by decide) (by decide) (by decide) (by decide) (by decide)
  have rounded : (int .u64 9007199254740993 (by decide)).floorDiv (int .u64 1 (by decide)) ≠
      ofInt ((9007199254740993 : Int).fdiv 1) := by decide +kernel
  exact rounded kept

end Integers

end Value

end Reckoner
