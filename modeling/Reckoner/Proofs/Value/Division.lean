import Reckoner.Proofs.Value.Comparing
import Reckoner.Value.Arithmetic

/-!
# Division by an integer zero

A zero is looked for only where the operands have been matched as integers (`div_of_not_apart`,
`rem_of_not_apart`).  So a zero at a signed order goes unnoticed under a dividend beyond the signed
orders, because both are matched as doubles, and under no other dividend (`apart_zero_iff`).
-/

namespace Reckoner

namespace Double

/-- A finite double other than the zeros is infinite when divided by one. -/
theorem ranked_div_zero {s t : Bool} {r : Nat} {hr : r ≤ infinityRank} (above : r ≠ 0)
    (below : r ≠ infinityRank) : ranked s r hr / zero t = infinity (s ^^ t) := by
  have finite : (0 : Nat) ≠ infinityRank := by decide
  change Double.div _ _ = _
  rw [zero, Double.div, if_neg below, if_neg finite, if_pos rfl, if_neg above]

theorem ranked_rem_zero {s t : Bool} {r : Nat} {hr : r ≤ infinityRank} :
    (ranked s r hr).rem (zero t) = .nan := by
  rw [zero, rem, if_pos (Or.inr rfl)]

theorem floor_infinity (s : Bool) : (infinity s).floor = infinity s := by
  rw [infinity, floor, roundWhole, if_pos rfl]

end Double

namespace Value

section Integers

variable {o p : IntOrder} {m n : Int}

theorem div_of_not_apart (hm : o.Fits m) (hn : p.Fits n) (near : ¬ Apart o p m n) :
    (int o m hm).div (int p n hn) =
      if n = 0 then .error (.calculation .divisionByZero) else .ok (.double (.ofInt m / .ofInt n)) := by
  obtain ⟨q, left, right, matched⟩ := matchOrders_of_not_apart hm hn near
  rw [div, matched]

theorem rem_of_not_apart (hm : o.Fits m) (hn : p.Fits n) (near : ¬ Apart o p m n) :
    ∃ q, (int o m hm).rem (int p n hn) =
      if n = 0 then .error (.calculation .divisionByZero) else make q (Int.tmod m n) := by
  obtain ⟨q, left, right, matched⟩ := matchOrders_of_not_apart hm hn near
  exact ⟨q, by rw [rem, matched]⟩

theorem div_of_apart (hm : o.Fits m) (hn : p.Fits n) (apart : Apart o p m n) :
    (int o m hm).div (int p n hn) = .ok (.double (.ofInt m / .ofInt n)) := by
  rw [div, matchOrders_of_apart hm hn apart]

theorem rem_of_apart (hm : o.Fits m) (hn : p.Fits n) (apart : Apart o p m n) :
    (int o m hm).rem (int p n hn) = .ok (.double ((Double.ofInt m).rem (.ofInt n))) := by
  rw [rem, matchOrders_of_apart hm hn apart]

/-! ## Zeros -/

/-- A positive integer divided by zero as doubles is infinite, and nothing remains of it. -/
theorem div_rem_ofInt_zero (fits : o.Fits m) (positive : 0 < m) :
    Double.ofInt m / Double.ofInt 0 = .infinity false ∧
      (Double.ofInt m).rem (Double.ofInt 0) = .nan := by
  have finite := Double.isFinite_ofInt fits
  rw [Double.ofInt_of_nonneg (Int.le_of_lt positive)] at finite ⊢
  rw [Double.ofInt_zero]
  have above := Nat.ne_of_gt (Double.integerRank_pos (Int.ne_of_gt positive))
  have below := Nat.ne_of_lt (of_decide_eq_true finite)
  exact ⟨Double.ranked_div_zero above below, Double.ranked_rem_zero⟩

theorem demote_infinity (s : Bool) :
    demote (.double (.infinity s)) = .ok (.double (.infinity s)) := by
  have endless : (!(Double.infinity s).isFinite) = true := by
    simp [Double.infinity, Double.isFinite]
  rw [demote, if_pos endless]

/-- The result is a refusal to divide by zero. -/
def IsRefused (result : Except Fault Value) : Prop :=
  ∃ e : CalcError, result = .error (.calculation e) ∧ e.message = "attempt to divide by 0"

/-- All divisions of a value by another one are refused. -/
structure RefusesDivision (a b : Value) : Prop where
  div : IsRefused (a.div b)
  floorDiv : IsRefused (a.floorDiv b)
  rem : IsRefused (a.rem b)

/-- A value is divided by another one as a positive double by zero. -/
structure DividesAsDouble (a b : Value) : Prop where
  div : a.div b = .ok (.double (.infinity false))
  floorDiv : a.floorDiv b = .ok (.double (.infinity false))
  rem : a.rem b = .ok (.double .nan)

/-- Which divisions by an integer zero are refused: all but those of an integer beyond the signed orders
by a zero at a signed order. -/
theorem division_by_zero (hm : o.Fits m) (hn : p.Fits 0) :
    (¬ (o = .u128 ∧ IntOrder.i128.high < m ∧ p.isSigned = true) →
      RefusesDivision (int o m hm) (int p 0 hn)) ∧
    (o = .u128 ∧ IntOrder.i128.high < m ∧ p.isSigned = true →
      DividesAsDouble (int o m hm) (int p 0 hn)) := by
  refine ⟨fun near => ?_, fun apart => ?_⟩
  · rw [← apart_zero_iff] at near
    have quotient := div_of_not_apart hm hn near
    obtain ⟨q, remainder⟩ := rem_of_not_apart hm hn near
    rw [if_pos rfl] at quotient remainder
    refine ⟨⟨_, quotient, rfl⟩, ⟨.divisionByZero, ?_, rfl⟩, ⟨_, remainder, rfl⟩⟩
    rw [floorDiv, quotient]
    rfl
  · have positive : 0 < m := Int.lt_trans (by decide) apart.2.1
    obtain ⟨infinite, nothing⟩ := div_rem_ofInt_zero hm positive
    have quotient := div_of_apart hm hn (apart_zero_iff.mpr apart)
    have remainder := rem_of_apart hm hn (apart_zero_iff.mpr apart)
    rw [infinite] at quotient
    rw [nothing] at remainder
    refine ⟨quotient, ?_, remainder⟩
    rw [floorDiv, quotient]
    change demote (.double (Double.infinity false).floor) = _
    rw [Double.floor_infinity, demote_infinity]

theorem division_by_zero_beyond :
    let limit := int .u128 170141183460469231731687303715884105727 (by decide)
    let beyond := int .u128 170141183460469231731687303715884105728 (by decide)
    let zero := int .i64 0 (by decide)
    RefusesDivision limit zero ∧ DividesAsDouble beyond zero :=
  ⟨(division_by_zero _ _).1 (by decide), (division_by_zero _ _).2 (by decide)⟩

end Integers

theorem not_isRefused_ok (v : Value) : ¬ IsRefused (.ok v) := fun ⟨_, refused, _⟩ => nomatch refused

/-- An integer beyond all signed ones meets a signed zero as a double, so division by it is not refused. -/
theorem division_by_zero_not_refused :
    let beyond := int .u128 170141183460469231731687303715884105728 (by decide)
    let zero := int .i64 0 (by decide)
    ¬ IsRefused (beyond.div zero) ∧ ¬ IsRefused (beyond.floorDiv zero) ∧
      ¬ IsRefused (beyond.rem zero) := by
  intro beyond zero
  have quotient : beyond.div zero = .ok (.double (.infinity false)) := by decide +kernel
  have floored : beyond.floorDiv zero = .ok (.double (.infinity false)) := by decide +kernel
  have remainder : beyond.rem zero = .ok (.double .nan) := by decide +kernel
  rw [quotient, floored, remainder]
  exact ⟨not_isRefused_ok _, not_isRefused_ok _, not_isRefused_ok _⟩

end Value

end Reckoner
