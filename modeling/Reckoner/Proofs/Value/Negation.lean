import Reckoner.Proofs.Value.Climbing
import Reckoner.Proofs.Value.Strict

/-!
# Negation and magnitude

An operation on one integer climbs through its homes to the first one that holds the exact result
(`climbAlone_eq`).  A negation is sought at the homes that have a sign only, a magnitude at all of them, and
the one integer that a signed order holds without its opposite is the least one (`fits_neg_iff`,
`fits_natAbs_iff`).  So the results are known from the order and the integer (`negates_neg`,
`measures_abs`).

The way back from a negation may lead through other orders.  But an integer that has been negated exactly has
been so at one of its own homes, which holds it as the opposite of its opposite; and the sign of a double is
only turned (`same_neg_neg`).
-/

namespace Reckoner

namespace Value

variable {o : IntOrder} {n : Int} {v : Value}

/-- A value that stands for an integer climbs by itself through its homes, to the first one that holds the
exact result. -/
theorem climbAlone_eq (exact : Int → Int) (rounded : Double → Double) (h : v.StandsFor n) :
    climbAlone exact rounded v = firstFit (exact n) (rounded (.ofInt n)) v.homes := by
  fun_induction climbAlone exact rounded v with
  | case1 x =>
    obtain rfl := h
    rfl
  | case2 o m hm fits =>
    obtain rfl := h
    rw [homes_promote, firstFit_of_fits fits]
  | case3 o m hm fits ih =>
    obtain rfl := h
    rw [homes_promote, firstFit_of_not_fits fits]
    exact ih (standsFor_int hm).promote

/-- A negation is sought at the homes that have a sign. -/
theorem neg_eq (h : v.StandsFor n) :
    v.neg = firstFit (-n) (-Double.ofInt n) (v.homes.filter (·.isSigned)) := by
  rw [neg, climbAlone_eq _ _ h.promoteToSigned, homes_promoteToSigned]
  rfl

theorem neg_double (x : Double) : (double x).neg = double (-x) := by
  change climbAlone _ _ (double x) = _
  rw [climbAlone]
  rfl

/-- A magnitude is sought at all homes. -/
theorem abs_eq (h : v.StandsFor n) : v.abs = firstFit n.natAbs (Double.ofInt n).abs v.homes :=
  climbAlone_eq _ _ h

theorem abs_double (x : Double) : (double x).abs = double x.abs := by
  rw [abs, climbAlone]

/-- The negation of an integer is the opposite integer at some order, if the widest signed order holds
both. -/
theorem neg_int (h : o.Fits n) (within : n ≤ IntOrder.i128.high) (fits : IntOrder.i128.Fits (-n)) :
    ∃ p hp, (int o n h).neg = int p (-n) hp := by
  rw [neg_eq (standsFor_int h)]
  rcases firstFit_cases (-n) (-Double.ofInt n) ((int o n h).homes.filter (·.isSigned)) with
    ⟨p, -, hp, found⟩ | ⟨beyond, -⟩
  · exact ⟨p, hp, found⟩
  · have widest : o.rank ≤ IntOrder.i128.rank := by cases o <;> decide
    have home : IntOrder.i128 ∈ (int o n h).homes :=
      mem_homes_int.mpr ⟨widest, fits_i128 h fun _ => within⟩
    exact absurd fits (beyond _ (List.mem_filter.mpr ⟨home, rfl⟩))

/-! ## The order of a negation -/

/-- Of the integers at a signed order only the least one has no opposite there. -/
theorem fits_neg_iff (h : o.Fits n) (signed : o.isSigned = true) : o.Fits (-n) ↔ n ≠ o.low := by
  cases o with
  | u64 | u128 => cases signed
  | i64 | i128 =>
    simp only [IntOrder.Fits, IntOrder.low, IntOrder.high] at h ⊢
    omega

/-- Is the negation of the integer an integer of 64 bits? -/
def NegatesNarrow (o : IntOrder) (n : Int) : Prop :=
  o.isSigned = false ∧ n ≤ IntOrder.i64.high ∨ o = .i64 ∧ n ≠ IntOrder.i64.low

/-- Is the negation of the integer an integer of 128 bits? -/
def NegatesWide (o : IntOrder) (n : Int) : Prop :=
  o.isSigned = false ∧ IntOrder.i64.high < n ∧ n ≤ IntOrder.i128.high ∨
    o = .i64 ∧ n = IntOrder.i64.low ∨ o = .i128 ∧ n ≠ IntOrder.i128.low

/-- The value is the negation of the integer `n` at the order `o`: the opposite integer at a signed order, or
the opposite of the nearest double. -/
structure Negates (o : IntOrder) (n : Int) (v : Value) : Prop where
  narrow : NegatesNarrow o n → ∃ fits, v = int .i64 (-n) fits
  wide : NegatesWide o n → ∃ fits, v = int .i128 (-n) fits
  rounded : ¬ NegatesNarrow o n → ¬ NegatesWide o n → v = double (-Double.ofInt n)

/-- The homes with a sign of an integer at an order without one. -/
theorem signed_homes_of_unsigned (h : o.Fits n) (unsigned : o.isSigned = false) :
    (int o n h).homes.filter (·.isSigned) = signedHomes n := by
  cases o with
  | u64 =>
    rw [homes_u64]
    exact filter_isSigned_signedHomes n
  | u128 =>
    rw [homes_u128]
    exact filter_isSigned_signedHomes n
  | i64 | i128 => cases unsigned

/-- Without a sign the size alone decides. -/
theorem negates_of_unsigned (h : o.Fits n) (unsigned : o.isSigned = false) :
    Negates o n (int o n h).neg := by
  have least := nonneg_of_unsigned h unsigned
  have other : o ≠ .i64 ∧ o ≠ .i128 := by
    refine ⟨?_, ?_⟩ <;>
    · rintro rfl
      cases unsigned
  rw [neg_eq (standsFor_int h), signed_homes_of_unsigned h unsigned, signedHomes]
  refine ⟨fun narrow => ?_, fun wide => ?_, fun notNarrow notWide => ?_⟩
  · have within := (narrow.resolve_right fun own => other.1 own.1).2
    have fits : IntOrder.i64.Fits (-n) := by
      simp only [IntOrder.Fits, IntOrder.low, IntOrder.high] at within ⊢
      omega
    rw [if_pos within]
    exact ⟨fits, firstFit_of_fits fits _ _⟩
  · obtain ⟨-, above, within⟩ := wide.resolve_right fun own => own.elim (other.1 ·.1) (other.2 ·.1)
    have fits : IntOrder.i128.Fits (-n) := by
      simp only [IntOrder.Fits, IntOrder.low, IntOrder.high] at within ⊢
      omega
    rw [if_neg (Int.not_le.mpr above), if_pos within]
    exact ⟨fits, firstFit_of_fits fits _ _⟩
  · have above : ¬ n ≤ IntOrder.i64.high := fun within => notNarrow (Or.inl ⟨unsigned, within⟩)
    have beyond : ¬ n ≤ IntOrder.i128.high := fun within =>
      notWide (Or.inl ⟨unsigned, Int.not_le.mp above, within⟩)
    rw [if_neg above, if_neg beyond]
    rfl

theorem negates_of_i64 (h : IntOrder.i64.Fits n) : Negates .i64 n (int .i64 n h).neg := by
  have homes : (int .i64 n h).homes.filter (·.isSigned) = [.i64, .i128] := by
    rw [homes_i64]
    rfl
  rw [neg_eq (standsFor_int h), homes]
  by_cases least : n = IntOrder.i64.low
  · have narrow : ¬ IntOrder.i64.Fits (-n) := fun fits => (fits_neg_iff h rfl).mp fits least
    have fits : IntOrder.i128.Fits (-n) := by
      rw [least]
      decide
    rw [firstFit_of_not_fits narrow, firstFit_of_fits fits]
    refine ⟨fun own => ?_, fun _ => ⟨fits, rfl⟩, fun _ other => ?_⟩
    · exact absurd least (own.resolve_left nofun).2
    · exact absurd (Or.inr (Or.inl ⟨rfl, least⟩)) other
  · have fits : IntOrder.i64.Fits (-n) := (fits_neg_iff h rfl).mpr least
    rw [firstFit_of_fits fits]
    refine ⟨fun _ => ⟨fits, rfl⟩, fun wide => ?_, fun other => ?_⟩
    · rcases wide with ⟨unsigned, -⟩ | ⟨-, own⟩ | ⟨order, -⟩
      · cases unsigned
      · exact absurd own least
      · cases order
    · exact absurd (Or.inr ⟨rfl, least⟩) other

theorem negates_of_i128 (h : IntOrder.i128.Fits n) : Negates .i128 n (int .i128 n h).neg := by
  have homes : (int .i128 n h).homes.filter (·.isSigned) = [.i128] := by
    rw [homes_i128]
    rfl
  rw [neg_eq (standsFor_int h), homes]
  refine ⟨fun narrow => ?_, fun wide => ?_, fun _ notWide => ?_⟩
  · rcases narrow with ⟨unsigned, -⟩ | ⟨order, -⟩
    · cases unsigned
    · cases order
  · have inside : n ≠ IntOrder.i128.low := by
      rcases wide with ⟨unsigned, -⟩ | ⟨order, -⟩ | ⟨-, inside⟩
      · cases unsigned
      · cases order
      · exact inside
    have fits : IntOrder.i128.Fits (-n) := (fits_neg_iff h rfl).mpr inside
    exact ⟨fits, firstFit_of_fits fits _ _⟩
  · have beyond : ¬ IntOrder.i128.Fits (-n) := fun fits =>
      notWide (Or.inr (Or.inr ⟨rfl, (fits_neg_iff h rfl).mp fits⟩))
    rw [firstFit_of_not_fits beyond]
    rfl

theorem negates_neg (h : o.Fits n) : Negates o n (int o n h).neg := by
  cases o with
  | u64 | u128 => exact negates_of_unsigned h rfl
  | i64 => exact negates_of_i64 h
  | i128 => exact negates_of_i128 h

/-! ## The order of a magnitude -/

/-- The value is the magnitude of the integer `n` at the order `o`, which is at the order itself but for the
least integers of the signed orders. -/
structure Measures (o : IntOrder) (n : Int) (v : Value) : Prop where
  own : ¬ (o.isSigned = true ∧ n = o.low) → ∃ fits, v = int o n.natAbs fits
  wide : o = .i64 → n = IntOrder.i64.low → ∃ fits, v = int .i128 n.natAbs fits
  rounded : o = .i128 → n = IntOrder.i128.low → v = double (Double.ofInt n).abs

theorem fits_natAbs_iff (h : o.Fits n) : o.Fits n.natAbs ↔ ¬ (o.isSigned = true ∧ n = o.low) := by
  cases o with
  | u64 | u128 =>
    simp only [IntOrder.Fits, IntOrder.low, IntOrder.high, IntOrder.isSigned, Bool.false_eq_true,
      false_and, not_false_eq_true, iff_true] at h ⊢
    omega
  | i64 | i128 =>
    simp only [IntOrder.Fits, IntOrder.low, IntOrder.high, IntOrder.isSigned, true_and] at h ⊢
    omega

theorem measures_abs (h : o.Fits n) : Measures o n (int o n h).abs := by
  rw [abs_eq (standsFor_int h), homes_promote]
  refine ⟨fun inside => ?_, fun order least => ?_, fun order least => ?_⟩
  · have fits := (fits_natAbs_iff h).mpr inside
    exact ⟨fits, firstFit_of_fits fits _ _⟩
  · subst order least
    have fits : IntOrder.i128.Fits IntOrder.i64.low.natAbs := by decide
    rw [firstFit_of_not_fits (by decide)]
    exact ⟨fits, firstFit_of_fits fits _ _⟩
  · subst order least
    rw [firstFit_of_not_fits (by decide)]
    rfl

/-! ## Twice -/

/-- The negation of a negation is the same number again, though perhaps at another order. -/
theorem same_neg_neg (v : Value) : v.neg.neg.same v = true := by
  cases v with
  | double x =>
    have turned : - -x = x := Double.neg_neg x
    rw [neg_double, neg_double, turned, same, compare_self]
    rfl
  | int o n h =>
    rcases firstFit_cases (-n) (-Double.ofInt n) ((int o n h).homes.filter (·.isSigned)) with
      ⟨q, mem, fits, found⟩ | ⟨-, found⟩
    · obtain ⟨home, signed⟩ := List.mem_filter.mp mem
      have own : q.Fits n := (mem_homes_int.mp home).2
      have back : q.Fits (- -n) := by rwa [Int.neg_neg]
      rw [neg_eq (standsFor_int h), found, neg_eq (standsFor_int fits), homes_promote,
        List.filter_cons_of_pos signed, firstFit_of_fits back]
      simp only [Int.neg_neg]
      exact same_int own h
    · have turned : - -Double.ofInt n = Double.ofInt n := Double.neg_neg _
      rw [neg_eq (standsFor_int h), found, neg_double, turned]
      exact same_double_ofInt h

/-- A magnitude is its own magnitude. -/
theorem abs_of_abs (v : Value) : v.abs.abs = v.abs := by
  cases v with
  | double x => rw [abs_double, abs_double, Double.abs_abs]
  | int o n h =>
    rcases firstFit_cases n.natAbs (Double.ofInt n).abs (int o n h).homes with
      ⟨q, -, fits, found⟩ | ⟨-, found⟩
    · have again : q.Fits (n.natAbs : Int).natAbs := fits
      rw [abs_eq (standsFor_int h), found, abs_eq (standsFor_int fits), homes_promote,
        firstFit_of_fits again]
      rfl
    · rw [abs_eq (standsFor_int h), found, abs_double, Double.abs_abs]

/-- Negation and magnitude of an integer are exact and promote as little as they have to.  Of all values,
doubles included, the second negation is the same number as the value, and the second magnitude strictly the
same as the first one. -/
theorem neg_abs_promote (h : o.Fits n) :
    (PrefixOp.negate.apply (int o n h) = .ok (int o n h).neg ∧ Negates o n (int o n h).neg) ∧
    (Function.abs.apply (int o n h) = .ok (int o n h).abs ∧ Measures o n (int o n h).abs) ∧
    ∀ v : Value, v.neg.neg.same v = true ∧ v.abs.abs.strictSame v.abs = true := by
  refine ⟨⟨rfl, negates_neg h⟩, ⟨rfl, measures_abs h⟩, fun v => ⟨same_neg_neg v, ?_⟩⟩
  exact strictSame_eq_true_iff.mpr (abs_of_abs v)

theorem neg_abs_promote_least :
    let least := int .i64 (-9223372036854775808) (by decide)
    (PrefixOp.negate.apply least = .ok least.neg ∧ Negates .i64 (-9223372036854775808) least.neg) ∧
    (Function.abs.apply least = .ok least.abs ∧ Measures .i64 (-9223372036854775808) least.abs) ∧
    ∀ v : Value, v.neg.neg.same v = true ∧ v.abs.abs.strictSame v.abs = true :=
  neg_abs_promote _

end Value

end Reckoner
