import Reckoner.Proofs.Value.Matching
import Reckoner.Proofs.Value.Negation
import Reckoner.Proofs.Value.Range

/-!
# Remainders of integers

`IsRemainder` says of an integer what a remainder of truncated division is: it is smaller than the divisor,
lies on the dividend's side of zero, and differs from the dividend by a multiple of the divisor.  There is one
such integer (`isRemainder_iff`), and it depends neither on the order at which the operands are matched nor on
the sign of the divisor.  It is never further from zero than the dividend, so that it fits wherever the
dividend does, also where the quotient would not (`rem_of_ints`).
-/

namespace Reckoner

namespace Value

/-! ## Remainders -/

/-- The integer `r` is left over when `m` is divided by `n` and the quotient is cut off at the point. -/
structure IsRemainder (m n r : Int) : Prop where
  smaller : r.natAbs < n.natAbs
  sign : r = 0 ∨ r.sign = m.sign
  divides : n ∣ m - r

section Integers

variable {m n r s : Int}

theorem isRemainder_tmod (m : Int) (h : n ≠ 0) : IsRemainder m n (Int.tmod m n) := by
  refine ⟨?_, ?_, Int.dvd_self_sub_tmod⟩
  · rw [Int.natAbs_tmod]
    exact Nat.mod_lt _ (Int.natAbs_pos.mpr h)
  · have sign := Int.sign_tmod m n
    split at sign
    · exact Or.inl (Int.sign_eq_zero_iff_zero.mp sign)
    · exact Or.inr sign

/-- A remainder does not lie beyond zero. -/
theorem IsRemainder.side (h : IsRemainder m n r) : (0 ≤ m → 0 ≤ r) ∧ (m ≤ 0 → r ≤ 0) := by
  rcases h.sign with rfl | same
  · exact ⟨fun _ => Int.le_refl 0, fun _ => Int.le_refl 0⟩
  · constructor
    · intro above
      rwa [← Int.sign_nonneg_iff, same, Int.sign_nonneg_iff]
    · intro below
      rwa [← Int.sign_nonpos_iff, same, Int.sign_nonpos_iff]

/-- Two remainders differ by a multiple of the divisor and by less than it. -/
theorem IsRemainder.unique (first : IsRemainder m n r) (second : IsRemainder m n s) : r = s := by
  have divides : n ∣ r - s := by
    have between : r - s = (m - s) - (m - r) := by omega
    rw [between]
    exact Int.dvd_sub second.divides first.divides
  have smaller : (r - s).natAbs < n.natAbs := by
    have left := first.smaller
    have right := second.smaller
    have one := first.side
    have other := second.side
    omega
  exact Int.sub_eq_zero.mp (Int.eq_zero_of_dvd_of_natAbs_lt_natAbs divides smaller)

theorem isRemainder_iff (h : n ≠ 0) : IsRemainder m n r ↔ r = Int.tmod m n := by
  constructor
  · intro remains
    exact remains.unique (isRemainder_tmod m h)
  · rintro rfl
    exact isRemainder_tmod m h

end Integers

/-! ## Remainders of values -/

section Values

variable {o p q : IntOrder} {m n k : Int}

/-- The remainder of operands that are matched as integers fits at the order where they are. -/
theorem rem_of_ints {a b : Value} {hm : o.Fits m} {hn : o.Fits n} (met : a.matchOrders b = .ints o m n hm hn)
    (h : n ≠ 0) : a.rem b = .ok (int o (Int.tmod m n) (IntOrder.fits_tmod hm n)) := by
  rw [rem, met]
  dsimp only
  rw [if_neg h, make, dif_pos]

/-- Values that are matched at an integer order are integers, and are matched as they are. -/
theorem ints_of_order {a b : Value} (met : (a.matchOrders b).order = .integer o) :
    ∃ p m hm q n hn left right, a = int p m hm ∧ b = int q n hn ∧ a.matchOrders b = .ints o m n left right := by
  have integers : (a.matchOrders b).order ≠ .double := by
    rw [met]
    exact nofun
  obtain ⟨p, q, o', m, n, hm, hn, left, right, rfl, rfl, matched⟩ := exists_ints_of_order_ne_double integers
  rw [matched] at met
  obtain rfl := Order.integer.inj met
  exact ⟨p, m, hm, q, n, hn, left, right, rfl, rfl, matched⟩

/-- A negation is the opposite integer, unless it is a double. -/
theorem eq_neg_of_neg {hn : q.Fits n} {hk : p.Fits k} (h : (int q n hn).neg = int p k hk) : k = -n := by
  rw [neg_eq (standsFor_int hn)] at h
  rcases firstFit_cases (-n) (-Double.ofInt n) ((int q n hn).homes.filter (·.isSigned)) with
    ⟨_, -, _, found⟩ | ⟨-, found⟩
  · rw [found] at h
    exact (int.inj h).2.symm
  · rw [found] at h
    cases h

/-- Of values that are matched at an integer order, the right one other than zero, the remainder is the one
integer that is left over, at that order.  The opposite divisor leaves the same integer. -/
theorem rem_truncates {a b : Value} (met : (a.matchOrders b).order = .integer o) :
    ∃ p m hm q n hn, a = int p m hm ∧ b = int q n hn ∧
      (n ≠ 0 → ∃ r, (∃ fits, a.rem b = .ok (int o r fits)) ∧
        (IsRemainder m n r ∧ ∀ s, IsRemainder m n s → s = r) ∧
        ∀ o', (a.matchOrders b.neg).order = .integer o' → ∃ fits, a.rem b.neg = .ok (int o' r fits)) := by
  obtain ⟨p, m, hm, q, n, hn, left, right, rfl, rfl, matched⟩ := ints_of_order met
  refine ⟨p, m, hm, q, n, hn, rfl, rfl, ?_⟩
  intro nonzero
  refine ⟨Int.tmod m n, ⟨_, rem_of_ints matched nonzero⟩, ⟨isRemainder_tmod m nonzero, ?_⟩, ?_⟩
  · intro s remains
    exact (isRemainder_iff nonzero).mp remains
  · intro o' opposite
    obtain ⟨p', m', hm', q', n', hn', left', right', dividend, divisor, matched'⟩ := ints_of_order opposite
    obtain ⟨rfl, rfl⟩ := int.inj dividend
    obtain rfl := eq_neg_of_neg divisor
    have remainder := rem_of_ints matched' (Int.neg_ne_zero.mpr nonzero)
    simp only [Int.tmod_neg] at remainder
    exact ⟨_, remainder⟩

theorem rem_truncates_least :
    let least := int .i128 (-170141183460469231731687303715884105728) (by decide)
    let ten := int .u64 10 (by decide)
    (least.matchOrders ten).order = .integer .i128 ∧
      ∃ r, IsRemainder (-170141183460469231731687303715884105728) 10 r ∧
        (∃ fits, least.rem ten = .ok (int .i128 r fits)) ∧
        ∃ fits, least.rem ten.neg = .ok (int .i128 r fits) := by
  intro least ten
  have met : (least.matchOrders ten).order = .integer .i128 := by decide +kernel
  have opposite : (least.matchOrders ten.neg).order = .integer .i128 := by decide +kernel
  refine ⟨met, ?_⟩
  obtain ⟨_, _, _, _, _, _, dividend, divisor, truncates⟩ := rem_truncates met
  obtain ⟨-, rfl⟩ := int.inj dividend
  obtain ⟨-, rfl⟩ := int.inj divisor
  obtain ⟨r, remainder, ⟨remains, -⟩, same⟩ := truncates (by decide)
  exact ⟨r, remains, remainder, same .i128 opposite⟩

end Values

end Value

end Reckoner
