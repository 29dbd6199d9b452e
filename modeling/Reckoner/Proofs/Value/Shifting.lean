import Reckoner.Proofs.Value.Patterns
import Reckoner.Proofs.Value.Strict

/-!
# Shifts

A shift to the left multiplies by a power of two and keeps the residue class of the product
(`pattern_shiftLeft`), and an order holds one integer of each class.  A shift to the right is division by the
same power, rounded down (`shiftRight_eq_fdiv`).

Shifted to the left and back again, an integer is what it was just if the product fits
(`fdiv_eq_iff_fits`): what the division leaves over would else be a multiple of the modulus below the
power, and so nothing at all.
-/

namespace Reckoner

theorem two_pow_pos (k : Nat) : 0 < Int.pow 2 k := Int.pow_pos (by decide)

namespace IntOrder

variable {o : IntOrder} {m r : Int} {k : Nat}

/-- Patterns are shifted to the left by multiplication. -/
theorem pattern_shiftLeft (o : IntOrder) (m : Int) (k : Nat) :
    o.pattern m <<< k = o.pattern (m * Int.pow 2 k) := by
  have power : BitVec.ofInt o.width (Int.pow 2 k) = BitVec.twoPow o.width k := by
    have cast : Int.pow 2 k = ((2 ^ k : Nat) : Int) := (Int.natCast_pow 2 k).symm
    rw [cast, BitVec.ofInt_natCast]
    exact BitVec.eq_of_toNat_eq (by rw [BitVec.toNat_ofNat, BitVec.toNat_twoPow])
  rw [pattern, pattern, BitVec.ofInt_mul, power, BitVec.shiftLeft_eq_mul_twoPow]

/-- Shifts to the right round the quotient down. -/
theorem shiftRight_eq_fdiv (m : Int) (k : Nat) : m >>> k = m.fdiv (Int.pow 2 k) := by
  rw [Int.fdiv_eq_ediv_of_nonneg m (Int.le_of_lt (two_pow_pos k)), Int.shiftRight_eq_div_pow]
  exact congrArg (m / ·) (Int.natCast_pow 2 k)

/-- An integer in the residue class of a product by a power below the modulus has the other factor for its
quotient just if it is the product itself. -/
theorem fdiv_eq_iff_fits (hr : o.Fits r) (narrow : k < o.width)
    (congruent : Int.pow 2 o.width ∣ r - m * Int.pow 2 k) :
    r.fdiv (Int.pow 2 k) = m ↔ o.Fits (m * Int.pow 2 k) := by
  have positive := two_pow_pos k
  constructor
  · intro quotient
    have parts := Int.mul_fdiv_add_fmod r (Int.pow 2 k)
    have least := Int.fmod_nonneg_of_pos r positive
    have most := Int.fmod_lt_of_pos r positive
    have below : Int.pow 2 k < Int.pow 2 o.width := Int.pow_lt_pow_of_lt (by decide) narrow
    have left_over : r - m * Int.pow 2 k = r.fmod (Int.pow 2 k) := by
      rw [quotient, Int.mul_comm] at parts
      omega
    rw [left_over] at congruent
    have nothing : r.fmod (Int.pow 2 k) = 0 :=
      (Int.emod_eq_of_lt least (Int.lt_trans most below)).symm.trans
        (Int.emod_eq_zero_of_dvd congruent)
    have product : m * Int.pow 2 k = r := by omega
    rw [product]
    exact hr
  · intro fits
    rw [eq_of_dvd_sub hr fits congruent]
    exact Int.mul_fdiv_cancel m (Int.ne_of_gt positive)

end IntOrder

namespace Value

variable {o : IntOrder} {a k : Value} {m n : Int}

/-- What shifts by a count below the width result in. -/
structure Shifts (o : IntOrder) (a k : Value) (m n : Int) : Prop where
  /-- To the left: the one integer of the order in the residue class of the product. -/
  left : ∃ r h, a.shiftLeft k = .ok (int o r h) ∧
    Int.pow 2 o.width ∣ r - m * Int.pow 2 n.toNat ∧
    ∀ s, o.Fits s → Int.pow 2 o.width ∣ s - m * Int.pow 2 n.toNat → s = r
  /-- To the right: the quotient, rounded down. -/
  right : ∃ h, a.shiftRight k = .ok (int o (m.fdiv (Int.pow 2 n.toNat)) h)
  /-- To the left and back again: the promoted value, strictly, just if the product fits. -/
  restored : ∃ shifted back, a.shiftLeft k = .ok shifted ∧ shifted.shiftRight k = .ok back ∧
    (back.strictSame (a.matchOrders k).left = true ↔ o.Fits (m * Int.pow 2 n.toNat))

/-- A count below the width is a count. -/
theorem le_countLimit_of_lt (narrow : n < o.width) : n ≤ countLimit := by
  cases o <;> simp only [IntOrder.width, countLimit] at narrow ⊢ <;> omega

theorem shiftLeft_of_lt (meets : MeetAt o a k m n) (least : 0 ≤ n) (narrow : n < o.width) :
    ∃ r h, a.shiftLeft k = .ok (int o r h) ∧ Int.pow 2 o.width ∣ r - m * Int.pow 2 n.toNat := by
  refine ⟨_, o.fits_ofPattern (o.pattern m <<< n.toNat), ?_, ?_⟩
  · rw [shiftLeft, onCount_of_count meets least (le_countLimit_of_lt narrow), if_neg (by omega)]
    exact make_ofPattern o _
  · rw [← IntOrder.pattern_eq_iff, IntOrder.pattern_ofPattern, IntOrder.pattern_shiftLeft]

theorem shiftRight_of_lt (meets : MeetAt o a k m n) (least : 0 ≤ n) (narrow : n < o.width) :
    ∃ h, a.shiftRight k = .ok (int o (m.fdiv (Int.pow 2 n.toNat)) h) := by
  obtain ⟨hm, -, -⟩ := meets.matched
  have fits := IntOrder.fits_shiftRight hm n.toNat
  rw [IntOrder.shiftRight_eq_fdiv] at fits
  refine ⟨fits, ?_⟩
  rw [shiftRight, onCount_of_count meets least (le_countLimit_of_lt narrow), if_neg (by omega),
    IntOrder.shiftRight_eq_fdiv, make, dif_pos fits]

/-- Counts from the width on are refused, and so is what is no count. -/
theorem shift_of_wide (meets : MeetAt o a k m n) (wide : n < 0 ∨ o.width ≤ n) :
    a.shiftLeft k = .error (.calculation .overflow) ∧
      a.shiftRight k = .error (.calculation .overflow) := by
  by_cases counts : 0 ≤ n ∧ n ≤ countLimit
  · have beyond : o.width ≤ n.toNat := by omega
    constructor
    · rw [shiftLeft, onCount_of_count meets counts.1 counts.2, if_pos beyond]
    · rw [shiftRight, onCount_of_count meets counts.1 counts.2, if_pos beyond]
  · have wrong : n < 0 ∨ countLimit < n := by omega
    exact ⟨onCount_of_not_count meets wrong, onCount_of_not_count meets wrong⟩

/-- Shifts are multiplication in the residue classes of an order and division rounded down, and a shift to
the left can be undone just if it has lost nothing. -/
theorem shift_multiplies (meets : MeetAt o a k m n) :
    (0 ≤ n → n < o.width → Shifts o a k m n) ∧
    (n < 0 ∨ o.width ≤ n → a.shiftLeft k = .error (.calculation .overflow) ∧
      a.shiftRight k = .error (.calculation .overflow)) := by
  constructor
  · intro least narrow
    obtain ⟨r, hr, shifted, congruent⟩ := shiftLeft_of_lt meets least narrow
    constructor
    · refine ⟨r, hr, shifted, congruent, ?_⟩
      intro s hs other
      have difference := Int.dvd_sub other congruent
      have cancelled : s - m * Int.pow 2 n.toNat - (r - m * Int.pow 2 n.toNat) = s - r := by omega
      rw [cancelled] at difference
      exact IntOrder.eq_of_dvd_sub hs hr difference
    · exact shiftRight_of_lt meets least narrow
    · obtain ⟨hq, back⟩ := shiftRight_of_lt (meets.again hr) least narrow
      obtain ⟨hm, hn, met⟩ := meets.matched
      refine ⟨_, _, shifted, back, ?_⟩
      rw [strictSame_eq_true_iff, met, Matched.left, int.injEq]
      have undone : r.fdiv (Int.pow 2 n.toNat) = m ↔ o.Fits (m * Int.pow 2 n.toNat) :=
        IntOrder.fdiv_eq_iff_fits hr (by omega) congruent
      exact ⟨fun same => undone.mp same.2, fun fits => ⟨rfl, undone.mpr fits⟩⟩
  · exact shift_of_wide meets

/-- A negative integer whose product is too wide for its order, which it leaves with the other sign. -/
theorem shift_multiplies_minus_three :
    let minus := int .i64 (-3) (by decide)
    let narrow := int .u64 62 (by decide)
    let wide := int .u64 64 (by decide)
    Shifts .i64 minus narrow (-3) 62 ∧
    minus.shiftLeft wide = .error (.calculation .overflow) ∧
    minus.shiftRight wide = .error (.calculation .overflow) := by
  intro minus narrow wide
  have near : MeetAt .i64 minus narrow (-3) 62 := ⟨⟨.i64, _, rfl⟩, ⟨.u64, _, rfl⟩, by decide +kernel⟩
  have far : MeetAt .i64 minus wide (-3) 64 := ⟨⟨.i64, _, rfl⟩, ⟨.u64, _, rfl⟩, by decide +kernel⟩
  constructor
  · exact (shift_multiplies near).1 (by decide) (by decide)
  · exact (shift_multiplies far).2 (by decide)

end Value

end Reckoner
