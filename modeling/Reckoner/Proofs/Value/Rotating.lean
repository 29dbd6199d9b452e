import Reckoner.Proofs.Value.Patterns
import Reckoner.Proofs.Value.Strict

/-!
# Rotations

A pattern of `w` bits can be read around: at any integer place, the bit at the residue of the place modulo
`w` (`Pattern.bitAt`).  Read in this way, a rotation is a translation of places (`bitAt_rotateLeft`,
`bitAt_rotateRight`), multiples of the width and counts beyond it included.  So opposite rotations undo each
other and rotations add up, as translations do.

Both carry over to values, since what a rotation gives stays at one order and a value is told by its
pattern there.
-/

namespace Reckoner

namespace Pattern

variable {w : Nat} {x y : BitVec w}

/-- The bit at a place, counted around the pattern. -/
def bitAt (x : BitVec w) (i : Int) : Bool := x.getLsbD (i % w).toNat

theorem bitAt_congr {i j : Int} (h : i % w = j % w) : bitAt x i = bitAt x j := by
  rw [bitAt, bitAt, h]

theorem bitAt_of_lt {i : Nat} (h : i < w) : bitAt x i = x.getLsbD i := by
  rw [bitAt, ← Int.natCast_emod, Nat.mod_eq_of_lt h, Int.toNat_natCast]

theorem eq_of_bitAt (h : ∀ i, bitAt x i = bitAt y i) : x = y := by
  apply BitVec.eq_of_getLsbD_eq
  intro i below
  have bits := h i
  rwa [bitAt_of_lt below, bitAt_of_lt below] at bits

/-- A place below the width, as a natural number. -/
theorem toNat_emod_lt (positive : 0 < w) (i : Int) : (i % w).toNat < w := by
  have below := Int.emod_lt_of_pos i (show (0 : Int) < w by omega)
  omega

/-- A rotation to the left moves every bit up. -/
theorem bitAt_rotateLeft (positive : 0 < w) (x : BitVec w) (r : Nat) (i : Int) :
    bitAt (x.rotateLeft r) i = bitAt x (i - r) := by
  have below := toNat_emod_lt positive i
  have turn := Nat.mod_lt r positive
  have place : (i - r) % w = (((i % w).toNat : Int) - (r % w : Nat)) % w := by
    rw [Int.toNat_of_nonneg (Int.emod_nonneg i (by omega)), Int.natCast_emod, ← Int.sub_emod]
  rw [bitAt, bitAt, place, BitVec.getLsbD_rotateLeft]
  generalize (i % w).toNat = j at below ⊢
  -- The bits that have left the pattern come first.
  by_cases around : j < r % w
  · rw [decide_eq_true around, cond_true, ← Int.add_emod_right, Int.emod_eq_of_lt (by omega) (by omega)]
    exact congrArg x.getLsbD (by omega)
  · rw [decide_eq_false around, cond_false, decide_eq_true below, Bool.true_and,
      Int.emod_eq_of_lt (by omega) (by omega)]
    exact congrArg x.getLsbD (by omega)

/-- A rotation to the right moves every bit down. -/
theorem bitAt_rotateRight (positive : 0 < w) (x : BitVec w) (r : Nat) (i : Int) :
    bitAt (x.rotateRight r) i = bitAt x (i + r) := by
  have below := toNat_emod_lt positive i
  have turn := Nat.mod_lt r positive
  have place : (i + r) % w = (((i % w).toNat : Int) + (r % w : Nat)) % w := by
    rw [Int.toNat_of_nonneg (Int.emod_nonneg i (by omega)), Int.natCast_emod, ← Int.add_emod]
  rw [bitAt, bitAt, place, BitVec.getLsbD_rotateRight]
  generalize (i % w).toNat = j at below ⊢
  -- The bits that have left the pattern come last.
  by_cases within : j < w - r % w
  · rw [decide_eq_true within, cond_true, Int.emod_eq_of_lt (by omega) (by omega)]
    exact congrArg x.getLsbD (by omega)
  · rw [decide_eq_false within, cond_false, decide_eq_true below, Bool.true_and,
      ← Int.sub_emod_right, Int.emod_eq_of_lt (by omega) (by omega)]
    exact congrArg x.getLsbD (by omega)

theorem rotateRight_rotateLeft (positive : 0 < w) (x : BitVec w) (r : Nat) :
    (x.rotateLeft r).rotateRight r = x := by
  apply eq_of_bitAt
  intro i
  rw [bitAt_rotateRight positive, bitAt_rotateLeft positive, Int.add_sub_cancel]

theorem rotateLeft_rotateRight (positive : 0 < w) (x : BitVec w) (r : Nat) :
    (x.rotateRight r).rotateLeft r = x := by
  apply eq_of_bitAt
  intro i
  rw [bitAt_rotateLeft positive, bitAt_rotateRight positive, Int.sub_add_cancel]

/-- Rotations add up, around the width. -/
theorem rotateLeft_rotateLeft (positive : 0 < w) (x : BitVec w) (r s : Nat) :
    (x.rotateLeft r).rotateLeft s = x.rotateLeft ((r + s) % w) := by
  apply eq_of_bitAt
  intro i
  rw [bitAt_rotateLeft positive, bitAt_rotateLeft positive, bitAt_rotateLeft positive]
  apply bitAt_congr
  rw [Int.natCast_emod, Int.sub_emod_emod, Int.natCast_add]
  exact congrArg (· % (w : Int)) (by omega)

end Pattern

namespace Value

variable {o : IntOrder} {a k : Value} {m n : Int}

theorem rotateLeft_of_count (meets : MeetAt o a k m n) (least : 0 ≤ n) (most : n ≤ countLimit) :
    a.rotateLeft k = .ok (ofPattern o ((o.pattern m).rotateLeft n.toNat)) := by
  rw [rotateLeft, onCount_of_count meets least most, make_ofPattern]

theorem rotateRight_of_count (meets : MeetAt o a k m n) (least : 0 ≤ n) (most : n ≤ countLimit) :
    a.rotateRight k = .ok (ofPattern o ((o.pattern m).rotateRight n.toNat)) := by
  rw [rotateRight, onCount_of_count meets least most, make_ofPattern]

/-- The value is at the order `o`, and it has the bits of `m` there, each moved up by a number of places
around the width. -/
def HasMoved (o : IntOrder) (m places : Int) (v : Value) : Prop :=
  ∃ r h, v = int o r h ∧ ∀ i : Nat, i < o.width →
    (o.pattern r).getLsbD ((i + places) % o.width).toNat = (o.pattern m).getLsbD i

/-- What rotations by a count result in. -/
structure Rotates (o : IntOrder) (a k : Value) (m n : Int) : Prop where
  left : ∃ v, a.rotateLeft k = .ok v ∧ HasMoved o m n v
  right : ∃ v, a.rotateRight k = .ok v ∧ HasMoved o m (-n) v
  /-- To the left and back again, and the other way around: strictly the promoted value. -/
  leftRight : ∃ v back, a.rotateLeft k = .ok v ∧ v.rotateRight k = .ok back ∧
    back.strictSame (a.matchOrders k).left = true
  rightLeft : ∃ v back, a.rotateRight k = .ok v ∧ v.rotateLeft k = .ok back ∧
    back.strictSame (a.matchOrders k).left = true

/-- Rotating to the left by two counts in turn is strictly the same as rotating once, by their sum modulo
the width. -/
def AddsUp (o : IntOrder) (a : Value) (j k : Int) (hj : IntOrder.u64.Fits j) (hk : IntOrder.u64.Fits k) :
    Prop :=
  ∃ once twice whole h, a.rotateLeft (int .u64 j hj) = .ok once ∧
    once.rotateLeft (int .u64 k hk) = .ok twice ∧
    a.rotateLeft (int .u64 ((j + k) % o.width) h) = .ok whole ∧ twice.strictSame whole = true

/-- A value whose bits around the pattern are translated has its bits moved. -/
theorem hasMoved_ofPattern {bits : BitVec o.width} {places : Int}
    (translated : ∀ i : Nat, Pattern.bitAt bits (i + places) = Pattern.bitAt (o.pattern m) i) :
    HasMoved o m places (ofPattern o bits) := by
  refine ⟨_, o.fits_ofPattern bits, rfl, ?_⟩
  intro i below
  rw [IntOrder.pattern_ofPattern, ← Pattern.bitAt_of_lt below]
  exact translated i

theorem rotates (meets : MeetAt o a k m n) (least : 0 ≤ n) (most : n ≤ countLimit) :
    Rotates o a k m n := by
  have positive := o.width_pos
  have count : (n.toNat : Int) = n := Int.toNat_of_nonneg least
  have left := rotateLeft_of_count meets least most
  have right := rotateRight_of_count meets least most
  constructor
  · refine ⟨_, left, hasMoved_ofPattern ?_⟩
    intro i
    rw [Pattern.bitAt_rotateLeft positive, count, Int.add_sub_cancel]
  · refine ⟨_, right, hasMoved_ofPattern ?_⟩
    intro i
    rw [Pattern.bitAt_rotateRight positive, count, Int.neg_add_cancel_right]
  · have back := rotateRight_of_count (meets.ofPattern ((o.pattern m).rotateLeft n.toNat)) least most
    rw [IntOrder.pattern_ofPattern, Pattern.rotateRight_rotateLeft positive] at back
    exact ⟨_, _, left, back, strictSame_eq_true_iff.mpr meets.left_matchOrders.symm⟩
  · have back := rotateLeft_of_count (meets.ofPattern ((o.pattern m).rotateRight n.toNat)) least most
    rw [IntOrder.pattern_ofPattern, Pattern.rotateLeft_rotateRight positive] at back
    exact ⟨_, _, right, back, strictSame_eq_true_iff.mpr meets.left_matchOrders.symm⟩

/-- Every order is a home of a small count. -/
theorem meetAt_count (hm : o.Fits m) (hn : IntOrder.u64.Fits n) (most : n ≤ countLimit) :
    MeetAt o (int o m hm) (int .u64 n hn) m n := by
  have fits : o.Fits n := by
    have least := hn.1
    cases o <;> simp only [IntOrder.Fits, IntOrder.low, IntOrder.high, countLimit] at * <;> omega
  exact meetAt_of_home hm (mem_homes_int.mpr ⟨Nat.zero_le _, fits⟩)

theorem addsUp {j k : Int} (hm : o.Fits m) (hj : IntOrder.u64.Fits j) (hk : IntOrder.u64.Fits k)
    (mostJ : j ≤ countLimit) (mostK : k ≤ countLimit) : AddsUp o (int o m hm) j k hj hk := by
  have leastJ : 0 ≤ j := hj.1
  have leastK : 0 ≤ k := hk.1
  have width : (0 : Int) < o.width ∧ (o.width : Int) ≤ 128 := by cases o <;> decide
  have least := Int.emod_nonneg (j + k) (Int.ne_of_gt width.1)
  have below := Int.emod_lt_of_pos (j + k) width.1
  have h : IntOrder.u64.Fits ((j + k) % o.width) := by
    simp only [IntOrder.Fits, IntOrder.low, IntOrder.high]
    omega
  have most : (j + k) % o.width ≤ countLimit := by
    simp only [countLimit]
    omega
  have first := meetAt_count hm hj mostJ
  have second := meetAt_count (o.fits_ofPattern ((o.pattern m).rotateLeft j.toNat)) hk mostK
  have sum := meetAt_count hm h most
  refine ⟨_, _, _, h, rotateLeft_of_count first leastJ mostJ, rotateLeft_of_count second leastK mostK,
    rotateLeft_of_count sum least most, ?_⟩
  have counts : ((j + k) % o.width).toNat = (j.toNat + k.toNat) % o.width := by
    rw [Int.toNat_emod (by omega) (by omega), Int.toNat_add leastJ leastK, Int.toNat_natCast]
  rw [strictSame_eq_true_iff, IntOrder.pattern_ofPattern, counts,
    Pattern.rotateLeft_rotateLeft o.width_pos]

/-- Rotations by counts permute the bits of a pattern, undo each other and add up, and whatever is no count
is refused. -/
theorem rotate_permutes :
    (∀ {o a k m n}, MeetAt o a k m n →
      (0 ≤ n → n ≤ countLimit → Rotates o a k m n) ∧
      (n < 0 ∨ countLimit < n → a.rotateLeft k = .error (.calculation .overflow) ∧
        a.rotateRight k = .error (.calculation .overflow))) ∧
    ∀ {o : IntOrder} {m j k : Int} (hm : o.Fits m) (hj : IntOrder.u64.Fits j)
      (hk : IntOrder.u64.Fits k), j ≤ countLimit → k ≤ countLimit → AddsUp o (int o m hm) j k hj hk := by
  constructor
  · intro o a k m n meets
    constructor
    · exact rotates meets
    · intro wrong
      exact ⟨onCount_of_not_count meets wrong, onCount_of_not_count meets wrong⟩
  · intro o m j k hm hj hk
    exact addsUp hm hj hk

/-- A negative integer at 64 bits is promoted to 128 bits by its count before it is rotated, by more than
the width; a count below zero is refused. -/
theorem rotate_permutes_wide :
    let minus := int .i64 (-5) (by decide)
    let turn := int .i128 131 (by decide)
    let below := int .i64 (-1) (by decide)
    Rotates .i128 minus turn (-5) 131 ∧
    minus.rotateLeft below = .error (.calculation .overflow) ∧
    minus.rotateRight below = .error (.calculation .overflow) ∧
    AddsUp .i64 minus 60 4294967295 (by decide) (by decide) := by
  intro minus turn below
  obtain ⟨alone, twice⟩ := rotate_permutes
  have far : MeetAt .i128 minus turn (-5) 131 := ⟨⟨.i64, _, rfl⟩, ⟨.i128, _, rfl⟩, by decide +kernel⟩
  have near : MeetAt .i64 minus below (-5) (-1) := ⟨⟨.i64, _, rfl⟩, ⟨.i64, _, rfl⟩, by decide +kernel⟩
  obtain ⟨left, right⟩ := (alone near).2 (by decide)
  exact ⟨(alone far).1 (by decide) (by decide), left, right,
    twice _ _ _ (by decide) (by decide)⟩

end Value

end Reckoner
