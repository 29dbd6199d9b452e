import Reckoner.Proofs.Value.Matching
import Reckoner.Proofs.Value.Range

/-!
# Patterns and counts

An order of width `w` holds one integer for each pattern of `w` bits: the integer of a pattern has that
pattern (`pattern_ofPattern`), and two integers of one order with one pattern are the same
(`eq_of_pattern_eq`).  Two integers have one pattern just if `2 ^ w` divides their difference
(`pattern_eq_iff`).

An operation that moves bits matches its operands first and then takes the right one as a count
(`onCount_of_count`, `onCount_of_not_count`).  What it gives is at the order of the match, and so it is
matched with the same count there again (`MeetAt.again`): moving bits to and fro stays at one order.
-/

namespace Reckoner

namespace IntOrder

variable {o : IntOrder} {m n : Int}

theorem width_pos (o : IntOrder) : 0 < o.width := by cases o <;> decide

theorem pattern_ofPattern (o : IntOrder) (bits : BitVec o.width) :
    o.pattern (o.ofPattern bits) = bits := by
  unfold ofPattern pattern
  split
  · exact BitVec.ofInt_toInt
  · rw [BitVec.ofInt_natCast, BitVec.ofNat_toNat, BitVec.setWidth_eq]

/-- Two integers have one pattern if they are in one residue class. -/
theorem pattern_eq_iff : o.pattern m = o.pattern n ↔ Int.pow 2 o.width ∣ m - n := by
  have modulus : Int.pow 2 o.width = ((2 ^ o.width : Nat) : Int) := (Int.natCast_pow 2 o.width).symm
  have positive : ((2 ^ o.width : Nat) : Int) ≠ 0 := by cases o <;> decide
  have left := Int.emod_nonneg m positive
  have right := Int.emod_nonneg n positive
  rw [pattern, pattern, ← BitVec.toNat_inj, BitVec.toNat_ofInt, BitVec.toNat_ofInt, modulus,
    ← Int.natCast_inj, Int.toNat_of_nonneg left, Int.toNat_of_nonneg right,
    Int.emod_eq_emod_iff_emod_sub_eq_zero]
  exact ⟨Int.dvd_of_emod_eq_zero, Int.emod_eq_zero_of_dvd⟩

/-- Two integers of one order in one residue class are the same. -/
theorem eq_of_dvd_sub (hm : o.Fits m) (hn : o.Fits n) (divides : Int.pow 2 o.width ∣ m - n) :
    m = n := by
  obtain ⟨c, multiple⟩ := divides
  cases o with
  | u64 | i64 =>
    have modulus : Int.pow 2 64 = 18446744073709551616 := by decide
    simp only [width, modulus] at multiple
    simp only [Fits, low, high] at hm hn
    omega
  | u128 | i128 =>
    have modulus : Int.pow 2 128 = 340282366920938463463374607431768211456 := by decide
    simp only [width, modulus] at multiple
    simp only [Fits, low, high] at hm hn
    omega

theorem eq_of_pattern_eq (hm : o.Fits m) (hn : o.Fits n) (same : o.pattern m = o.pattern n) : m = n :=
  eq_of_dvd_sub hm hn (pattern_eq_iff.mp same)

end IntOrder

namespace Value

/-- The values are the integers `m` and `n`, whatever their own orders, and are matched at the integer
order `o`. -/
structure MeetAt (o : IntOrder) (a b : Value) (m n : Int) : Prop where
  left : ∃ p h, a = int p m h
  right : ∃ q h, b = int q n h
  order : (a.matchOrders b).order = .integer o

section MeetAt

variable {o : IntOrder} {a b : Value} {m n r : Int}

/-- Integers are matched as what they are. -/
theorem MeetAt.matched (h : MeetAt o a b m n) :
    ∃ hm hn, a.matchOrders b = .ints o m n hm hn := by
  obtain ⟨⟨p, left, rfl⟩, ⟨q, right, rfl⟩, level⟩ := h
  rcases matchOrders_standing (standsFor_int left) (standsFor_int right) with
    ⟨o', hm, hn, met, -⟩ | ⟨met, -⟩
  · rw [met] at level
    obtain rfl := Order.integer.inj level
    exact ⟨hm, hn, met⟩
  · rw [met] at level
    exact absurd level nofun

/-- The order of the match holds the right operand, and is not below that of it. -/
theorem MeetAt.home (h : MeetAt o a b m n) : o ∈ b.homes := by
  obtain ⟨-, hn, met⟩ := h.matched
  obtain ⟨q, right, rfl⟩ := h.right
  have above := rank_le_matchOrders (int q n right) a
  rw [matchOrders_swap, Matched.order_swap, h.order] at above
  exact mem_homes_int.mpr ⟨above, hn⟩

/-- A value at a home of another one is matched with it there. -/
theorem meetAt_of_home {q : IntOrder} {hn : q.Fits n} (hr : o.Fits r)
    (home : o ∈ (int q n hn).homes) : MeetAt o (int o r hr) (int q n hn) r n := by
  obtain ⟨orders, meets⟩ : ∃ orders, (int o r hr).meeting (int q n hn) = o :: orders := by
    rw [meeting, homes_promote o r hr, List.filter_cons_of_pos (by simpa using home)]
    exact ⟨_, rfl⟩
  exact ⟨⟨o, hr, rfl⟩, ⟨q, hn, rfl⟩, order_matchOrders (standsFor_int hr) (standsFor_int hn) meets⟩

/-- Any value at the order of a match is matched there with the same right operand. -/
theorem MeetAt.again (h : MeetAt o a b m n) (hr : o.Fits r) : MeetAt o (int o r hr) b r n := by
  have home := h.home
  obtain ⟨q, hn, rfl⟩ := h.right
  exact meetAt_of_home hr home

end MeetAt

/-! ## The values of patterns -/

/-- The value of a pattern. -/
def ofPattern (o : IntOrder) (bits : BitVec o.width) : Value :=
  int o (o.ofPattern bits) (o.fits_ofPattern bits)

theorem make_ofPattern (o : IntOrder) (bits : BitVec o.width) :
    make o (o.ofPattern bits) = .ok (ofPattern o bits) := dif_pos _

/-- An integer is the value of its pattern. -/
theorem ofPattern_pattern {o : IntOrder} {n : Int} (h : o.Fits n) :
    ofPattern o (o.pattern n) = int o n h := by
  have same : o.ofPattern (o.pattern n) = n :=
    IntOrder.eq_of_pattern_eq (o.fits_ofPattern _) h (o.pattern_ofPattern _)
  rw [ofPattern, int.injEq]
  exact ⟨rfl, same⟩

section MeetAt

variable {o : IntOrder} {a b : Value} {m n : Int}

/-- The left one of two matched integers, as the value of its pattern. -/
theorem MeetAt.left_matchOrders (h : MeetAt o a b m n) :
    (a.matchOrders b).left = Value.ofPattern o (o.pattern m) := by
  obtain ⟨hm, hn, met⟩ := h.matched
  rw [met, Matched.left, ofPattern_pattern hm]

theorem MeetAt.ofPattern (h : MeetAt o a b m n) (bits : BitVec o.width) :
    MeetAt o (Value.ofPattern o bits) b (o.ofPattern bits) n := h.again (o.fits_ofPattern bits)

end MeetAt

/-! ## Counts -/

section Counts

variable {f : (order : IntOrder) → Int → Nat → Except Fault Value} {o : IntOrder} {a k : Value}
  {m n : Int}

/-- An operation that moves bits is about the matched integers. -/
theorem onCount_eq (meets : MeetAt o a k m n) :
    onCount f a k = (count.within n).bind (f o m) := by
  obtain ⟨hm, hn, met⟩ := meets.matched
  rw [onCount, onIntegers, met]
  rfl

theorem onCount_of_count (meets : MeetAt o a k m n) (least : 0 ≤ n) (most : n ≤ countLimit) :
    onCount f a k = f o m n.toNat := by
  rw [onCount_eq meets, count.within, if_pos ⟨least, most⟩]
  rfl

theorem onCount_of_not_count (meets : MeetAt o a k m n) (wrong : n < 0 ∨ countLimit < n) :
    onCount f a k = .error (.calculation .overflow) := by
  rw [onCount_eq meets, count.within, if_neg (by omega)]
  rfl

end Counts

end Value

end Reckoner
