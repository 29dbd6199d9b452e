import Reckoner.Proofs.Value.Combining
import Reckoner.Proofs.Value.Patterns
import Reckoner.Proofs.Value.Strict

/-!
# Bitwise operations

The bitwise operations combine the bits of two integers, which never leaves the order at which the two
values meet.  The pattern of an integer at an order holds the lowest of its bits (`getLsbD_pattern`), so the
operations act on the patterns alike, and nothing has to be cut off: the operation on integers is the one
on patterns (`ofPattern_bitwise`, `onBits_eq_ofPattern`).
-/

namespace Reckoner

namespace IntOrder

variable {o : IntOrder} {n : Int}

/-- The pattern holds the lowest bits of the integer. -/
theorem getLsbD_pattern {i : Nat} (below : i < o.width) : (o.pattern n).getLsbD i = n.testBit i := by
  cases n with
  | ofNat n =>
    change (BitVec.ofInt o.width (n : Int)).getLsbD i = n.testBit i
    rw [BitVec.ofInt_natCast, BitVec.getLsbD_ofNat, decide_eq_true below, Bool.true_and]
  | negSucc n =>
    change (BitVec.ofInt o.width (Int.negSucc n)).getLsbD i = !n.testBit i
    rw [BitVec.ofInt_negSucc_eq_not_ofNat, BitVec.getLsbD_not, BitVec.getLsbD_ofNat,
      decide_eq_true below, Bool.true_and, Bool.true_and]

/-- The pattern of a combination is combined place by place. -/
theorem getLsbD_pattern_bitwise (f : Bool → Bool → Bool) (m n : Int) {i : Nat} (below : i < o.width) :
    (o.pattern (Int.bitwise f m n)).getLsbD i = f ((o.pattern m).getLsbD i) ((o.pattern n).getLsbD i) := by
  rw [getLsbD_pattern below, getLsbD_pattern below, getLsbD_pattern below, Int.testBit_bitwise]

end IntOrder

/-! ## Operations on patterns -/

/-- The operation on patterns combines their bits place by place. -/
def Combines (f : Bool → Bool → Bool) (op : {w : Nat} → BitVec w → BitVec w → BitVec w) : Prop :=
  ∀ {w : Nat} (x y : BitVec w) (i : Nat), i < w → (op x y).getLsbD i = f (x.getLsbD i) (y.getLsbD i)

namespace Value

section Combined

variable {f : Bool → Bool → Bool} {op : {w : Nat} → BitVec w → BitVec w → BitVec w} {o : IntOrder}
  {a b : Value} {m n : Int}

/-- Combining patterns is combining integers: no bit is cut off. -/
theorem ofPattern_bitwise (combines : Combines f op) (keeps : f false false = false) (hm : o.Fits m)
    (hn : o.Fits n) :
    ofPattern o (op (o.pattern m) (o.pattern n)) =
      int o (Int.bitwise f m n) (IntOrder.fits_bitwise keeps hm hn) := by
  rw [← ofPattern_pattern (IntOrder.fits_bitwise keeps hm hn)]
  congr 1
  apply BitVec.eq_of_getLsbD_eq
  intro i below
  rw [combines _ _ i below, IntOrder.getLsbD_pattern_bitwise f m n below]

theorem onBits_of_meetAt (fits : o.Fits (Int.bitwise f m n)) (meets : MeetAt o a b m n) :
    onBits f a b = .ok (int o _ fits) := by
  obtain ⟨hm, hn, met⟩ := meets.matched
  rw [onBits, onIntegers, met, combineBits_eq_bitwise]
  exact dif_pos fits

/-- Two values that meet are combined as their patterns are. -/
theorem onBits_eq_ofPattern (combines : Combines f op) (keeps : f false false = false)
    (meets : MeetAt o a b m n) :
    onBits f a b = .ok (ofPattern o (op (o.pattern m) (o.pattern n))) := by
  obtain ⟨hm, hn, -⟩ := meets.matched
  rw [ofPattern_bitwise combines keeps hm hn, onBits_of_meetAt _ meets]

end Combined

theorem combines_and : Combines (· && ·) (· &&& ·) := fun _ _ _ _ => BitVec.getLsbD_and

theorem combines_or : Combines (· || ·) (· ||| ·) := fun _ _ _ _ => BitVec.getLsbD_or

theorem combines_xor : Combines (· ^^ ·) (· ^^^ ·) := fun _ _ _ _ => BitVec.getLsbD_xor

variable {o : IntOrder} {a b : Value} {m n : Int}

/-- The result is at the order, it is the combination of all bits of the two integers, and so are the bits of
its pattern. -/
def CombinesBits (f : Bool → Bool → Bool) (o : IntOrder) (m n : Int) (result : Except Fault Value) : Prop :=
  ∃ r h, result = .ok (int o r h) ∧ r = Int.bitwise f m n ∧ ∀ i, i < o.width →
    (o.pattern r).getLsbD i = f ((o.pattern m).getLsbD i) ((o.pattern n).getLsbD i)

theorem combinesBits_onBits {f : Bool → Bool → Bool} (keeps : f false false = false)
    (meets : MeetAt o a b m n) : CombinesBits f o m n (onBits f a b) := by
  obtain ⟨hm, hn, -⟩ := meets.matched
  exact ⟨_, IntOrder.fits_bitwise keeps hm hn, onBits_of_meetAt _ meets, rfl,
    fun i below => IntOrder.getLsbD_pattern_bitwise f m n below⟩

/-- What the bitwise operations on two values result in. -/
structure ActsBitwise (o : IntOrder) (a b : Value) (m n : Int) : Prop where
  and : CombinesBits (· && ·) o m n (a.bitAnd b)
  or : CombinesBits (· || ·) o m n (a.bitOr b)
  xor : CombinesBits (· ^^ ·) o m n (a.bitXor b)
  /-- Twice in turn: strictly the promoted value. -/
  restored : ∃ once twice, a.bitXor b = .ok once ∧ once.bitXor b = .ok twice ∧
    twice.strictSame (a.matchOrders b).left = true

/-- The complement of an integer is at its order, it has the opposite bits, and its own complement is strictly
the integer again. -/
def Flips (o : IntOrder) (n : Int) (h : o.Fits n) : Prop :=
  ∃ r hr back, (int o n h).bitNot = .ok (int o r hr) ∧
    (∀ i, i < o.width → (o.pattern r).getLsbD i = !(o.pattern n).getLsbD i) ∧
    (int o r hr).bitNot = .ok back ∧ back.strictSame (int o n h) = true

/-- The complement of what two integers of one order have in common is strictly what one of their complements
has. -/
def DeMorgan (o : IntOrder) (m n : Int) (hm : o.Fits m) (hn : o.Fits n) : Prop :=
  ∃ both notBoth notLeft notRight either, (int o m hm).bitAnd (int o n hn) = .ok both ∧
    both.bitNot = .ok notBoth ∧ (int o m hm).bitNot = .ok notLeft ∧
    (int o n hn).bitNot = .ok notRight ∧ notLeft.bitOr notRight = .ok either ∧
    notBoth.strictSame either = true

theorem bitNot_int (h : o.Fits n) : (int o n h).bitNot = .ok (ofPattern o (~~~ o.pattern n)) :=
  make_ofPattern o _

theorem bitNot_ofPattern (bits : BitVec o.width) :
    (ofPattern o bits).bitNot = .ok (ofPattern o (~~~ bits)) := by
  rw [ofPattern, bitNot_int, IntOrder.pattern_ofPattern]

theorem actsBitwise (meets : MeetAt o a b m n) : ActsBitwise o a b m n := by
  constructor
  · exact combinesBits_onBits rfl meets
  · exact combinesBits_onBits rfl meets
  · exact combinesBits_onBits rfl meets
  · have again := meets.ofPattern (o.pattern m ^^^ o.pattern n)
    refine ⟨_, _, onBits_eq_ofPattern combines_xor rfl meets, onBits_eq_ofPattern combines_xor rfl again, ?_⟩
    rw [strictSame_eq_true_iff, meets.left_matchOrders, IntOrder.pattern_ofPattern, BitVec.xor_assoc,
      BitVec.xor_self, BitVec.xor_zero]

theorem flips (h : o.Fits n) : Flips o n h := by
  refine ⟨_, o.fits_ofPattern (~~~ o.pattern n), _, bitNot_int h, ?_, bitNot_ofPattern _, ?_⟩
  · intro i below
    rw [IntOrder.pattern_ofPattern, BitVec.getLsbD_not, decide_eq_true below, Bool.true_and]
  · rw [strictSame_eq_true_iff, BitVec.not_not, ofPattern_pattern h]

theorem deMorgan (hm : o.Fits m) (hn : o.Fits n) : DeMorgan o m n hm hn := by
  have meets : MeetAt o (int o m hm) (int o n hn) m n :=
    meetAt_of_home hm (mem_homes_int.mpr ⟨Nat.le_refl _, hn⟩)
  have complements : MeetAt o (ofPattern o (~~~ o.pattern m)) (ofPattern o (~~~ o.pattern n)) _ _ :=
    meetAt_of_home (o.fits_ofPattern _) (mem_homes_int.mpr ⟨Nat.le_refl _, o.fits_ofPattern _⟩)
  refine ⟨_, _, _, _, _, onBits_eq_ofPattern combines_and rfl meets, bitNot_ofPattern _, bitNot_int hm,
    bitNot_int hn, onBits_eq_ofPattern combines_or rfl complements, ?_⟩
  rw [strictSame_eq_true_iff, IntOrder.pattern_ofPattern, IntOrder.pattern_ofPattern, BitVec.not_and]

/-- Bitwise operations act on the patterns of integers, place by place, as they act on all their bits, and the
laws of Boolean operations hold of values. -/
theorem bitwise_acts_on_patterns :
    (∀ {o a b m n}, MeetAt o a b m n → ActsBitwise o a b m n) ∧
    (∀ {o : IntOrder} {n : Int} (h : o.Fits n), Flips o n h) ∧
    ∀ {o : IntOrder} {m n : Int} (hm : o.Fits m) (hn : o.Fits n), DeMorgan o m n hm hn := by
  refine ⟨?_, ?_, ?_⟩
  · intro o a b m n meets
    exact actsBitwise meets
  · intro o n h
    exact flips h
  · intro o m n hm hn
    exact deMorgan hm hn

/-- A negative integer and the greatest one without a sign meet at 128 bits, where the sign goes on beyond the
bits of both. -/
theorem bitwise_acts_on_patterns_mixed :
    let minus := int .i64 (-5) (by decide)
    let most := int .u64 18446744073709551615 (by decide)
    minus.bitAnd most = .ok (int .i128 18446744073709551611 (by decide)) ∧
    minus.bitOr most = .ok (int .i128 (-1) (by decide)) ∧
    minus.bitXor most = .ok (int .i128 (-18446744073709551612) (by decide)) ∧
    MeetAt .i128 minus most (-5) 18446744073709551615 ∧
    ActsBitwise .i128 minus most (-5) 18446744073709551615 ∧
    Flips .u64 18446744073709551615 (by decide) ∧
    DeMorgan .i64 (-5) 9223372036854775807 (by decide) (by decide) := by
  intro minus most
  obtain ⟨acts, flips, laws⟩ := bitwise_acts_on_patterns
  have meets : MeetAt .i128 minus most (-5) 18446744073709551615 :=
    ⟨⟨.i64, _, rfl⟩, ⟨.u64, _, rfl⟩, by decide +kernel⟩
  exact ⟨by decide +kernel, by decide +kernel, by decide +kernel, meets, acts meets, flips _, laws _ _⟩

end Value

end Reckoner
