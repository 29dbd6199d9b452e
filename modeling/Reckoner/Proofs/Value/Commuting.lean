import Reckoner.Proofs.Value.Climbing
import Reckoner.Proofs.Value.Strict

/-!
# Sums and products from both sides

After an overflow it is the left operand that is promoted, so the two sides of a sum climb in different
steps.  Where the operands can meet does not depend on their sides, though (`meeting_comm`), and the orders
of the meeting decide the climb: it passes those that do not hold the exact result, and ends at the first
one that does (`climb_eq`).  So a sum and a product are the same from both sides, along with the orders that
were too narrow (`climb_comm`).
-/

namespace Reckoner

namespace Double

protected theorem add_comm (x y : Double) : x + y = y + x := by
  change x.add y = y.add x
  rcases x with _ | ⟨s, r, hr⟩ <;> rcases y with _ | ⟨t, q, hq⟩
  · rfl
  · rfl
  · rfl
  · simp only [Double.add]
    by_cases left : r = infinityRank <;> by_cases right : q = infinityRank
    · -- Two infinities: one of them, or none if their signs differ.
      subst left
      subst right
      rw [if_pos rfl, if_pos rfl]
      by_cases signs : s = t
      · subst signs
        rfl
      · rw [if_pos ⟨rfl, signs⟩, if_pos ⟨rfl, Ne.symm signs⟩]
    · rw [if_pos left, if_neg fun h => right h.1, if_neg right, if_pos left]
    · rw [if_neg left, if_pos right, if_pos right, if_neg fun h => left h.1]
    · rw [if_neg left, if_neg right, if_neg right, if_neg left, Int.add_comm, Bool.and_comm]

protected theorem mul_comm (x y : Double) : x * y = y * x := by
  change x.mul y = y.mul x
  rcases x with _ | ⟨s, r, hr⟩ <;> rcases y with _ | ⟨t, q, hq⟩
  · rfl
  · rfl
  · rfl
  · simp only [Double.mul, or_comm (a := r = infinityRank), or_comm (a := r = 0), Bool.xor_comm s t,
      Nat.mul_comm (units r)]

end Double

namespace Value

/-- Where two values can meet does not depend on their sides. -/
theorem meeting_comm (a b : Value) : a.meeting b = b.meeting a := by
  rcases a with ⟨o, m, hm⟩ | x
  · rcases b with ⟨p, n, hn⟩ | y
    · rw [meeting_int, meeting_int]
      exact List.filter_congr fun q _ => decide_eq_decide.mpr and_comm
    · rw [meeting_double]
      rfl
  · rw [meeting_double]
    rfl

/-- With a double there is nothing to climb. -/
theorem climb_of_order_double (exact : Int → Int → Int) (rounded : Double → Double → Double)
    {a b : Value} (h : a.order = .double ∨ b.order = .double) :
    climb exact rounded a b = ⟨.double (rounded a.toDouble b.toDouble), []⟩ := by
  have met := matchOrders_of_order_double h
  rw [climb]
  split
  case h_1 x y matched =>
    obtain ⟨rfl, rfl⟩ := Matched.doubles.inj (met.symm.trans matched)
    rfl
  case h_2 o k l hk hl matched =>
    rw [met] at matched
    cases matched

/-- A climb with commutative operations leads through the same orders to the same value from both sides. -/
theorem climb_comm {exact : Int → Int → Int} {rounded : Double → Double → Double}
    (exact_comm : ∀ m n, exact m n = exact n m) (rounded_comm : ∀ x y, rounded x y = rounded y x)
    (a b : Value) : climb exact rounded a b = climb exact rounded b a := by
  by_cases doubles : a.order = .double ∨ b.order = .double
  · rw [climb_of_order_double exact rounded doubles, climb_of_order_double exact rounded doubles.symm,
      rounded_comm]
  · rcases a with ⟨o, m, hm⟩ | x
    · rcases b with ⟨p, n, hn⟩ | y
      · rw [climb_eq exact rounded (standsFor_int hm) (standsFor_int hn),
          climb_eq exact rounded (standsFor_int hn) (standsFor_int hm), exact_comm, rounded_comm,
          meeting_comm]
      · exact absurd (Or.inr rfl) doubles
    · exact absurd (Or.inl rfl) doubles

/-- The operator gives two values that are strictly equal from the two sides, and it finds the same orders
too narrow on the way. -/
def Commutes (op : InfixOp) (a b : Value) : Prop :=
  ∃ one other, op.apply a b = .ok one ∧ op.apply b a = .ok other ∧
    one.result.strictSame other.result = true ∧ one.overflowed = other.overflowed

theorem commutes_of_eq {op : InfixOp} {a b : Value} {one other : Ascent}
    (left : op.apply a b = .ok one) (right : op.apply b a = .ok other) (same : one = other) :
    Commutes op a b := by
  subst same
  exact ⟨one, one, left, right, strictSame_eq_true_iff.mpr rfl, rfl⟩

/-- Sums and products of any two values commute strictly. -/
theorem add_mul_commute (a b : Value) : Commutes .add a b ∧ Commutes .mul a b := by
  constructor
  · exact commutes_of_eq rfl rfl (climb_comm Int.add_comm Double.add_comm a b)
  · exact commutes_of_eq rfl rfl (climb_comm Int.mul_comm Double.mul_comm a b)

end Value

end Reckoner
