import Reckoner.Proofs.Value.Comparing

/-!
# The strict order

Strictly, values are compared by their orders first and by their numbers if those are the same.  The
number of a value is its integer, or the place of its double among all doubles.  Both together tell any
two values apart (`eq_of_number`), so the strict order is the lexicographic order of pairs of integers
(`strictCompare_eq_compareLex`), and that it is total and transitive is a fact about such pairs.

Values that are strictly equal are one (`strictSame_eq_true_iff`), so they are equal as numbers too.
-/

namespace Reckoner

namespace Double

/-- Doubles that are no not-a-number are one just if they have one amount and one sign. -/
theorem eq_iff_of_not_isNaN {x y : Double} (hx : x.isNaN = false) (hy : y.isNaN = false) :
    x = y ↔ x.amount = y.amount ∧ x.isNegative = y.isNegative := by
  constructor
  · rintro rfl
    exact ⟨rfl, rfl⟩
  · rintro ⟨amounts, signs⟩
    cases x with
    | nan => cases hx
    | ranked s r hr =>
      cases y with
      | nan => cases hy
      | ranked t q hq =>
        obtain ⟨rfl, -⟩ := eq_or_zero_of_amount_eq amounts
        obtain rfl : s = t := signs
        rfl

theorem compare_eq_eq_iff {x y : Double} : x.compare y = .eq ↔ x = y := by
  rw [Double.compare, Int.compare_eq_eq]
  exact ⟨key_injective, congrArg key⟩

end Double

namespace Value

/-- The number by which a value is told apart from others of its order. -/
def number : Value → Int
  | .int _ n _ => n
  | .double x => x.key

/-- The values are one: the same integer at the same order, or the same double.  There is one
not-a-number, and the two zeros differ in their signs. -/
inductive IsOne : Value → Value → Prop where
  | int {o : IntOrder} {n : Int} (h h' : o.Fits n) : IsOne (.int o n h) (.int o n h')
  | nan : IsOne (.double .nan) (.double .nan)
  | double {x y : Double} (left : x.isNaN = false) (right : y.isNaN = false)
      (amount : x.amount = y.amount) (sign : x.isNegative = y.isNegative) :
      IsOne (.double x) (.double y)

theorem isOne_iff {a b : Value} : a.IsOne b ↔ a = b := by
  constructor
  · intro h
    cases h with
    | int h h' => rfl
    | nan => rfl
    | double left right amount sign =>
      rw [(Double.eq_iff_of_not_isNaN left right).mpr ⟨amount, sign⟩]
  · rintro rfl
    cases a with
    | int o n h => exact .int h h
    | double x =>
      cases number : x.isNaN with
      | true =>
        cases x with
        | nan => exact .nan
        | ranked => cases number
      | false => exact .double number number rfl rfl

/-- The order and the number tell any two values apart. -/
theorem eq_of_number {a b : Value} (order : a.order.rank = b.order.rank)
    (number : a.number = b.number) : a = b := by
  have orders := Order.rank_injective order
  cases a with
  | int o m hm =>
    cases b with
    | int p n hn =>
      obtain rfl := Order.integer.inj orders
      obtain rfl : m = n := number
      rfl
    | double y => cases orders
  | double x =>
    cases b with
    | int p n hn => cases orders
    | double y => rw [Double.key_injective number]

/-! ## The lexicographic order -/

theorem strictCompare_eq_compareLex :
    strictCompare = compareLex (compareOn fun v => v.order.rank) (compareOn number) := by
  funext a b
  cases a with
  | int o m hm =>
    cases b with
    | int p n hn => rfl
    | double y =>
      have below : Ord.compare o.rank 4 = .lt := Nat.compare_eq_lt.mpr o.rank_lt_four
      change Ordering.lt = (Ord.compare o.rank 4).then _
      rw [below]
      rfl
  | double x =>
    cases b with
    | int p n hn =>
      have above : Ord.compare 4 p.rank = .gt := Nat.compare_eq_gt.mpr p.rank_lt_four
      change Ordering.gt = (Ord.compare 4 p.rank).then _
      rw [above]
      rfl
    | double y => rfl

instance : Std.TransCmp strictCompare := by
  rw [strictCompare_eq_compareLex]
  infer_instance

instance : Std.LawfulEqCmp strictCompare where
  compare_self := Std.ReflCmp.compare_self
  eq_of_compare {a b} same := by
    rw [strictCompare_eq_compareLex, compareLex_eq_eq] at same
    exact eq_of_number (Nat.compare_eq_eq.mp same.1) (Int.compare_eq_eq.mp same.2)

/-! ## Equality -/

theorem strictSame_eq_true_iff {a b : Value} : a.strictSame b = true ↔ a = b := by
  cases a with
  | int o m hm =>
    cases b with
    | int p n hn =>
      simp only [strictSame, Bool.and_eq_true, decide_eq_true_eq, beq_iff_eq, Int.compare_eq_eq,
        int.injEq]
    | double y => simp [strictSame]
  | double x =>
    cases b with
    | int p n hn => simp [strictSame]
    | double y =>
      simp only [strictSame, beq_iff_eq, Double.compare_eq_eq_iff, double.injEq]

theorem compare_self (a : Value) : a.compare a = .eq := by
  have swapped := compare_swap a a
  cases loose : a.compare a with
  | eq => rfl
  | lt | gt => rw [loose] at swapped; cases swapped

/-- The strict order is a total order.  The values that it does not tell apart are those that are equal in
order and number, which are one, and those are equal as numbers. -/
theorem strictCompare_orders (a b c : Value) :
    a.strictCompare b = (b.strictCompare a).swap ∧
    (a.strictCompare b ≠ .gt → b.strictCompare c ≠ .gt → a.strictCompare c ≠ .gt) ∧
    (a.strictCompare b = .eq ↔ a.strictSame b = true) ∧
    (a.strictSame b = true ↔ a.IsOne b) ∧
    (a.strictSame b = true → a.same b = true) := by
  refine ⟨Std.OrientedCmp.eq_swap, ?_, ?_, ?_, ?_⟩
  · intro first second
    rw [ne_eq, ← Ordering.isLE_iff_ne_gt] at *
    exact Std.TransCmp.isLE_trans first second
  · rw [strictSame_eq_true_iff]
    exact Std.LawfulEqCmp.compare_eq_iff_eq
  · rw [strictSame_eq_true_iff, isOne_iff]
  · intro strictly
    obtain rfl := strictSame_eq_true_iff.mp strictly
    rw [same, compare_self]
    rfl

end Value

end Reckoner
