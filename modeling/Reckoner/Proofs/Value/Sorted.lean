import Reckoner.Proofs.Sorting.Ascending
import Reckoner.Proofs.Value.Comparing

/-!
# How far the loose order is transitive

The loose order is total, but three values can be compared at three precisions.  It fails to be transitive
exactly where a comparison of integers tells apart what two comparisons of doubles have found equal, or
the other way round, so only among values with one nearest double (`Chain`).

A list of values sorted by that order has its nearest doubles in order all the same, because no comparison
contradicts theirs; and where the order is transitive on the values of the list, they are sorted by it
(`Sorts`), as are integers that are not beyond the signed orders (`isTransitiveOn_of_within`).
-/

namespace Reckoner

namespace Value

variable {a b c : Value} {values : List Value}

theorem below_eq_true_iff : a.below b = true ↔ a.compare b = .lt := beq_iff_eq

theorem below_eq_false_iff : a.below b = false ↔ b.compare a ≠ .gt := by
  rw [← compare_swap a b, ← Bool.not_eq_true, below_eq_true_iff, ne_eq, Ordering.swap_eq_gt]

/-! ## Three values -/

/-- What two comparisons of three values say about the third one. -/
structure Chain (a b c : Value) : Prop where
  /-- Of two values one is not above the other. -/
  total : a.compare b ≠ .gt ∨ b.compare a ≠ .gt
  /-- Values that do not descend end below their beginning only if integers are told apart at the ends. -/
  climbing : a.compare b ≠ .gt → b.compare c ≠ .gt →
    (a.compare c = .gt ↔ (a.toDouble = b.toDouble ∧ b.toDouble = c.toDouble) ∧
      ∃ m n, a.commonIntegers? c = some (m, n) ∧ n < m)
  /-- Values that are equal to the one between are equal unless integers are told apart. -/
  level : a.compare b = .eq → b.compare c = .eq →
    (a.compare c = .eq ↔ ∀ m n, a.commonIntegers? c = some (m, n) → m = n)
  /-- Values that ascend end above their beginning unless the ends are one as doubles. -/
  rising : a.compare b = .lt → b.compare c = .lt →
    a.compare c = if a.toDouble = c.toDouble ∧ a.commonIntegers? c = none then .eq else .lt

theorem chain (a b c : Value) : Chain a b c where
  total := by
    rw [← compare_swap a b, ne_eq, ne_eq, Ordering.swap_eq_gt]
    cases a.compare b <;> simp
  climbing first second := by
    rw [compare_eq_gt_iff_of_chain first second, tie_eq_iff (r := .gt) nofun]
    simp only [Int.compare_eq_gt]
  level first second := by
    rw [compare_of_same_chain first second, tie_eq_eq_iff]
  rising := compare_of_below_chain

/-! ## Lists -/

/-- Is the loose order transitive on the values of a list? -/
def IsTransitiveOn (values : List Value) : Prop :=
  ∀ a ∈ values, ∀ b ∈ values, ∀ c ∈ values,
    a.compare b ≠ .gt → b.compare c ≠ .gt → a.compare c ≠ .gt

/-- It is transitive on integers that are not beyond the signed orders, whatever their own orders are. -/
theorem isTransitiveOn_of_within
    (within : ∀ v ∈ values, ∃ o n h, v = int o n h ∧ n ≤ IntOrder.i128.high) :
    IsTransitiveOn values := by
  have exact {o p : IntOrder} {m n : Int} (hm : o.Fits m) (hn : p.Fits n)
      (left : m ≤ IntOrder.i128.high) (right : n ≤ IntOrder.i128.high) :
      (int o m hm).compare (int p n hn) = Ord.compare m n := by
    refine compare_of_not_apart hm hn ?_
    rintro (⟨-, beyond, -⟩ | ⟨-, -, beyond⟩)
    · exact Int.not_le.mpr beyond left
    · exact Int.not_le.mpr beyond right
  intro a ha b hb c hc first second
  obtain ⟨o, k, hk, rfl, left⟩ := within a ha
  obtain ⟨p, l, hl, rfl, middle⟩ := within b hb
  obtain ⟨q, m, hm, rfl, right⟩ := within c hc
  rw [exact hk hl left middle, ne_eq, Int.compare_eq_gt] at first
  rw [exact hl hm middle right, ne_eq, Int.compare_eq_gt] at second
  rw [exact hk hm left right, ne_eq, Int.compare_eq_gt]
  omega

/-- A list sorted by a comparison of values as far as that can be. -/
structure Sorts (values result : List Value) : Prop where
  perm : result.Perm values
  /-- The nearest doubles ascend. -/
  doubles : result.Pairwise fun a b => a.toDouble.compare b.toDouble ≠ .gt
  /-- A value is below one before it only if both have one nearest double. -/
  near : result.Pairwise fun a b => b.below a = true → a.toDouble = b.toDouble
  /-- Where the loose order is transitive, no value is below one before it. -/
  exact : IsTransitiveOn values → result.Pairwise fun a b => b.below a = false

theorem compare_toDouble_ne_gt_iff :
    a.toDouble.compare b.toDouble ≠ .gt ↔ a.toDouble.key ≤ b.toDouble.key := by
  rw [Double.compare, ne_eq, Int.compare_eq_gt, Int.not_lt]

/-- No comparison of values contradicts that of their nearest doubles. -/
theorem respects_doubles :
    Sorting.Respects below (fun _ => True) fun a b => a.toDouble.key ≤ b.toDouble.key where
  trans := Int.le_trans
  of_below _ _ less := key_le_key_of_compare (by rw [below_eq_true_iff.mp less]; exact nofun)
  of_not_below _ _ no := key_le_key_of_compare (below_eq_false_iff.mp no)

/-- Where the loose order is transitive, it does not contradict itself. -/
theorem respects_of_isTransitiveOn (transitive : IsTransitiveOn values) :
    Sorting.Respects below (· ∈ values) fun a b => (a ∈ values ∧ b ∈ values) ∧ a.compare b ≠ .gt where
  trans := fun ⟨⟨ha, hb⟩, first⟩ ⟨⟨_, hc⟩, second⟩ =>
    ⟨⟨ha, hc⟩, transitive _ ha _ hb _ hc first second⟩
  of_below ha hb less := ⟨⟨ha, hb⟩, by rw [below_eq_true_iff.mp less]; exact nofun⟩
  of_not_below ha hb no := ⟨⟨hb, ha⟩, below_eq_false_iff.mp no⟩

theorem sorts_sorted (values : List Value) : Sorts values (sorted values) := by
  have doubles : Sorting.Arranges _ values (sorted values) :=
    Sorting.arranges_sort respects_doubles fun _ _ => trivial
  refine ⟨doubles.perm, ?_, ?_, fun transitive => ?_⟩
  · exact doubles.ascends.imp compare_toDouble_ne_gt_iff.mpr
  · refine doubles.ascends.imp fun {a b} le less => ?_
    rcases compare_eq_lt_iff.mp (below_eq_true_iff.mp less) with apart | ⟨same, -⟩
    · exact absurd le (Int.not_le.mpr apart)
    · exact same.symm
  · have exact : Sorting.Arranges _ values (sorted values) :=
      Sorting.arranges_sort (respects_of_isTransitiveOn transitive) fun _ mem => mem
    exact exact.ascends.imp fun le => below_eq_false_iff.mpr le.2

/-- The loose order is total and transitive but for ties between values with one nearest double, and a
list of values is sorted by it but for the same. -/
theorem compare_orders_up_to_rounding (a b c : Value) (values : List Value) :
    Chain a b c ∧ Sorts values (sorted values) :=
  ⟨chain a b c, sorts_sorted values⟩

/-- The loose order is neither transitive nor kept by sorting: two integers with one nearest double are equal
to it and not to each other, and two steps upwards may end in a tie. -/
theorem compare_not_transitive :
    let a := int .u64 9007199254740993 (by decide)
    let b := double (.ofInt 9007199254740992)
    let c := int .u64 9007199254740992 (by decide)
    let d := int .i128 170141183460469231731687303715884105726 (by decide)
    let e := int .u128 170141183460469231731687303715884105727 (by decide)
    let f := int .u128 170141183460469231731687303715884105728 (by decide)
    (a.compare b = .eq ∧ b.compare c = .eq ∧ a.compare c = .gt) ∧
    (sorted [a, b, c] = [a, b, c] ∧ c.below a = true) ∧
    (d.compare e = .lt ∧ e.compare f = .lt ∧ d.compare f = .eq) := by
  decide +kernel

end Value

end Reckoner
