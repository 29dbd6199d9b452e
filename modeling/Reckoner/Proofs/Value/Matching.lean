import Mathlib.Logic.Function.Iterate
import Reckoner.Proofs.Value.Comparing

/-!
# Matching two orders

Two values are matched by a loop: while their orders differ, the one at the lower order is promoted.  A
turn of the loop may leave either value the lower one, but it always raises the lower of the two ranks
(`lowerRank_lt_raiseLower`).  No rank is above four, so four turns are enough (`endsAt_matchOrders`).

What the turns arrive at is `matchOrders`, since a turn changes nothing about it (`matchOrders_raiseLower`)
and two values at one order are matched as they are (`matchOrders_of_order_eq`).  Neither fact tells the
two sides apart, and so matching does not either (`matchOrders_swap`).
-/

namespace Reckoner

namespace Value

/-! ## Turns -/

/-- One turn of the loop on two values at different orders: the one at the lower order is promoted. -/
def raiseLower (pair : Value × Value) : Value × Value :=
  if pair.1.order.rank < pair.2.order.rank then (pair.1.promote, pair.2)
  else (pair.1, pair.2.promote)

theorem raiseLower_of_lt {a b : Value} (lower : a.order.rank < b.order.rank) :
    raiseLower (a, b) = (a.promote, b) := if_pos lower

theorem raiseLower_of_not_lt {a b : Value} (higher : ¬ a.order.rank < b.order.rank) :
    raiseLower (a, b) = (a, b.promote) := if_neg higher

/-- The lower one of two ranks. -/
def lowerRank (pair : Value × Value) : Nat := min pair.1.order.rank pair.2.order.rank

theorem lowerRank_le_four (pair : Value × Value) : lowerRank pair ≤ 4 :=
  Nat.le_trans (Nat.min_le_left _ _) pair.1.order.rank_le_four

/-- A value below some rank is promoted to a higher one. -/
theorem rank_lt_rank_promote {v : Value} (h : v.order.rank < 4) :
    v.order.rank < v.promote.order.rank := by
  cases v with
  | int o n fits => exact rank_lt_promote o n fits
  | double x => exact absurd h (Nat.lt_irrefl 4)

/-- A turn raises the lower rank. -/
theorem lowerRank_lt_raiseLower {pair : Value × Value} (differ : pair.1.order ≠ pair.2.order) :
    lowerRank pair < lowerRank (raiseLower pair) := by
  obtain ⟨a, b⟩ := pair
  have ranks : a.order.rank ≠ b.order.rank := fun h => differ (Order.rank_injective h)
  have left := a.order.rank_le_four
  have right := b.order.rank_le_four
  by_cases lower : a.order.rank < b.order.rank
  · have raised := rank_lt_rank_promote (v := a) (Nat.lt_of_lt_of_le lower right)
    rw [raiseLower_of_lt lower]
    simp only [lowerRank]
    omega
  · have raised := rank_lt_rank_promote (v := b) (by omega)
    rw [raiseLower_of_not_lt lower]
    simp only [lowerRank]
    omega

/-- Two values at one order are matched as they are. -/
theorem matchOrders_of_order_eq {pair : Value × Value} (same : pair.1.order = pair.2.order) :
    ((pair.1.matchOrders pair.2).left, (pair.1.matchOrders pair.2).right) = pair := by
  obtain ⟨a, b⟩ := pair
  dsimp only at same ⊢
  cases a with
  | int o m hm =>
    cases b with
    | int p n hn =>
      obtain rfl : o = p := Order.integer.inj same
      rw [matchOrders, dif_pos rfl]
      rfl
    | double y => cases same
  | double x =>
    cases b with
    | int p n hn => cases same
    | double y =>
      rw [matchOrders]
      rfl

/-- A turn does not change how two values are matched. -/
theorem matchOrders_raiseLower {pair : Value × Value} (differ : pair.1.order ≠ pair.2.order) :
    (raiseLower pair).1.matchOrders (raiseLower pair).2 = pair.1.matchOrders pair.2 := by
  obtain ⟨a, b⟩ := pair
  dsimp only at differ ⊢
  cases a with
  | int o m hm =>
    cases b with
    | int p n hn =>
      have other : o ≠ p := fun h => differ (congrArg Order.integer h)
      rw [matchOrders.eq_def (int o m hm) (int p n hn)]
      simp only [dif_neg other]
      by_cases lower : o.rank < p.rank
      · rw [raiseLower_of_lt (a := int o m hm) (b := int p n hn) lower, if_pos lower]
      · rw [raiseLower_of_not_lt (a := int o m hm) (b := int p n hn) lower, if_neg lower]
    | double y =>
      rw [raiseLower_of_lt (a := int o m hm) (b := double y) o.rank_lt_four,
        matchOrders.eq_def (int o m hm) (double y)]
  | double x =>
    cases b with
    | int p n hn =>
      have higher : ¬ 4 < p.rank := Nat.not_lt.mpr (Nat.le_of_lt p.rank_lt_four)
      rw [raiseLower_of_not_lt (a := double x) (b := int p n hn) higher,
        matchOrders.eq_def (double x) (int p n hn)]
    | double y => exact absurd rfl differ

/-- The loop leads from one pair of values to another one, which is at one order, with no more turns than
there are ranks above the lower one. -/
def EndsAt (pair last : Value × Value) : Prop :=
  ∃ k, k + lowerRank pair ≤ 4 ∧
    (∀ i < k, (raiseLower^[i] pair).1.order ≠ (raiseLower^[i] pair).2.order) ∧
    raiseLower^[k] pair = last

theorem endsAt_self (pair : Value × Value) : EndsAt pair pair :=
  ⟨0, by have := lowerRank_le_four pair; omega, fun i h => absurd h (Nat.not_lt_zero i), rfl⟩

/-- One more turn in front. -/
theorem EndsAt.turn {pair last : Value × Value} (differ : pair.1.order ≠ pair.2.order)
    (h : EndsAt (raiseLower pair) last) : EndsAt pair last := by
  obtain ⟨k, few, apart, arrives⟩ := h
  have raised := lowerRank_lt_raiseLower differ
  refine ⟨k + 1, by omega, fun i less => ?_, arrives⟩
  cases i with
  | zero => exact differ
  | succ i => exact apart i (Nat.lt_of_succ_lt_succ less)

/-- The loop ends where two values are matched. -/
theorem endsAt_matchOrders (pair : Value × Value) :
    EndsAt pair ((pair.1.matchOrders pair.2).left, (pair.1.matchOrders pair.2).right) := by
  -- Each turn leaves fewer ranks above the lower one.
  induction room : 4 - lowerRank pair using Nat.strong_induction_on generalizing pair with
  | h room ih =>
    by_cases same : pair.1.order = pair.2.order
    · rw [matchOrders_of_order_eq same]
      exact endsAt_self pair
    · have raised := lowerRank_lt_raiseLower same
      have most := lowerRank_le_four (raiseLower pair)
      rw [← matchOrders_raiseLower same]
      exact EndsAt.turn same (ih _ (by omega) (raiseLower pair) rfl)

/-! ## Where the loop ends -/

/-- The same values, the right one first. -/
def Matched.swap : Matched → Matched
  | .ints o m n hm hn => .ints o n m hn hm
  | .doubles x y => .doubles y x

/-- Matching treats both sides alike. -/
theorem matchOrders_swap (a b : Value) : b.matchOrders a = (a.matchOrders b).swap := by
  fun_induction matchOrders a b with
  | case1 o m hm n hn =>
    rw [matchOrders, dif_pos rfl]
    rfl
  | case2 o m hm p n hn other lower ih =>
    rw [← ih, matchOrders.eq_def (int p n hn)]
    simp only [dif_neg (Ne.symm other), if_neg (Nat.lt_asymm lower)]
  | case3 o m hm p n hn other higher ih =>
    have ranks : o.rank ≠ p.rank := fun h => other (IntOrder.rank_injective h)
    rw [← ih, matchOrders.eq_def (int p n hn)]
    simp only [dif_neg (Ne.symm other), if_pos (show p.rank < o.rank by omega)]
  | case4 o m hm y ih => rw [← ih, matchOrders.eq_def (double y)]
  | case5 x p n hn ih => rw [← ih, matchOrders.eq_def (int p n hn)]
  | case6 x y =>
    rw [matchOrders]
    rfl

/-- Values that have been matched are matched as they are. -/
theorem matchOrders_left_right (found : Matched) : found.left.matchOrders found.right = found := by
  cases found with
  | ints o m n hm hn =>
    rw [Matched.left, Matched.right, matchOrders, dif_pos rfl]
  | doubles x y =>
    rw [Matched.left, Matched.right, matchOrders]

/-- What `found` has to be if it is what two values are matched as. -/
structure Matches (a b : Value) (found : Matched) : Prop where
  /-- The loop leads there in four turns at most, and goes on only from two different orders. -/
  turns : ∃ k ≤ 4, (∀ i < k, (raiseLower^[i] (a, b)).1.order ≠ (raiseLower^[i] (a, b)).2.order) ∧
    raiseLower^[k] (a, b) = (found.left, found.right)
  /-- Both values are at one order. -/
  level : found.left.order = found.order ∧ found.right.order = found.order
  /-- That order is not below those of the two values. -/
  above : a.order.rank ≤ found.order.rank ∧ b.order.rank ≤ found.order.rank
  swapped : b.matchOrders a = found.swap
  settled : found.left.matchOrders found.right = found
  /-- Only a double makes for doubles, or an integer beyond the signed orders and another order with a
  sign. -/
  order_eq_double_iff : found.order = .double ↔ a.order = .double ∨ b.order = .double ∨
    ∃ o p m n hm hn, a = int o m hm ∧ b = int p n hn ∧ Apart o p m n
  /-- Doubles are the ones nearest to the values themselves. -/
  rounded : found.order = .double → found = .doubles a.toDouble b.toDouble
  /-- Integers are those of the values. -/
  exact : found.order ≠ .double → ∃ o p q m n hm hn hm' hn',
    a = int o m hm ∧ b = int p n hn ∧ found = .ints q m n hm' hn'

@[simp] theorem Matched.order_swap (found : Matched) : found.swap.order = found.order := by
  cases found <;> rfl

/-- Only a double is matched as doubles, or an integer beyond the signed orders with one at an order that
has a sign. -/
theorem order_matchOrders_eq_double_iff (a b : Value) :
    (a.matchOrders b).order = .double ↔ a.order = .double ∨ b.order = .double ∨
      ∃ o p m n hm hn, a = int o m hm ∧ b = int p n hn ∧ Apart o p m n := by
  constructor
  · intro doubles
    cases a with
    | double x => exact Or.inl rfl
    | int o m hm =>
      cases b with
      | double y => exact Or.inr (Or.inl rfl)
      | int p n hn =>
        refine Or.inr (Or.inr ⟨o, p, m, n, hm, hn, rfl, rfl, ?_⟩)
        by_contra near
        obtain ⟨q, left, right, met⟩ := matchOrders_of_not_apart hm hn near
        rw [met] at doubles
        cases doubles
  · rintro (left | right | ⟨o, p, m, n, hm, hn, rfl, rfl, apart⟩)
    · rw [matchOrders_of_order_double (Or.inl left), Matched.order_doubles]
    · rw [matchOrders_of_order_double (Or.inr right), Matched.order_doubles]
    · rw [matchOrders_of_apart hm hn apart, Matched.order_doubles]

/-- All other values are matched as the integers that they are. -/
theorem exists_ints_of_order_ne_double {a b : Value} (integers : (a.matchOrders b).order ≠ .double) :
    ∃ o p q m n hm hn hm' hn', a = int o m hm ∧ b = int p n hn ∧
      a.matchOrders b = .ints q m n hm' hn' := by
  rw [Ne, order_matchOrders_eq_double_iff] at integers
  obtain ⟨left, right, near⟩ : a.order ≠ .double ∧ b.order ≠ .double ∧ _ :=
    ⟨fun h => integers (Or.inl h), fun h => integers (Or.inr (Or.inl h)),
      fun h => integers (Or.inr (Or.inr h))⟩
  cases a with
  | double x => exact absurd rfl left
  | int o m hm =>
    cases b with
    | double y => exact absurd rfl right
    | int p n hn =>
      have apart : ¬ Apart o p m n := fun h => near ⟨o, p, m, n, hm, hn, rfl, rfl, h⟩
      obtain ⟨q, left, right, met⟩ := matchOrders_of_not_apart hm hn apart
      exact ⟨o, p, q, m, n, hm, hn, left, right, rfl, rfl, met⟩

/-- Two values are matched in at most four turns, alike from both sides, and as the integers that they are
unless that is impossible. -/
theorem matchOrders_matches (a b : Value) : Matches a b (a.matchOrders b) := by
  obtain ⟨k, few, apart, arrives⟩ := endsAt_matchOrders (a, b)
  refine ⟨⟨k, by omega, apart, arrives⟩, ?_, ⟨rank_le_matchOrders a b, ?_⟩, matchOrders_swap a b,
    matchOrders_left_right _, order_matchOrders_eq_double_iff a b, fun doubles => ?_,
    exists_ints_of_order_ne_double⟩
  · cases a.matchOrders b with
    | ints o m n hm hn => exact ⟨rfl, rfl⟩
    | doubles x y => exact ⟨rfl, rfl⟩
  · have right := rank_le_matchOrders b a
    rwa [matchOrders_swap, Matched.order_swap] at right
  · cases met : a.matchOrders b with
    | ints o m n hm hn =>
      rw [met] at doubles
      cases doubles
    | doubles x y =>
      obtain ⟨rfl, rfl⟩ := eq_of_matchOrders_doubles met
      rfl

end Value

end Reckoner
