import Reckoner.Expr.Operator
import Reckoner.Proofs.Value.Homes

/-!
# Sums, products and differences of integers

An operation that climbs is exact at the first order where its operands can meet that holds the exact
result; where there is none, the operands have been rounded to doubles once each, and so is the result
(`climb_eq`).  So the result of a sum or a product is known from the orders of the operands, once it
is known where they can meet (`Promotes`).

A difference climbs in the same way, but from a left operand that has been given a sign if it is below the
right one (`sub_result`).  The comparison that decides on the sign is exact wherever the sign matters: two
unsigned integers meet at an integer order, and if one operand has a sign already then the sign of the
other one changes nothing about where they meet.
-/

namespace Reckoner

namespace Value

/-- The integer at the first of the orders that holds it, or else the double. -/
def firstFit (r : Int) (x : Double) : List IntOrder → Value
  | [] => .double x
  | o :: orders => if h : o.Fits r then .int o r h else firstFit r x orders

theorem firstFit_of_fits {o : IntOrder} {r : Int} (h : o.Fits r) (x : Double)
    (orders : List IntOrder) : firstFit r x (o :: orders) = .int o r h := dif_pos h

theorem firstFit_of_not_fits {o : IntOrder} {r : Int} (h : ¬ o.Fits r) (x : Double)
    (orders : List IntOrder) : firstFit r x (o :: orders) = firstFit r x orders := dif_neg h

/-- Orders that do not hold the integer change nothing at the end. -/
theorem firstFit_append {r : Int} {later : List IntOrder} (none : ∀ o ∈ later, ¬ o.Fits r)
    (x : Double) (orders : List IntOrder) :
    firstFit r x (orders ++ later) = firstFit r x orders := by
  induction orders with
  | nil =>
    induction later with
    | nil => rfl
    | cons o later ih =>
      rw [List.nil_append, firstFit_of_not_fits (none o List.mem_cons_self)]
      exact ih fun q hq => none q (List.mem_cons_of_mem _ hq)
  | cons o orders ih =>
    rw [List.cons_append]
    by_cases h : o.Fits r
    · rw [firstFit_of_fits h, firstFit_of_fits h]
    · rw [firstFit_of_not_fits h, firstFit_of_not_fits h, ih]

/-- Orders after one that holds the integer are not looked at. -/
theorem firstFit_append_of_mem {r : Int} {o : IntOrder} {orders : List IntOrder} (mem : o ∈ orders)
    (fits : o.Fits r) (x : Double) (later : List IntOrder) :
    firstFit r x (orders ++ later) = firstFit r x orders := by
  induction orders with
  | nil => cases mem
  | cons q orders ih =>
    rw [List.cons_append]
    by_cases h : q.Fits r
    · rw [firstFit_of_fits h, firstFit_of_fits h]
    · have other : o ≠ q := by rintro rfl; exact h fits
      rw [firstFit_of_not_fits h, firstFit_of_not_fits h,
        ih ((List.mem_cons.mp mem).resolve_left other)]

/-- What is sought at some orders is exact, or beyond all of them. -/
theorem firstFit_cases (r : Int) (x : Double) (orders : List IntOrder) :
    (∃ q ∈ orders, ∃ h : q.Fits r, firstFit r x orders = int q r h) ∨
      (∀ q ∈ orders, ¬ q.Fits r) ∧ firstFit r x orders = .double x := by
  induction orders with
  | nil => exact Or.inr ⟨fun q mem => (List.not_mem_nil mem).elim, rfl⟩
  | cons q orders ih =>
    by_cases fits : q.Fits r
    · exact Or.inl ⟨q, List.mem_cons_self, fits, firstFit_of_fits fits x orders⟩
    · rw [firstFit_of_not_fits fits]
      rcases ih with ⟨q', mem, fits', found⟩ | ⟨beyond, found⟩
      · exact Or.inl ⟨q', List.mem_cons_of_mem _ mem, fits', found⟩
      · refine Or.inr ⟨fun q' mem => ?_, found⟩
        rcases List.mem_cons.mp mem with rfl | later
        · exact fits
        · exact beyond q' later

/-- A climb passes the orders where the operands can meet that do not hold the exact result.  It ends at the
first one that does, and with the rounded result where there is none. -/
theorem climb_eq (exact : Int → Int → Int) (rounded : Double → Double → Double) {a b : Value}
    {m n : Int} (ha : a.StandsFor m) (hb : b.StandsFor n) :
    climb exact rounded a b =
      ⟨firstFit (exact m n) (rounded (.ofInt m) (.ofInt n)) (a.meeting b),
        (a.meeting b).takeWhile fun o => ¬ o.Fits (exact m n)⟩ := by
  -- A result that does not fit gives up the first order of the meeting and leaves the others.
  fun_induction climb exact rounded a b generalizing m n with
  | case1 a b x y met =>
    obtain ⟨rfl, rfl, nowhere⟩ := meeting_of_doubles ha hb met
    rw [nowhere]
    rfl
  | case2 a b o k l hk hl met fits =>
    obtain ⟨rfl, rfl, meets⟩ := meeting_of_ints ha hb met
    rw [meets, firstFit_of_fits fits, List.takeWhile_cons_of_neg (by simpa using fits)]
  | case3 a b o k l hk hl met fits higher =>
    rename_i ih
    obtain ⟨rfl, rfl, meets⟩ := meeting_of_ints ha hb met
    have onward : higher = _ := ih (standsFor_int hk).promote (standsFor_int hl)
    rw [meets, firstFit_of_not_fits fits, List.takeWhile_cons_of_pos (by simpa using fits), onward]

theorem climb_result (exact : Int → Int → Int) (rounded : Double → Double → Double) {a b : Value}
    {m n : Int} (ha : a.StandsFor m) (hb : b.StandsFor n) :
    (climb exact rounded a b).result =
      firstFit (exact m n) (rounded (.ofInt m) (.ofInt n)) (a.meeting b) :=
  congrArg Ascent.result (climb_eq exact rounded ha hb)

section Integers

variable {o p : IntOrder} {m n r : Int} {x : Double} {v : Value}

/-- With a sign among the operands, the value `v` that an operation gives for the integers `m` and `n` at
the orders `o` and `p`, which are matched at the order `meets`, if its exact result is `r` and its result
in doubles is `x`. -/
structure Settles (o p : IntOrder) (m n : Int) (meets : Order) (r : Int) (x : Double) (v : Value) :
    Prop where
  /-- An operand beyond the signed orders and one at a signed order. -/
  apart : Apart o p m n → v = .double x
  /-- Otherwise: at the signed order where the operands are matched, or above it. -/
  signed : o.isSigned = true ∨ p.isSigned = true → ¬ Apart o p m n →
    meets = .integer .i64 ∧ v = firstFit r x [.i64, .i128] ∨
      meets = .integer .i128 ∧ v = firstFit r x [.i128]

/-- A value that was sought where its operands can meet is settled by the orders of the operands. -/
theorem settles_of_firstFit (hm : o.Fits m) (hn : p.Fits n)
    (climbed : o.isSigned = true ∨ p.isSigned = true →
      v = firstFit r x ((int o m hm).meeting (int p n hn))) :
    Settles o p m n ((int o m hm).matchOrders (int p n hn)).order r x v := by
  refine ⟨fun apart => ?_, fun sign near => ?_⟩
  · rw [climbed apart.sign, meeting_of_apart hm hn apart]
    rfl
  · rcases meeting_of_signed hm hn sign near with meets | meets
    · have matched := order_matchOrders (standsFor_int hm) (standsFor_int hn) meets
      exact Or.inl ⟨matched, by rw [climbed sign, meets]⟩
    · have matched := order_matchOrders (standsFor_int hm) (standsFor_int hn) meets
      exact Or.inr ⟨matched, by rw [climbed sign, meets]⟩

/-! ## Sums and products -/

/-- The value of a sum or a product, as the orders of the operands decide it. -/
structure Promotes (o p : IntOrder) (m n : Int) (meets : Order) (r : Int) (x : Double) (v : Value) :
    Prop extends Settles o p m n meets r x v where
  /-- Without signs: at 64 bits if both operands are, or else at 128 bits. -/
  unsigned : o.isSigned = false → p.isSigned = false →
    v = firstFit r x (if o = .u64 ∧ p = .u64 then [.u64, .u128] else [.u128])

/-- An integer that is not below zero and beyond the unsigned orders is beyond the signed ones. -/
theorem not_fits_signed (least : 0 ≤ r) (beyond : ¬ IntOrder.u128.Fits r) {q : IntOrder}
    (sign : q.isSigned = true) : ¬ q.Fits r := by
  cases q with
  | u64 | u128 => cases sign
  | i64 | i128 =>
    simp only [IntOrder.Fits, IntOrder.low, IntOrder.high] at beyond ⊢
    omega

/-- Signed orders add nothing to the widest unsigned one for an integer that is not below zero. -/
theorem firstFit_append_signedHomes (least : 0 ≤ r) (x : Double) (orders : List IntOrder)
    (widest : .u128 ∈ orders) (k : Int) :
    firstFit r x (orders ++ signedHomes k) = firstFit r x orders := by
  by_cases fits : IntOrder.u128.Fits r
  · exact firstFit_append_of_mem widest fits x _
  · exact firstFit_append
      (fun q mem => not_fits_signed least fits (isSigned_of_mem_signedHomes mem)) x orders

/-- A climb promotes as sums and products do if it does not lead below zero from without signs. -/
theorem promotes_climb (hm : o.Fits m) (hn : p.Fits n) {exact : Int → Int → Int}
    {rounded : Double → Double → Double}
    (least : o.isSigned = false → p.isSigned = false → 0 ≤ exact m n) :
    Promotes o p m n ((int o m hm).matchOrders (int p n hn)).order (exact m n)
      (rounded (.ofInt m) (.ofInt n)) (climb exact rounded (int o m hm) (int p n hn)).result := by
  have climbed := climb_result exact rounded (standsFor_int hm) (standsFor_int hn)
  refine ⟨settles_of_firstFit hm hn fun _ => climbed, fun left right => ?_⟩
  rw [climbed, meeting_of_unsigned hm hn left right]
  exact firstFit_append_signedHomes (least left right) _ _ (by split <;> simp) _

/-- Sums and products of integers are exact and promote as little as they have to. -/
theorem add_mul_promotes (hm : o.Fits m) (hn : p.Fits n) :
    let a := int o m hm
    let b := int p n hn
    (InfixOp.add.apply a b = .ok (a.add b) ∧
      Promotes o p m n (a.matchOrders b).order (m + n) (.ofInt m + .ofInt n) (a.add b).result) ∧
    (InfixOp.mul.apply a b = .ok (a.mul b) ∧
      Promotes o p m n (a.matchOrders b).order (m * n) (.ofInt m * .ofInt n) (a.mul b).result) := by
  refine ⟨⟨rfl, promotes_climb hm hn fun left right => ?_⟩,
    ⟨rfl, promotes_climb hm hn fun left right => ?_⟩⟩
  · exact Int.add_nonneg (nonneg_of_unsigned hm left) (nonneg_of_unsigned hn right)
  · exact Int.mul_nonneg (nonneg_of_unsigned hm left) (nonneg_of_unsigned hn right)

theorem add_mul_promotes_mixed :
    let a := int .u64 5000000000 (by decide)
    let b := int .i64 (-9000000000) (by decide)
    (InfixOp.add.apply a b = .ok (a.add b) ∧
      Promotes .u64 .i64 5000000000 (-9000000000) (a.matchOrders b).order (-4000000000)
        (.ofInt 5000000000 + .ofInt (-9000000000)) (a.add b).result) ∧
    (InfixOp.mul.apply a b = .ok (a.mul b) ∧
      Promotes .u64 .i64 5000000000 (-9000000000) (a.matchOrders b).order (-45000000000000000000)
        (.ofInt 5000000000 * .ofInt (-9000000000)) (a.mul b).result) :=
  add_mul_promotes _ _

/-! ## Differences -/

/-- A difference climbs from where its operands can meet, or from the signed orders among these if the
left operand compares as below the right one. -/
theorem sub_result {a b : Value} (ha : a.StandsFor m) (hb : b.StandsFor n) :
    (a.sub b).result = firstFit (m - n) (.ofInt m - .ofInt n)
      (if b.compare a == .gt then (a.meeting b).filter (·.isSigned) else a.meeting b) := by
  unfold sub
  split
  · rw [climb_result _ _ ha.promoteToSigned hb, meeting_promoteToSigned]
  · exact climb_result _ _ ha hb

/-- The comparison does not matter where there is a sign already. -/
theorem sub_of_signed (hm : o.Fits m) (hn : p.Fits n)
    (sign : o.isSigned = true ∨ p.isSigned = true) :
    ((int o m hm).sub (int p n hn)).result =
      firstFit (m - n) (.ofInt m - .ofInt n) ((int o m hm).meeting (int p n hn)) := by
  rw [sub_result (standsFor_int hm) (standsFor_int hn),
    List.filter_eq_self.mpr fun q => isSigned_of_mem_meeting hm hn sign, ite_self]

/-- Not below zero the difference fits where the left operand does. -/
theorem sub_of_le (hm : o.Fits m) (hn : p.Fits n) (left : o.isSigned = false)
    (right : p.isSigned = false) (above : n ≤ m) :
    ∃ fits, ((int o m hm).sub (int p n hn)).result =
      .int (if o = .u64 ∧ p = .u64 then .u64 else .u128) (m - n) fits := by
  have least := nonneg_of_unsigned hn right
  have kept : ((int p n hn).compare (int o m hm) == .gt) = false := by
    rw [compare_of_unsigned hn hm right left]
    exact decide_eq_false (Int.not_lt.mpr above)
  rw [sub_result (standsFor_int hm) (standsFor_int hn), kept, if_neg Bool.false_ne_true,
    meeting_of_unsigned hm hn left right]
  by_cases narrow : o = .u64 ∧ p = .u64
  · have fits : IntOrder.u64.Fits (m - n) := by
      obtain ⟨rfl, rfl⟩ := narrow
      exact ⟨Int.sub_nonneg.mpr above, Int.le_trans (Int.sub_le_self m least) hm.2⟩
    rw [if_pos narrow, if_pos narrow]
    exact ⟨fits, firstFit_of_fits fits _ _⟩
  · have highest : m ≤ IntOrder.u128.high := Int.le_trans hm.2 (by cases o <;> decide)
    have fits : IntOrder.u128.Fits (m - n) :=
      ⟨Int.sub_nonneg.mpr above, Int.le_trans (Int.sub_le_self m least) highest⟩
    rw [if_neg narrow, if_neg narrow]
    exact ⟨fits, firstFit_of_fits fits _ _⟩

/-- Below zero only the signed orders that hold the right operand are left. -/
theorem sub_of_lt (hm : o.Fits m) (hn : p.Fits n) (left : o.isSigned = false)
    (right : p.isSigned = false) (below : m < n) :
    ((int o m hm).sub (int p n hn)).result =
      firstFit (m - n) (.ofInt m - .ofInt n) (signedHomes n) := by
  have lifted : ((int p n hn).compare (int o m hm) == .gt) = true := by
    rw [compare_of_unsigned hn hm right left]
    exact decide_eq_true below
  rw [sub_result (standsFor_int hm) (standsFor_int hn), lifted, if_pos rfl,
    meeting_of_unsigned hm hn left right, List.filter_append, Int.max_eq_right (Int.le_of_lt below),
    List.filter_eq_self.mpr fun q mem => isSigned_of_mem_signedHomes mem]
  split <;> rfl

/-- The value of a difference whose operands differ by `x` in doubles, as the orders of the operands
decide it. -/
structure Subtracts (o p : IntOrder) (m n : Int) (meets : Order) (x : Double) (v : Value) : Prop
    extends Settles o p m n meets (m - n) x v where
  /-- Without signs and not below zero: at 64 bits if both operands are, or else at 128 bits. -/
  unsigned : o.isSigned = false → p.isSigned = false → n ≤ m →
    ∃ fits, v = .int (if o = .u64 ∧ p = .u64 then .u64 else .u128) (m - n) fits
  /-- Without signs and below zero: at the first signed order that holds the right operand. -/
  below : o.isSigned = false → p.isSigned = false → m < n →
    (n ≤ IntOrder.i64.high → ∃ fits, v = .int .i64 (m - n) fits) ∧
      (IntOrder.i64.high < n → n ≤ IntOrder.i128.high → ∃ fits, v = .int .i128 (m - n) fits) ∧
        (IntOrder.i128.high < n → v = .double x)

/-- Differences of integers are exact and promote as little as they have to. -/
theorem sub_subtracts (hm : o.Fits m) (hn : p.Fits n) :
    let a := int o m hm
    let b := int p n hn
    InfixOp.sub.apply a b = .ok (a.sub b) ∧
      Subtracts o p m n (a.matchOrders b).order (.ofInt m - .ofInt n) (a.sub b).result := by
  refine ⟨rfl, settles_of_firstFit hm hn (sub_of_signed hm hn), sub_of_le hm hn,
    fun left right below => ?_⟩
  have least := nonneg_of_unsigned hm left
  rw [sub_of_lt hm hn left right below]
  -- The difference is not below the negation of the right operand, so it fits where that one does.
  unfold signedHomes
  refine ⟨fun within => ?_, fun wide within => ?_, fun beyond => ?_⟩
  · have fits : IntOrder.i64.Fits (m - n) := by
      simp only [IntOrder.Fits, IntOrder.low, IntOrder.high] at within ⊢
      omega
    rw [if_pos within]
    exact ⟨fits, firstFit_of_fits fits _ _⟩
  · have fits : IntOrder.i128.Fits (m - n) := by
      simp only [IntOrder.Fits, IntOrder.low, IntOrder.high] at within ⊢
      omega
    rw [if_neg (Int.not_le.mpr wide), if_pos within]
    exact ⟨fits, firstFit_of_fits fits _ _⟩
  · have wide : ¬ n ≤ IntOrder.i64.high := fun h =>
      absurd (Int.le_trans h (by decide)) (Int.not_le.mpr beyond)
    rw [if_neg wide, if_neg (Int.not_le.mpr beyond)]
    rfl

theorem sub_subtracts_below :
    let a := int .u64 7 (by decide)
    let b := int .u128 9223372036854775808 (by decide)
    InfixOp.sub.apply a b = .ok (a.sub b) ∧
      Subtracts .u64 .u128 7 9223372036854775808 (a.matchOrders b).order
        (.ofInt 7 - .ofInt 9223372036854775808) (a.sub b).result :=
  sub_subtracts _ _

end Integers

end Value

end Reckoner
