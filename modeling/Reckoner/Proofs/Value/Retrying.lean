import Mathlib.Data.List.TakeWhile
import Mathlib.Logic.Function.Iterate
import Reckoner.Expr.Evaluation
import Reckoner.Proofs.Value.Commuting
import Reckoner.Proofs.Value.Powers

/-!
# What is reported of a climb

A sum, a difference, a product or a power whose exact result does not fit is tried again with a promoted
operand, and the order of each try that fails is reported.  `Climber.operands` follows the operands from try
to try.  They always stand for the integers that were given, and the orders at which they can still meet are
those after the ones that have been tried (`iterate_retry_spec`).  The base of a power is promoted alone, and
the same is true of its homes (`iterate_promote_spec`).

So the orders are tried in the sequence of their ranks (`TriesAt`), until one of them holds the exact result
or doubles are all that is left (`TriesAt.reports`).
-/

namespace Reckoner

/-- The operations that are tried again at a higher order. -/
inductive Climber where
  | add
  | sub
  | mul
  | pow
deriving DecidableEq

namespace Climber

def op : Climber → InfixOp
  | add => .add
  | sub => .sub
  | mul => .mul
  | pow => .pow

/-- The exact result for two integers, the second of which is a count if it is an exponent. -/
def exact : Climber → Int → Int → Int
  | add, m, n => m + n
  | sub, m, n => m - n
  | mul, m, n => m * n
  | pow, m, n => Int.pow m n.toNat

/-- The result for two doubles. -/
def rounded : Climber → Double → Double → Double
  | add, x, y => x + y
  | sub, x, y => x - y
  | mul, x, y => x * y
  | pow, x, y => x.pow y

end Climber

namespace Value

/-! ## From one try to the next -/

/-- Two values at the order at which they are matched. -/
def level (pair : Value × Value) : Value × Value :=
  ((pair.1.matchOrders pair.2).left, (pair.1.matchOrders pair.2).right)

/-- The operands after a try that has failed: matched, and the left one promoted. -/
def retry (pair : Value × Value) : Value × Value := ((level pair).1.promote, (level pair).2)

/-- The left operand of a difference, with a sign if it is below the right one. -/
def signedLeft (a b : Value) : Value := if b.compare a == .gt then a.promoteToSigned else a

section Tries

variable {a b v : Value} {m n : Int}

/-- Values that can meet are matched at the first order where they can. -/
theorem level_of_meeting {q : IntOrder} {orders : List IntOrder} (ha : a.StandsFor m) (hb : b.StandsFor n)
    (meets : a.meeting b = q :: orders) : ∃ hm hn, level (a, b) = (int q m hm, int q n hn) := by
  rcases matchOrders_standing ha hb with ⟨q', hm, hn, met, same⟩ | ⟨-, nowhere⟩
  · rw [same, meeting_same] at meets
    obtain rfl := (List.cons.inj meets).1
    exact ⟨hm, hn, by rw [level, met]; rfl⟩
  · rw [nowhere] at meets
    cases meets

/-- Values that cannot meet are matched as doubles. -/
theorem level_of_not_meeting (ha : a.StandsFor m) (hb : b.StandsFor n) (nowhere : a.meeting b = []) :
    level (a, b) = (double (.ofInt m), double (.ofInt n)) := by
  rcases matchOrders_standing ha hb with ⟨q, hm, hn, -, same⟩ | ⟨met, -⟩
  · rw [same, meeting_same] at nowhere
    cases nowhere
  · rw [level, met]
    rfl

/-- Matching keeps the integers, and where they can meet. -/
theorem level_spec (ha : a.StandsFor m) (hb : b.StandsFor n) :
    (level (a, b)).1.StandsFor m ∧ (level (a, b)).2.StandsFor n ∧
      (level (a, b)).1.meeting (level (a, b)).2 = a.meeting b := by
  rcases matchOrders_standing ha hb with ⟨q, hm, hn, met, same⟩ | ⟨met, nowhere⟩
  · rw [level, met]
    exact ⟨standsFor_int hm, standsFor_int hn, same.symm⟩
  · rw [level, met, nowhere]
    exact ⟨rfl, rfl, meeting_double _ _⟩

/-- A failed try gives up the first order where the operands can meet, and keeps the integers. -/
theorem retry_spec (ha : a.StandsFor m) (hb : b.StandsFor n) :
    (retry (a, b)).1.StandsFor m ∧ (retry (a, b)).2.StandsFor n ∧
      (retry (a, b)).1.meeting (retry (a, b)).2 = (a.meeting b).tail := by
  rcases matchOrders_standing ha hb with ⟨q, hm, hn, met, same⟩ | ⟨met, nowhere⟩
  · have leveled : retry (a, b) = ((int q m hm).promote, int q n hn) := by
      rw [retry, level, met]
      rfl
    rw [leveled, same, meeting_same]
    exact ⟨(standsFor_int hm).promote, standsFor_int hn, rfl⟩
  · have leveled : retry (a, b) = (double (.ofInt m), double (.ofInt n)) := by
      rw [retry, level, met]
      rfl
    rw [leveled, nowhere]
    exact ⟨rfl, rfl, meeting_double _ _⟩

/-- The operands that are left after some failed tries. -/
theorem iterate_retry_spec (ha : a.StandsFor m) (hb : b.StandsFor n) (i : Nat) :
    (retry^[i] (a, b)).1.StandsFor m ∧ (retry^[i] (a, b)).2.StandsFor n ∧
      (retry^[i] (a, b)).1.meeting (retry^[i] (a, b)).2 = (a.meeting b).drop i := by
  induction i with
  | zero => exact ⟨ha, hb, rfl⟩
  | succ i ih =>
    obtain ⟨left, right, meets⟩ := ih
    obtain ⟨left', right', meets'⟩ := retry_spec left right
    rw [Function.iterate_succ_apply']
    exact ⟨left', right', by rw [meets', meets, List.tail_drop]⟩

theorem homes_tail (v : Value) : v.promote.homes = v.homes.tail := by
  match v with
  | .int o n h => rw [homes_promote o n h, List.tail_cons]
  | .double x => rfl

/-- A value that has been promoted some times. -/
theorem iterate_promote_spec (h : v.StandsFor m) (i : Nat) :
    (promote^[i] v).StandsFor m ∧ (promote^[i] v).homes = v.homes.drop i := by
  induction i with
  | zero => exact ⟨h, rfl⟩
  | succ i ih =>
    obtain ⟨stands, homes⟩ := ih
    rw [Function.iterate_succ_apply']
    exact ⟨stands.promote, by rw [homes_tail, homes, List.tail_drop]⟩

/-- A value stands at the first of its homes. -/
theorem eq_int_of_homes {q : IntOrder} {orders : List IntOrder} (h : v.StandsFor m)
    (homes : v.homes = q :: orders) : ∃ fits, v = int q m fits := by
  cases v with
  | double x => cases homes
  | int o k fits =>
    obtain rfl := h
    rw [homes_promote] at homes
    obtain rfl := (List.cons.inj homes).1
    exact ⟨fits, rfl⟩

/-- A value without homes is a double. -/
theorem eq_double_of_homes (h : v.StandsFor m) (homes : v.homes = []) : v = double (.ofInt m) := by
  cases v with
  | double x => exact congrArg double h
  | int o k fits =>
    rw [homes_promote] at homes
    cases homes

theorem homes_sublist (v : Value) : v.homes.Sublist IntOrder.all := by
  match v with
  | .int o n h => exact List.filter_sublist
  | .double x => exact List.nil_sublist _

theorem meeting_sublist (a b : Value) : (a.meeting b).Sublist IntOrder.all :=
  List.filter_sublist.trans a.homes_sublist

end Tries

/-! ## What is reported -/

/-- Orders that do not hold the integer are passed. -/
theorem firstFit_passed {r : Int} {passed : List IntOrder} (narrow : ∀ o ∈ passed, ¬ o.Fits r)
    (x : Double) (orders : List IntOrder) :
    firstFit r x (passed ++ orders) = firstFit r x orders := by
  induction passed with
  | nil => rfl
  | cons o passed ih =>
    rw [List.cons_append, firstFit_of_not_fits (narrow o List.mem_cons_self)]
    exact ih fun q mem => narrow q (List.mem_cons_of_mem _ mem)

/-- A search for the first fit passes the orders that do not hold the integer, and stops behind them. -/
theorem firstFit_stops (r : Int) (x : Double) (orders : List IntOrder) :
    let passed := orders.takeWhile fun o => ¬ o.Fits r
    (passed = orders ∧ firstFit r x orders = .double x) ∨
      ∃ q rest, ∃ fits : q.Fits r, orders = passed ++ q :: rest ∧ firstFit r x orders = int q r fits := by
  induction orders with
  | nil => exact Or.inl ⟨rfl, rfl⟩
  | cons o orders ih =>
    by_cases fits : o.Fits r
    · refine Or.inr ⟨o, orders, fits, ?_, firstFit_of_fits fits x orders⟩
      rw [List.takeWhile_cons_of_neg (by simpa using fits), List.nil_append]
    · rw [List.takeWhile_cons_of_pos (by simpa using fits), firstFit_of_not_fits fits]
      rcases ih with ⟨all, found⟩ | ⟨q, rest, fits', split, found⟩
      · exact Or.inl ⟨congrArg (List.cons o) all, found⟩
      · exact Or.inr ⟨q, rest, fits', congrArg (List.cons o) split, found⟩

end Value

open Value

/-- The operands with which an operation is tried for the time `i`, counted from zero.  They are matched for
each try, but for a power: its operands are matched once, and then the base is promoted alone. -/
def Climber.operands (a b : Value) (i : Nat) : Climber → Value × Value
  | add | mul => level (retry^[i] (a, b))
  | sub => level (retry^[i] (signedLeft a b, b))
  | pow => (promote^[i] (level (a, b)).1, (level (a, b)).2)

/-- What the orders that are reported say of the climb from the integers `m` and `n`, given as `a` and `b`, to
the result `v`. -/
structure Reports (op : Climber) (a b : Value) (m n : Int) (orders : List IntOrder) (v : Value) :
    Prop where
  rising : orders.Pairwise fun o q => o.rank < q.rank
  few : orders.length ≤ 4
  /-- None of them holds the exact result. -/
  narrow : ∀ o ∈ orders, ¬ o.Fits (op.exact m n)
  /-- Each try that failed was one of the integers themselves at the order reported; the exponent of a power
  is not promoted with the base. -/
  tried : ∀ i o, orders[i]? = some o → ∃ (fits : o.Fits m) (q : IntOrder) (fits' : q.Fits n),
    op.operands a b i = (int o m fits, int q n fits') ∧ (op = .pow ∨ q = o)
  /-- The next try succeeds: the exact result is found at its order, or the result is one of doubles. -/
  ends : (∃ (q : IntOrder) (fits : q.Fits m) (fits' : q.Fits (op.exact m n)),
      (op.operands a b orders.length).1 = int q m fits ∧ v = int q (op.exact m n) fits') ∨
    (op.operands a b orders.length).1 = double (.ofInt m) ∧
      v = double (op.rounded (.ofInt m) (.ofInt n))
  /-- The operation itself, given the operands of a try, goes on from there. -/
  resumed : ∀ i ≤ orders.length, op.op.apply (op.operands a b i).1 (op.operands a b i).2 =
    .ok ⟨v, orders.drop i⟩
  above : ∀ o ∈ orders, o.rank < v.order.rank

/-- The climb through some orders: to the first one that holds the exact result, past those before it. -/
def Climber.ascent (op : Climber) (m n : Int) (orders : List IntOrder) : Ascent :=
  ⟨firstFit (op.exact m n) (op.rounded (.ofInt m) (.ofInt n)) orders,
    orders.takeWhile fun o => ¬ o.Fits (op.exact m n)⟩

/-- The operation is tried with the integers `m` and `n` at one of the orders after the other, and with
doubles after the last one; and from any try on it climbs through the orders that are left. -/
structure TriesAt (op : Climber) (a b : Value) (m n : Int) (orders : List IntOrder) : Prop where
  listed : orders.Sublist IntOrder.all
  tried : ∀ i o, orders[i]? = some o → ∃ (fits : o.Fits m) (q : IntOrder) (fits' : q.Fits n),
    op.operands a b i = (int o m fits, int q n fits') ∧ (op = .pow ∨ q = o)
  last : (op.operands a b orders.length).1 = double (.ofInt m)
  climbs : ∀ i ≤ orders.length, op.op.apply (op.operands a b i).1 (op.operands a b i).2 =
    .ok (op.ascent m n (orders.drop i))

section Reports

variable {op : Climber} {a b a' : Value} {m n : Int}

/-- A climb ends at the first of the orders that holds the exact result, and reports those before it. -/
theorem TriesAt.reports {orders : List IntOrder} (h : TriesAt op a b m n orders) :
    Reports op a b m n (op.ascent m n orders).overflowed (op.ascent m n orders).result := by
  have ranked : IntOrder.all.Pairwise fun o q => o.rank < q.rank := by decide
  have rising := ranked.sublist h.listed
  have climbs := h.climbs
  simp only [Climber.ascent] at climbs ⊢
  have narrow : ∀ o ∈ orders.takeWhile fun o => ¬ o.Fits (op.exact m n), ¬ o.Fits (op.exact m n) := by
    intro o mem
    simpa using List.mem_takeWhile_imp mem
  have start : (orders.takeWhile fun o => ¬ o.Fits (op.exact m n)) <+: orders :=
    List.takeWhile_prefix _
  have stops := firstFit_stops (op.exact m n) (op.rounded (.ofInt m) (.ofInt n)) orders
  generalize (orders.takeWhile fun o => ¬ o.Fits (op.exact m n)) = passed at narrow start stops ⊢
  refine ⟨rising.sublist start.sublist, (start.sublist.trans h.listed).length_le, narrow, ?_, ?_, ?_, ?_⟩
  · intro i o found
    obtain ⟨within, rfl⟩ := List.getElem?_eq_some_iff.mp found
    exact h.tried i _ (List.prefix_iff_getElem?.mp start i within)
  · rcases stops with ⟨rfl, found⟩ | ⟨q, rest, fits', rfl, found⟩
    · exact Or.inr ⟨h.last, found⟩
    · obtain ⟨fits, p, hn, there, -⟩ := h.tried passed.length q (by simp)
      exact Or.inl ⟨q, fits, fits', by rw [there], found⟩
  · intro i within
    have later : ∀ o ∈ passed.drop i, ¬ o.Fits (op.exact m n) :=
      fun o mem => narrow o (List.mem_of_mem_drop mem)
    have all : ∀ o ∈ passed.drop i, decide (¬ o.Fits (op.exact m n)) = true :=
      fun o mem => decide_eq_true (later o mem)
    rw [climbs i (Nat.le_trans within start.length_le)]
    rcases stops with ⟨rfl, found⟩ | ⟨q, rest, fits, rfl, found⟩
    · rw [found, List.takeWhile_eq_self_iff.mpr all, ← List.append_nil (passed.drop i),
        firstFit_passed later]
      rfl
    · rw [found, List.drop_append_of_le_length within, firstFit_passed later, firstFit_of_fits fits,
        List.takeWhile_append_of_pos all, List.takeWhile_cons_of_neg (by simpa using fits),
        List.append_nil]
  · intro o mem
    rcases stops with ⟨-, found⟩ | ⟨q, rest, fits, rfl, found⟩
    · rw [found]
      exact o.rank_lt_four
    · rw [found]
      exact (List.pairwise_append.mp rising).2.2 o mem q List.mem_cons_self

/-! ### Sums, differences and products -/

/-- An operation whose operands are matched anew at each try is tried at the orders where they can meet. -/
theorem triesAt_meeting (ha : a'.StandsFor m) (hb : b.StandsFor n)
    (operands : ∀ i, op.operands a b i = level (retry^[i] (a', b)))
    (applied : ∀ left right : Value, left.StandsFor m → right.StandsFor n →
      left.meeting right <:+ a'.meeting b →
        op.op.apply left right = .ok (op.ascent m n (left.meeting right))) :
    TriesAt op a b m n (a'.meeting b) := by
  refine ⟨meeting_sublist a' b, fun i o found => ?_, ?_, fun i _ => ?_⟩
  · obtain ⟨left, right, meets⟩ := iterate_retry_spec ha hb i
    obtain ⟨within, rfl⟩ := List.getElem?_eq_some_iff.mp found
    rw [List.drop_eq_getElem_cons within] at meets
    obtain ⟨fits, fits', leveled⟩ := level_of_meeting left right meets
    exact ⟨fits, _, fits', (operands i).trans leveled, Or.inr rfl⟩
  · obtain ⟨left, right, meets⟩ := iterate_retry_spec ha hb (a'.meeting b).length
    rw [List.drop_length] at meets
    rw [operands, level_of_not_meeting left right meets]
  · obtain ⟨left, right, meets⟩ := iterate_retry_spec ha hb i
    obtain ⟨left', right', meets'⟩ := level_spec left right
    have remains := meets'.trans meets
    rw [operands, ← remains]
    exact applied _ _ left' right' (remains ▸ List.drop_suffix i _)

theorem add_eq (ha : a.StandsFor m) (hb : b.StandsFor n) :
    a.add b = Climber.add.ascent m n (a.meeting b) := climb_eq (· + ·) (· + ·) ha hb

theorem mul_eq (ha : a.StandsFor m) (hb : b.StandsFor n) :
    a.mul b = Climber.mul.ascent m n (a.meeting b) := climb_eq (· * ·) (· * ·) ha hb

theorem standsFor_signedLeft (ha : a.StandsFor m) (b : Value) : (signedLeft a b).StandsFor m := by
  unfold signedLeft
  split
  · exact ha.promoteToSigned
  · exact ha

theorem sub_eq (ha : a.StandsFor m) (hb : b.StandsFor n) :
    a.sub b = Climber.sub.ascent m n ((signedLeft a b).meeting b) :=
  climb_eq (· - ·) (· - ·) (standsFor_signedLeft ha b) hb

/-- Later on in the climb of a difference no more signs are given. -/
theorem meeting_signedLeft {left right : Value} (ha : a.StandsFor m) (hb : b.StandsFor n)
    (hl : left.StandsFor m) (hr : right.StandsFor n)
    (later : left.meeting right <:+ (signedLeft a b).meeting b) :
    (signedLeft left right).meeting right = left.meeting right := by
  by_cases nowhere : left.meeting right = []
  · unfold signedLeft
    split
    · rw [meeting_promoteToSigned, nowhere, List.filter_nil]
    · rfl
  -- The operands are compared as integers from now on.
  have compared : right.compare left = Ord.compare n m :=
    compare_of_meeting hr hl (by rwa [meeting_comm])
  by_cases below : b.compare a == .gt
  · have signed : ∀ q ∈ left.meeting right, q.isSigned = true := by
      intro q mem
      have first := later.subset mem
      rw [signedLeft, if_pos below, meeting_promoteToSigned] at first
      exact (List.mem_filter.mp first).2
    unfold signedLeft
    split
    · rw [meeting_promoteToSigned, List.filter_eq_self.mpr signed]
    · rfl
  · rw [signedLeft, if_neg below] at later
    have somewhere : b.meeting a ≠ [] := by
      rw [meeting_comm]
      rintro none
      exact nowhere (List.suffix_nil.mp (none ▸ later))
    rw [compare_of_meeting hb ha somewhere] at below
    rw [signedLeft, compared, if_neg below]

/-! ### Powers -/

/-- A count is a home wherever its order is passed. -/
theorem meeting_count {q : IntOrder} (hn : q.Fits n) (counts : 0 ≤ n ∧ n ≤ countLimit)
    {v : Value} (above : ∀ o ∈ v.homes, q.rank ≤ o.rank) : v.meeting (int q n hn) = v.homes := by
  refine List.filter_eq_self.mpr fun o mem => decide_eq_true ?_
  refine mem_homes_int.mpr ⟨above o mem, ?_⟩
  have limit : (countLimit : Int) = 4294967295 := rfl
  cases o <;> simp only [IntOrder.Fits, IntOrder.low, IntOrder.high] <;> omega

/-- With a count for its exponent a power is that of the base, from where the base is not below the
exponent. -/
theorem pow_eq {q : IntOrder} (hn : q.Fits n) (counts : 0 ≤ n ∧ n ≤ countLimit) {v : Value}
    (hv : v.StandsFor m) (above : ∀ o ∈ v.homes, q.rank ≤ o.rank) :
    v.pow (int q n hn) = .ok (Climber.pow.ascent m n v.homes) := by
  have meets := meeting_count hn counts above
  rcases matchOrders_standing hv (standsFor_int hn) with ⟨o, hm, hn', met, same⟩ | ⟨met, nowhere⟩
  · have own := meeting_count hn' counts (v := int o m hm) fun p mem => (mem_homes_int.mp mem).1
    have homes : (int o m hm).homes = v.homes := by rw [← own, ← same, meets]
    rw [pow_of_ints met, if_pos counts, climbPower_eq n.toNat (standsFor_int hm),
      Int.toNat_of_nonneg counts.1, homes]
    rfl
  · rw [meets] at nowhere
    rw [pow, met, nowhere]
    rfl

/-- A power with a count for its exponent is tried at the homes of its base. -/
theorem triesAt_homes {q : IntOrder} (hm : q.Fits m) (hn : q.Fits n) (counts : 0 ≤ n ∧ n ≤ countLimit)
    (leveled : level (a, b) = (int q m hm, int q n hn)) :
    TriesAt .pow a b m n (int q m hm).homes := by
  have operands : ∀ i, Climber.pow.operands a b i = (promote^[i] (int q m hm), int q n hn) := by
    intro i
    rw [Climber.operands, leveled]
  refine ⟨homes_sublist _, fun i o found => ?_, ?_, fun i _ => ?_⟩
  · obtain ⟨stands, homes⟩ := iterate_promote_spec (standsFor_int hm) i
    obtain ⟨within, rfl⟩ := List.getElem?_eq_some_iff.mp found
    rw [List.drop_eq_getElem_cons within] at homes
    obtain ⟨fits, there⟩ := eq_int_of_homes stands homes
    exact ⟨fits, q, hn, by rw [operands, there], Or.inl rfl⟩
  · obtain ⟨stands, homes⟩ := iterate_promote_spec (standsFor_int hm) (int q m hm).homes.length
    rw [List.drop_length] at homes
    rw [operands, eq_double_of_homes stands homes]
  · obtain ⟨stands, homes⟩ := iterate_promote_spec (standsFor_int hm) i
    rw [operands, ← homes]
    refine pow_eq hn counts stands fun o mem => ?_
    rw [homes] at mem
    exact (mem_homes_int.mp (List.mem_of_mem_drop mem)).1

/-- A power of doubles is tried once. -/
theorem triesAt_doubles (met : a.matchOrders b = .doubles (.ofInt m) (.ofInt n)) :
    TriesAt .pow a b m n [] := by
  have leveled : level (a, b) = (double (.ofInt m), double (.ofInt n)) := by
    rw [level, met]
    rfl
  refine ⟨List.nil_sublist _, fun i o found => (by cases found), congrArg Prod.fst leveled,
    fun i first => ?_⟩
  obtain rfl := Nat.le_zero.mp first
  have again : (double (.ofInt m)).matchOrders (double (.ofInt n)) =
      .doubles (.ofInt m) (.ofInt n) := by rw [matchOrders]
  rw [Climber.operands, leveled]
  change (double (.ofInt m)).pow (double (.ofInt n)) = _
  rw [pow, again]
  rfl

end Reports

/-! ## Lines of the journal -/

/-- A result is reported with the orders that were too narrow for it. -/
theorem InfixOp.applyTraced_of_ok {op : InfixOp} {a b : Value} {ascent : Ascent}
    (h : op.apply a b = .ok ascent) :
    op.applyTraced a b = ⟨.ok ascent.result, ascent.overflowed.map (.overflowed op)⟩ := by
  rw [applyTraced, h]

/-- Nothing is reported of an operation that fails. -/
theorem InfixOp.applyTraced_of_error {op : InfixOp} {a b : Value} {fault : Fault}
    (h : op.apply a b = .error fault) : op.applyTraced a b = ⟨.error fault, []⟩ := by
  rw [applyTraced, h]
  rfl

/-- An operation whose climb is known reports it. -/
theorem reports_of_apply {op : Climber} {a b : Value} {m n : Int} {orders : List IntOrder}
    (tries : TriesAt op a b m n orders) (climbed : op.op.apply a b = .ok (op.ascent m n orders)) :
    ∃ reported v, op.op.applyTraced a b = ⟨.ok v, reported.map (.overflowed op.op)⟩ ∧
      Reports op a b m n reported v :=
  ⟨_, _, InfixOp.applyTraced_of_ok climbed, tries.reports⟩

/-- Sums, differences, products and powers of integers come to an end, and what they report of it is true.
There is no power, and nothing is reported, if the exponent is no count. -/
theorem overflows_reported (op : Climber) {o p : IntOrder} {m n : Int} (hm : o.Fits m) (hn : p.Fits n) :
    let a := int o m hm
    let b := int p n hn
    (∃ orders v, op.op.applyTraced a b = ⟨.ok v, orders.map (.overflowed op.op)⟩ ∧
      Reports op a b m n orders v) ∨
    op = .pow ∧ (n < 0 ∨ countLimit < n) ∧
      op.op.applyTraced a b = ⟨.error (.calculation .overflow), []⟩ := by
  intro a b
  have ha : a.StandsFor m := standsFor_int hm
  have hb : b.StandsFor n := standsFor_int hn
  match op with
  | .add =>
    have tries : TriesAt .add a b m n (a.meeting b) :=
      triesAt_meeting ha hb (fun _ => rfl) fun _ _ hl hr _ => congrArg Except.ok (add_eq hl hr)
    exact Or.inl (reports_of_apply tries (congrArg Except.ok (add_eq ha hb)))
  | .mul =>
    have tries : TriesAt .mul a b m n (a.meeting b) :=
      triesAt_meeting ha hb (fun _ => rfl) fun _ _ hl hr _ => congrArg Except.ok (mul_eq hl hr)
    exact Or.inl (reports_of_apply tries (congrArg Except.ok (mul_eq ha hb)))
  | .sub =>
    have tries : TriesAt .sub a b m n ((signedLeft a b).meeting b) := by
      refine triesAt_meeting (standsFor_signedLeft ha b) hb (fun _ => rfl) fun left right hl hr later => ?_
      rw [← meeting_signedLeft ha hb hl hr later]
      exact congrArg Except.ok (sub_eq hl hr)
    exact Or.inl (reports_of_apply tries (congrArg Except.ok (sub_eq ha hb)))
  | .pow =>
    rcases matchOrders_standing ha hb with ⟨q, fits, fits', met, -⟩ | ⟨met, -⟩
    · have powered := pow_of_ints met
      by_cases counts : 0 ≤ n ∧ n ≤ countLimit
      · rw [if_pos counts, climbPower_eq n.toNat (standsFor_int fits),
          Int.toNat_of_nonneg counts.1] at powered
        have leveled : level (a, b) = (int q m fits, int q n fits') := by
          rw [level, met]
          rfl
        exact Or.inl (reports_of_apply (triesAt_homes fits fits' counts leveled) powered)
      · rw [if_neg counts] at powered
        exact Or.inr ⟨rfl, by omega, InfixOp.applyTraced_of_error powered⟩
    · have powered : a.pow b = .ok ⟨double ((Double.ofInt m).pow (.ofInt n)), []⟩ := by
        rw [pow, met]
      exact Or.inl (reports_of_apply (triesAt_doubles met) powered)

/-- A power that no integer order holds is reported at all of them. -/
theorem overflows_reported_power :
    let a := int .u64 3 (by decide)
    let b := int .u64 100 (by decide)
    (InfixOp.pow.applyTraced a b).events =
      [.overflowed .pow .u64, .overflowed .pow .u128, .overflowed .pow .i64, .overflowed .pow .i128] ∧
    ((∃ orders v, InfixOp.pow.applyTraced a b = ⟨.ok v, orders.map (.overflowed .pow)⟩ ∧
      Reports .pow a b 3 100 orders v) ∨
    Climber.pow = .pow ∧ ((100 : Int) < 0 ∨ (countLimit : Int) < 100) ∧
      InfixOp.pow.applyTraced a b = ⟨.error (.calculation .overflow), []⟩) := by
  intro a b
  exact ⟨by decide +kernel, overflows_reported .pow (by decide) (by decide)⟩

end Reckoner
