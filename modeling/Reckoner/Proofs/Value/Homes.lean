import Reckoner.Value.Comparison

/-!
# Where two values meet

Promotion takes a value through its `homes`, the integer orders from its own up that hold it, and then
to doubles (`homes_promote`); on the way it stands for the same integer.  Two values that are promoted
until they are at one order meet at the first home that they share, and at doubles if they share none
(`matchOrders_standing`).  Where integers can meet depends on their orders alone, but for the bounds of
the signed orders (`meeting_of_unsigned`, `meeting_of_apart`, `meeting_of_signed`).
-/

namespace Reckoner

namespace Value

/-- The orders that a value goes through when it is promoted again and again: from its own up, those
that hold it. -/
def homes : Value → List IntOrder
  | .int o n _ => IntOrder.all.filter fun q => o.rank ≤ q.rank ∧ q.Fits n
  | .double _ => []

theorem mem_homes_int {o q : IntOrder} {n : Int} {h : o.Fits n} :
    q ∈ (int o n h).homes ↔ o.rank ≤ q.rank ∧ q.Fits n := by
  have listed : q ∈ IntOrder.all := by cases q <;> decide
  simp [homes, listed]

/-- The signed orders that hold an integer that is not below zero. -/
def signedHomes (n : Int) : List IntOrder :=
  if n ≤ IntOrder.i64.high then [.i64, .i128] else if n ≤ IntOrder.i128.high then [.i128] else []

theorem isSigned_of_mem_signedHomes {q : IntOrder} {n : Int} (h : q ∈ signedHomes n) :
    q.isSigned = true := by
  unfold signedHomes at h
  split at h
  · rcases h with _ | ⟨_, _ | ⟨_, ⟨⟩⟩⟩ <;> rfl
  · split at h
    · rcases h with _ | ⟨_, ⟨⟩⟩
      rfl
    · cases h

theorem filter_isSigned_signedHomes (n : Int) : (signedHomes n).filter (·.isSigned) = signedHomes n :=
  List.filter_eq_self.mpr fun _ => isSigned_of_mem_signedHomes

/-- Above an order without a sign the signed homes are those that hold the integer. -/
theorem filter_signed {o : IntOrder} {n : Int} (least : 0 ≤ n) (unsigned : o.rank ≤ 2) :
    [IntOrder.i64, .i128].filter (fun q => o.rank ≤ q.rank ∧ q.Fits n) = signedHomes n := by
  have fits64 : IntOrder.i64.Fits n ↔ n ≤ IntOrder.i64.high :=
    ⟨And.right, fun h => ⟨Int.le_trans (by decide) least, h⟩⟩
  have fits128 : IntOrder.i128.Fits n ↔ n ≤ IntOrder.i128.high :=
    ⟨And.right, fun h => ⟨Int.le_trans (by decide) least, h⟩⟩
  have wider : n ≤ IntOrder.i64.high → n ≤ IntOrder.i128.high := fun h => Int.le_trans h (by decide)
  have rank64 : o.rank ≤ IntOrder.i64.rank := unsigned
  have rank128 : o.rank ≤ IntOrder.i128.rank := Nat.le_succ_of_le unsigned
  simp only [List.filter_cons, List.filter_nil, fits64, fits128, rank64, rank128, true_and,
    decide_eq_true_eq, signedHomes]
  grind

theorem homes_u64 {n : Int} (h : IntOrder.u64.Fits n) :
    (int .u64 n h).homes = .u64 :: .u128 :: signedHomes n := by
  have wide : IntOrder.u128.Fits n := ⟨h.1, Int.le_trans h.2 (by decide)⟩
  rw [← filter_signed h.1 (by decide : IntOrder.u64.rank ≤ 2), homes, IntOrder.all,
    List.filter_cons_of_pos (by simp [IntOrder.rank, h]),
    List.filter_cons_of_pos (by simp [IntOrder.rank, wide])]

theorem homes_u128 {n : Int} (h : IntOrder.u128.Fits n) :
    (int .u128 n h).homes = .u128 :: signedHomes n := by
  rw [← filter_signed h.1 (by decide : IntOrder.u128.rank ≤ 2), homes, IntOrder.all,
    List.filter_cons_of_neg (by simp [IntOrder.rank]),
    List.filter_cons_of_pos (by simp [IntOrder.rank, h])]

theorem homes_i64 {n : Int} (h : IntOrder.i64.Fits n) : (int .i64 n h).homes = [.i64, .i128] := by
  have wide : IntOrder.i128.Fits n :=
    ⟨Int.le_trans (by decide) h.1, Int.le_trans h.2 (by decide)⟩
  simp [homes, IntOrder.all, IntOrder.rank, h, wide]

theorem homes_i128 {n : Int} (h : IntOrder.i128.Fits n) : (int .i128 n h).homes = [.i128] := by
  simp [homes, IntOrder.all, IntOrder.rank, h]

/-- Promotion leaves the first home for the next one. -/
theorem homes_promote (o : IntOrder) (n : Int) (h : o.Fits n) :
    (int o n h).homes = o :: (int o n h).promote.homes := by
  cases o with
  | u64 =>
    rw [homes_u64 h]
    exact congrArg (List.cons _) (homes_u128 _).symm
  | u128 =>
    rw [homes_u128 h, signedHomes]
    simp only [promote]
    split
    · exact congrArg (List.cons _) (homes_i64 _).symm
    · split
      · exact congrArg (List.cons _) (homes_i128 _).symm
      · rfl
  | i64 =>
    rw [homes_i64 h]
    exact congrArg (List.cons _) (homes_i128 _).symm
  | i128 => exact homes_i128 h

/-- The value is the integer at some order, or the double nearest to it. -/
def StandsFor (n : Int) : Value → Prop
  | .int _ m _ => m = n
  | .double x => x = .ofInt n

theorem standsFor_int {o : IntOrder} {n : Int} (h : o.Fits n) : (int o n h).StandsFor n := rfl

/-- Promotion keeps the integer. -/
theorem StandsFor.promote {n : Int} {v : Value} (h : v.StandsFor n) : v.promote.StandsFor n := by
  cases v with
  | double x => exact h
  | int o m fits =>
    obtain rfl := h
    cases o with
    | u64 | i64 | i128 => rfl
    | u128 =>
      simp only [Value.promote]
      split
      · rfl
      · split <;> rfl

/-- Giving a sign keeps the integer. -/
theorem StandsFor.promoteToSigned {n : Int} {v : Value} (h : v.StandsFor n) :
    v.promoteToSigned.StandsFor n := by
  unfold Value.promoteToSigned
  split
  · exact StandsFor.promote (StandsFor.promote h)
  · exact StandsFor.promote h
  · exact h

/-- A value that is given a sign keeps its signed homes. -/
theorem homes_promoteToSigned (v : Value) :
    v.promoteToSigned.homes = v.homes.filter (·.isSigned) := by
  have lifted : ∀ k h, (int .u128 k h).promote.homes = signedHomes k := by
    intro k h
    have first := homes_promote .u128 k h
    rw [homes_u128 h] at first
    exact (List.cons.inj first).2.symm
  cases v with
  | double x => rfl
  | int o n h =>
    cases o with
    | u64 =>
      have wide : IntOrder.u128.Fits n := ⟨h.1, Int.le_trans h.2 (by decide)⟩
      rw [homes_u64 h]
      exact (lifted n wide).trans (filter_isSigned_signedHomes n).symm
    | u128 =>
      rw [homes_u128 h]
      exact (lifted n h).trans (filter_isSigned_signedHomes n).symm
    | i64 =>
      rw [homes_i64 h]
      exact homes_i64 h
    | i128 =>
      rw [homes_i128 h]
      exact homes_i128 h

/-- The orders at which two values can meet. -/
def meeting (a b : Value) : List IntOrder := a.homes.filter (· ∈ b.homes)

/-- Below the order of the other value there is no home to meet at. -/
theorem meeting_promote_left {o : IntOrder} {n : Int} {h : o.Fits n} {b : Value}
    (away : o ∉ b.homes) : (int o n h).meeting b = (int o n h).promote.meeting b := by
  rw [meeting, homes_promote, List.filter_cons_of_neg (by simpa using away)]
  rfl

/-- The same on the right. -/
theorem meeting_promote_right {a : Value} {p : IntOrder} {n : Int} {h : p.Fits n}
    (away : p ∉ a.homes) : a.meeting (int p n h) = a.meeting (int p n h).promote := by
  rw [meeting, meeting, homes_promote]
  refine List.filter_congr fun q hq => ?_
  have other : q ≠ p := by rintro rfl; exact away hq
  simp [other]

theorem meeting_promoteToSigned (a b : Value) :
    a.promoteToSigned.meeting b = (a.meeting b).filter (·.isSigned) := by
  rw [meeting, meeting, homes_promoteToSigned, List.filter_filter, List.filter_filter]
  exact List.filter_congr fun q _ => Bool.and_comm _ _

/-- Two values at one order meet there, or else further up. -/
theorem meeting_same {o : IntOrder} {m n : Int} (hm : o.Fits m) (hn : o.Fits n) :
    (int o m hm).meeting (int o n hn) = o :: (int o m hm).promote.meeting (int o n hn) := by
  have here : o ∈ (int o n hn).homes := mem_homes_int.mpr ⟨Nat.le_refl _, hn⟩
  rw [meeting, homes_promote o m hm, List.filter_cons_of_pos (by simpa using here)]
  rfl

theorem meeting_double (a : Value) (y : Double) : a.meeting (.double y) = [] := by
  simp [meeting, homes]

/-- Two values that stand for integers are matched as these integers at the first order where they can
meet, and as doubles where there is none. -/
theorem matchOrders_standing {m n : Int} {a b : Value} (ha : a.StandsFor m) (hb : b.StandsFor n) :
    (∃ q hm hn, a.matchOrders b = .ints q m n hm hn ∧
      a.meeting b = (int q m hm).meeting (int q n hn)) ∨
    (a.matchOrders b = .doubles (.ofInt m) (.ofInt n) ∧ a.meeting b = []) := by
  -- The lower value is promoted away from an order that is no home of the other one, so the meeting is
  -- the same before and after.
  fun_induction matchOrders a b with
  | case1 k o l hl hk =>
    obtain rfl := ha
    obtain rfl := hb
    exact Or.inl ⟨o, hk, hl, rfl, rfl⟩
  | case2 o k hk p l hl other lower ih =>
    have away : o ∉ (int p l hl).homes := fun h => by have := (mem_homes_int.mp h).1; omega
    rw [meeting_promote_left away]
    exact ih ha.promote hb
  | case3 o k hk p l hl other higher ih =>
    have ranks : o.rank ≠ p.rank := fun h => other (IntOrder.rank_injective h)
    have away : p ∉ (int o k hk).homes := fun h => by have := (mem_homes_int.mp h).1; omega
    rw [meeting_promote_right away]
    exact ih ha hb.promote
  | case4 o k hk y ih =>
    rw [meeting_double] at ih ⊢
    exact ih ha.promote hb
  | case5 x p l hl ih => exact ih ha hb.promote
  | case6 x y =>
    obtain rfl := ha
    obtain rfl := hb
    exact Or.inr ⟨rfl, rfl⟩

section Standing

variable {m n : Int} {a b : Value}

/-- Values that are matched at an integer order can meet there, and then wherever they can meet after one
more step. -/
theorem meeting_of_ints {q : IntOrder} {k l : Int} {hk : q.Fits k} {hl : q.Fits l}
    (ha : a.StandsFor m) (hb : b.StandsFor n) (met : a.matchOrders b = .ints q k l hk hl) :
    k = m ∧ l = n ∧ a.meeting b = q :: (int q k hk).promote.meeting (int q l hl) := by
  rcases matchOrders_standing ha hb with ⟨q', hm, hn, matched, same⟩ | ⟨matched, -⟩
  · rw [matched] at met
    obtain ⟨rfl, rfl, rfl⟩ := Matched.ints.inj met
    exact ⟨rfl, rfl, by rw [same, meeting_same]⟩
  · rw [matched] at met
    cases met

/-- Values that are matched as doubles can meet nowhere. -/
theorem meeting_of_doubles {x y : Double} (ha : a.StandsFor m) (hb : b.StandsFor n)
    (met : a.matchOrders b = .doubles x y) :
    x = .ofInt m ∧ y = .ofInt n ∧ a.meeting b = [] := by
  rcases matchOrders_standing ha hb with ⟨q, hm, hn, matched, -⟩ | ⟨matched, nowhere⟩
  · rw [matched] at met
    cases met
  · rw [matched] at met
    obtain ⟨rfl, rfl⟩ := Matched.doubles.inj met
    exact ⟨rfl, rfl, nowhere⟩

/-- The first order where two values can meet is the one at which they are matched. -/
theorem order_matchOrders {q : IntOrder} {orders : List IntOrder} (ha : a.StandsFor m)
    (hb : b.StandsFor n) (meets : a.meeting b = q :: orders) :
    (a.matchOrders b).order = .integer q := by
  cases met : a.matchOrders b with
  | ints q' k l hk hl =>
    obtain ⟨-, -, same⟩ := meeting_of_ints ha hb met
    rw [same] at meets
    rw [Matched.order_ints, (List.cons.inj meets).1]
  | doubles x y =>
    obtain ⟨-, -, nowhere⟩ := meeting_of_doubles ha hb met
    rw [nowhere] at meets
    cases meets

/-- Values that meet at some integer order are compared as integers. -/
theorem compare_of_meeting (ha : a.StandsFor m) (hb : b.StandsFor n) (meets : a.meeting b ≠ []) :
    a.compare b = Ord.compare m n := by
  rw [Value.compare]
  cases met : a.matchOrders b with
  | ints q k l hk hl =>
    obtain ⟨rfl, rfl, -⟩ := meeting_of_ints ha hb met
    rfl
  | doubles x y => exact absurd (meeting_of_doubles ha hb met).2.2 meets

end Standing

/-! ## The meetings of integers -/

section Meetings

variable {o p q : IntOrder} {m n : Int}

/-- Orders without a sign hold nothing below zero. -/
theorem nonneg_of_unsigned (h : o.Fits n) (unsigned : o.isSigned = false) : 0 ≤ n := by
  cases o with
  | u64 | u128 => exact h.1
  | i64 | i128 => cases unsigned

/-- The signed orders rank above the others. -/
theorem isSigned_iff : q.isSigned = true ↔ 2 ≤ q.rank := by
  cases q <;> decide

/-- Only the widest unsigned order holds integers beyond all signed ones. -/
theorem eq_u128_of_fits (beyond : IntOrder.i128.high < n) (h : q.Fits n) : q = .u128 := by
  cases q with
  | u128 => rfl
  | u64 | i64 | i128 =>
    simp only [IntOrder.Fits, IntOrder.low, IntOrder.high] at beyond h
    omega

/-- The widest signed order holds all integers but those of the widest unsigned one beyond it. -/
theorem fits_i128 (h : o.Fits n) (within : o = .u128 → n ≤ IntOrder.i128.high) :
    IntOrder.i128.Fits n := by
  cases o with
  | u128 => exact ⟨Int.le_trans (by decide) h.1, within rfl⟩
  | u64 | i64 | i128 =>
    simp only [IntOrder.Fits, IntOrder.low, IntOrder.high] at h ⊢
    omega

/-- Two integers can meet at the orders that are homes of both. -/
theorem meeting_int (hm : o.Fits m) (hn : p.Fits n) :
    (int o m hm).meeting (int p n hn) =
      IntOrder.all.filter fun q => q ∈ (int o m hm).homes ∧ q ∈ (int p n hn).homes := by
  have own : (int o m hm).homes = IntOrder.all.filter (· ∈ (int o m hm).homes) := by
    simp only [mem_homes_int]
    rfl
  calc (int o m hm).meeting (int p n hn)
      = (IntOrder.all.filter (· ∈ (int o m hm).homes)).filter (· ∈ (int p n hn).homes) :=
        congrArg (List.filter _) own
    _ = IntOrder.all.filter fun q => q ∈ (int o m hm).homes ∧ q ∈ (int p n hn).homes := by
        rw [List.filter_filter]
        exact List.filter_congr fun q _ => by rw [Bool.decide_and, Bool.and_comm]

/-- Is one of the integers beyond all signed orders while the order of the other one has a sign? -/
def Apart (o p : IntOrder) (m n : Int) : Prop :=
  (o = .u128 ∧ IntOrder.i128.high < m ∧ p.isSigned = true) ∨
    (o.isSigned = true ∧ p = .u128 ∧ IntOrder.i128.high < n)

instance : Decidable (Apart o p m n) := inferInstanceAs (Decidable (_ ∨ _))

theorem Apart.sign (h : Apart o p m n) : o.isSigned = true ∨ p.isSigned = true := by
  rcases h with ⟨-, -, right⟩ | ⟨left, -⟩
  · exact Or.inr right
  · exact Or.inl left

/-- One sign is enough for all orders where two values can meet. -/
theorem isSigned_of_mem_meeting (hm : o.Fits m) (hn : p.Fits n)
    (sign : o.isSigned = true ∨ p.isSigned = true) (h : q ∈ (int o m hm).meeting (int p n hn)) :
    q.isSigned = true := by
  obtain ⟨left, right⟩ := List.mem_filter.mp h
  rcases sign with sign | sign
  · exact isSigned_iff.mpr (Nat.le_trans (isSigned_iff.mp sign) (mem_homes_int.mp left).1)
  · have rank := (mem_homes_int.mp (of_decide_eq_true right)).1
    exact isSigned_iff.mpr (Nat.le_trans (isSigned_iff.mp sign) rank)

/-- Integers that are apart meet nowhere: the order would have a sign and be the widest one without. -/
theorem meeting_of_apart (hm : o.Fits m) (hn : p.Fits n) (apart : Apart o p m n) :
    (int o m hm).meeting (int p n hn) = [] := by
  refine List.eq_nil_iff_forall_not_mem.mpr fun q mem => ?_
  have signed := isSigned_of_mem_meeting hm hn apart.sign mem
  obtain ⟨left, right⟩ := List.mem_filter.mp mem
  have wide : q = .u128 := by
    rcases apart with ⟨-, beyond, -⟩ | ⟨-, -, beyond⟩
    · exact eq_u128_of_fits beyond (mem_homes_int.mp left).2
    · exact eq_u128_of_fits beyond (mem_homes_int.mp (of_decide_eq_true right)).2
  subst wide
  cases signed

/-- A value at a signed order and one that some signed order holds meet at signed orders. -/
theorem meeting_of_signed (hm : o.Fits m) (hn : p.Fits n)
    (sign : o.isSigned = true ∨ p.isSigned = true) (near : ¬ Apart o p m n) :
    (int o m hm).meeting (int p n hn) = [.i64, .i128] ∨
      (int o m hm).meeting (int p n hn) = [.i128] := by
  have signed : ∀ q, q ∈ (int o m hm).homes ∧ q ∈ (int p n hn).homes → q.isSigned = true :=
    fun q h => isSigned_of_mem_meeting hm hn sign (List.mem_filter.mpr ⟨h.1, decide_eq_true h.2⟩)
  have widest : ∀ q : IntOrder, q.rank ≤ IntOrder.i128.rank := fun q => by cases q <;> decide
  have left : IntOrder.i128 ∈ (int o m hm).homes := by
    refine mem_homes_int.mpr ⟨widest o, fits_i128 hm fun wide => Int.not_lt.mp fun beyond => ?_⟩
    subst wide
    exact near (Or.inl ⟨rfl, beyond, sign.resolve_left Bool.false_ne_true⟩)
  have right : IntOrder.i128 ∈ (int p n hn).homes := by
    refine mem_homes_int.mpr ⟨widest p, fits_i128 hn fun wide => Int.not_lt.mp fun beyond => ?_⟩
    subst wide
    exact near (Or.inr ⟨sign.resolve_right Bool.false_ne_true, rfl, beyond⟩)
  rw [meeting_int, IntOrder.all, List.filter_cons_of_neg, List.filter_cons_of_neg, List.filter_cons]
  · split
    · exact Or.inl (by simp [left, right])
    · exact Or.inr (by simp [left, right])
  · exact fun h => Bool.false_ne_true (signed _ (of_decide_eq_true h))
  · exact fun h => Bool.false_ne_true (signed _ (of_decide_eq_true h))

/-- The larger of two integers decides which signed orders hold both. -/
theorem filter_signedHomes (m n : Int) :
    (signedHomes m).filter (· ∈ signedHomes n) = signedHomes (max m n) := by
  have wider : IntOrder.i64.high ≤ IntOrder.i128.high := by decide
  unfold signedHomes
  grind

/-- Without signs two values meet at the wider order, and first at theirs if both are narrow; then they
meet at the signed orders that hold them both. -/
theorem meeting_of_unsigned (hm : o.Fits m) (hn : p.Fits n) (left : o.isSigned = false)
    (right : p.isSigned = false) :
    (int o m hm).meeting (int p n hn) =
      (if o = .u64 ∧ p = .u64 then [.u64, .u128] else [.u128]) ++ signedHomes (max m n) := by
  have away : ∀ q, q.isSigned = false → ∀ k, q ∉ signedHomes k := by
    intro q unsigned k mem
    rw [isSigned_of_mem_signedHomes mem] at unsigned
    cases unsigned
  have signed : ∀ q ∈ signedHomes m, q ≠ .u64 ∧ q ≠ .u128 := by
    refine fun q hq => ⟨?_, ?_⟩
    · rintro rfl; exact away _ rfl m hq
    · rintro rfl; exact away _ rfl m hq
  have later : ∀ q ∈ signedHomes m, q ∈ (int p n hn).homes ↔ q ∈ signedHomes n := by
    intro q hq
    cases p with
    | i64 | i128 => cases right
    | u64 => simp [homes_u64, signed q hq]
    | u128 => simp [homes_u128, signed q hq]
  have tail : (signedHomes m).filter (· ∈ (int p n hn).homes) = signedHomes (max m n) := by
    rw [← filter_signedHomes]
    exact List.filter_congr fun q hq => decide_eq_decide.mpr (later q hq)
  rw [meeting, ← tail]
  cases o with
  | i64 | i128 => cases left
  | u64 =>
    cases p with
    | i64 | i128 => cases right
    | u64 => simp [homes_u64]
    | u128 => simp [homes_u64, homes_u128, away .u64 rfl n]
  | u128 =>
    cases p with
    | i64 | i128 => cases right
    | u64 => simp [homes_u64, homes_u128]
    | u128 => simp [homes_u128]

/-- Unsigned integers are compared as integers. -/
theorem compare_of_unsigned (hm : o.Fits m) (hn : p.Fits n) (left : o.isSigned = false)
    (right : p.isSigned = false) : ((int o m hm).compare (int p n hn) == .gt) = decide (n < m) := by
  have somewhere : (int o m hm).meeting (int p n hn) ≠ [] := by
    rw [meeting_of_unsigned hm hn left right]
    split <;> simp
  rw [compare_of_meeting (standsFor_int hm) (standsFor_int hn) somewhere, Bool.eq_iff_iff,
    beq_iff_eq, Int.compare_eq_gt, decide_eq_true_eq]

end Meetings

end Value

end Reckoner
