import Reckoner.Proofs.Double.Order
import Reckoner.Proofs.Value.Homes

/-!
# What a loose comparison decides

Two values are compared as integers if both are integers and neither is beyond the signed orders while
the other one has a sign (`commonIntegers?`); all others are compared as the doubles nearest to them
(`compare_decides`).  Since integers are rounded in order, the loose order is at the same time that of
the nearest doubles, refined by the integers where two values with one nearest double are compared as
integers (`compare_eq_then`).

So the loose order can fail to be transitive only among values with one nearest double, and which
comparisons fail there is known exactly (`compare_eq_gt_iff_of_chain`, `compare_of_same_chain`,
`compare_of_below_chain`).
-/

namespace Reckoner

namespace Value

/-! ## Doubles -/

theorem toDouble_promote (v : Value) : v.promote.toDouble = v.toDouble := by
  cases v with
  | double x => rfl
  | int o n h =>
    cases o with
    | u64 | i64 | i128 => rfl
    | u128 =>
      simp only [promote]
      split
      · rfl
      · split <;> rfl

/-- Values that are matched as doubles have been rounded once each. -/
theorem eq_of_matchOrders_doubles {a b : Value} {x y : Double}
    (met : a.matchOrders b = .doubles x y) : x = a.toDouble ∧ y = b.toDouble := by
  fun_induction matchOrders a b with
  | case1 => cases met
  | case2 o m hm p n hn _ _ ih | case4 o m hm z ih =>
    have promoted := ih met
    rwa [toDouble_promote] at promoted
  | case3 o m hm p n hn _ _ ih | case5 z p n hn ih =>
    have promoted := ih met
    rwa [toDouble_promote] at promoted
  | case6 =>
    obtain ⟨rfl, rfl⟩ := Matched.doubles.inj met
    exact ⟨rfl, rfl⟩

/-- One double is enough for a match as doubles. -/
theorem matchOrders_of_order_double {a b : Value} (h : a.order = .double ∨ b.order = .double) :
    a.matchOrders b = .doubles a.toDouble b.toDouble := by
  cases met : a.matchOrders b with
  | doubles x y =>
    obtain ⟨rfl, rfl⟩ := eq_of_matchOrders_doubles met
    rfl
  | ints q k l hk hl =>
    exfalso
    -- The two sides of the match stay doubles where they were, and it is promoted on the other side.
    fun_induction matchOrders a b with
    | case1 => rcases h with h | h <;> cases h
    | case2 => rcases h with h | h <;> cases h
    | case3 => rcases h with h | h <;> cases h
    | case4 o m hm z ih => exact ih (Or.inr rfl) met
    | case5 z p n hn ih => exact ih (Or.inl rfl) met
    | case6 => cases met

theorem compare_of_order_double {a b : Value} (h : a.order = .double ∨ b.order = .double) :
    a.compare b = a.toDouble.compare b.toDouble := by
  rw [Value.compare, matchOrders_of_order_double h]

/-! ## Integers -/

section Integers

variable {o p : IntOrder} {m n : Int}

/-- Integers that can meet nowhere are matched as doubles. -/
theorem matchOrders_of_apart (hm : o.Fits m) (hn : p.Fits n) (apart : Apart o p m n) :
    (int o m hm).matchOrders (int p n hn) = .doubles (.ofInt m) (.ofInt n) := by
  have nowhere := meeting_of_apart hm hn apart
  rcases matchOrders_standing (standsFor_int hm) (standsFor_int hn) with
    ⟨q, left, right, -, meets⟩ | ⟨matched, -⟩
  · rw [nowhere, meeting_same] at meets
    cases meets
  · exact matched

/-- All others are matched as what they are. -/
theorem matchOrders_of_not_apart (hm : o.Fits m) (hn : p.Fits n) (near : ¬ Apart o p m n) :
    ∃ q left right, (int o m hm).matchOrders (int p n hn) = .ints q m n left right := by
  have somewhere : (int o m hm).meeting (int p n hn) ≠ [] := by
    by_cases sign : o.isSigned = true ∨ p.isSigned = true
    · rcases meeting_of_signed hm hn sign near with meets | meets
      · rw [meets]
        exact List.cons_ne_nil _ _
      · rw [meets]
        exact List.cons_ne_nil _ _
    · obtain ⟨left, right⟩ := not_or.mp sign
      rw [meeting_of_unsigned hm hn (Bool.eq_false_iff.mpr left) (Bool.eq_false_iff.mpr right)]
      split <;> simp
  rcases matchOrders_standing (standsFor_int hm) (standsFor_int hn) with
    ⟨q, left, right, matched, -⟩ | ⟨-, nowhere⟩
  · exact ⟨q, left, right, matched⟩
  · exact absurd nowhere somewhere

/-- Integers are compared as such unless one is beyond the signed orders and the other one has a sign. -/
theorem compare_of_not_apart (hm : o.Fits m) (hn : p.Fits n) (near : ¬ Apart o p m n) :
    (int o m hm).compare (int p n hn) = Ord.compare m n := by
  obtain ⟨q, left, right, matched⟩ := matchOrders_of_not_apart hm hn near
  rw [Value.compare, matched]

theorem compare_of_apart (hm : o.Fits m) (hn : p.Fits n) (apart : Apart o p m n) :
    (int o m hm).compare (int p n hn) = (Double.ofInt m).compare (Double.ofInt n) := by
  rw [Value.compare, matchOrders_of_apart hm hn apart]

/-- One integer at two orders is the same number. -/
theorem same_int (hp : p.Fits n) (h : o.Fits n) : (int p n hp).same (int o n h) = true := by
  -- Beyond the signed orders only the widest unsigned one is left.
  have near : ¬ Apart p o n n := by
    rintro (⟨-, beyond, sign⟩ | ⟨sign, -, beyond⟩)
    · obtain rfl := eq_u128_of_fits beyond h
      cases sign
    · obtain rfl := eq_u128_of_fits beyond hp
      cases sign
  rw [same, compare_of_not_apart hp h near, Int.compare_eq_eq.mpr rfl]
  rfl

/-- An integer and the double nearest to it are the same number. -/
theorem same_double_ofInt (h : o.Fits n) : (double (.ofInt n)).same (int o n h) = true := by
  have one : (double (.ofInt n)).toDouble = (int o n h).toDouble := rfl
  rw [same, compare_of_order_double (Or.inl rfl), one, Double.compare, Int.compare_eq_eq.mpr rfl]
  rfl

theorem Apart.symm (h : Apart o p m n) : Apart p o n m := by
  rcases h with ⟨wide, beyond, sign⟩ | ⟨sign, wide, beyond⟩
  · exact Or.inr ⟨sign, wide, beyond⟩
  · exact Or.inl ⟨wide, beyond, sign⟩

theorem apart_comm : Apart o p m n ↔ Apart p o n m := ⟨Apart.symm, Apart.symm⟩

/-- A zero is never beyond the signed orders itself. -/
theorem apart_zero_iff :
    Apart o p m 0 ↔ o = .u128 ∧ IntOrder.i128.high < m ∧ p.isSigned = true := by
  constructor
  · rintro (apart | ⟨-, -, beyond⟩)
    · exact apart
    · exact absurd beyond (by decide)
  · exact Or.inl

end Integers

/-- The integers as which two values are compared, if they are compared as integers. -/
def commonIntegers? : Value → Value → Option (Int × Int)
  | .int o m _, .int p n _ => if Apart o p m n then none else some (m, n)
  | _, _ => none

theorem commonIntegers?_swap (a b : Value) :
    b.commonIntegers? a = (a.commonIntegers? b).map Prod.swap := by
  cases a with
  | double x => cases b <;> rfl
  | int o m hm =>
    cases b with
    | double y => rfl
    | int p n hn =>
      simp only [commonIntegers?, apart_comm (o := p)]
      split <;> rfl

/-- Only values at integer orders are compared as integers. -/
theorem ints_of_commonIntegers? {a b : Value} {m n : Int} (h : a.commonIntegers? b = some (m, n)) :
    (∃ o hm, a = int o m hm) ∧ ∃ p hn, b = int p n hn := by
  cases a with
  | double x => cases h
  | int o k hk =>
    cases b with
    | double y => cases h
    | int p l hl =>
      simp only [commonIntegers?] at h
      split at h
      · cases h
      · obtain ⟨rfl, rfl⟩ := Prod.mk.inj (Option.some.inj h)
        exact ⟨⟨o, hk, rfl⟩, p, hl, rfl⟩

theorem toDouble_of_standsFor {v : Value} {n : Int} (h : v.StandsFor n) :
    v.toDouble = .ofInt n := by
  cases v with
  | double x => exact h
  | int o m fits =>
    obtain rfl := h
    rfl

/-- A loose comparison is one of integers or one of doubles. -/
theorem compare_eq_match (a b : Value) :
    a.compare b = match a.commonIntegers? b with
      | some (m, n) => Ord.compare m n
      | none => a.toDouble.compare b.toDouble := by
  cases a with
  | double x => exact compare_of_order_double (Or.inl rfl)
  | int o m hm =>
    cases b with
    | double y => exact compare_of_order_double (Or.inr rfl)
    | int p n hn =>
      simp only [commonIntegers?]
      by_cases apart : Apart o p m n
      · rw [if_pos apart]
        exact compare_of_apart hm hn apart
      · rw [if_neg apart]
        exact compare_of_not_apart hm hn apart

/-! ## Nearest doubles first -/

/-- How two values compare as integers. Those that are not compared as integers tie. -/
def tie (a b : Value) : Ordering :=
  match a.commonIntegers? b with
  | some (m, n) => Ord.compare m n
  | none => .eq

theorem tie_swap (a b : Value) : (a.tie b).swap = b.tie a := by
  unfold tie
  rw [commonIntegers?_swap a b]
  cases a.commonIntegers? b with
  | none => rfl
  | some pair => exact (Int.compare_swap pair.1 pair.2)

/-- Integers that are in order have nearest doubles in order. -/
theorem key_le_key_of_tie {a b : Value} {m n : Int} (h : a.commonIntegers? b = some (m, n))
    (le : m ≤ n) : a.toDouble.key ≤ b.toDouble.key := by
  obtain ⟨⟨o, hm, rfl⟩, p, hn, rfl⟩ := ints_of_commonIntegers? h
  exact Double.key_ofInt_mono le

/-- Only integers do not tie. -/
theorem tie_eq_iff {a b : Value} {r : Ordering} (h : r ≠ .eq) :
    a.tie b = r ↔ ∃ m n, a.commonIntegers? b = some (m, n) ∧ Ord.compare m n = r := by
  unfold tie
  cases a.commonIntegers? b with
  | none => simpa using h.symm
  | some pair =>
    obtain ⟨m, n⟩ := pair
    exact ⟨fun is => ⟨m, n, rfl, is⟩, fun ⟨_, _, met, is⟩ => by cases met; exact is⟩

theorem tie_eq_eq_iff {a b : Value} :
    a.tie b = .eq ↔ ∀ m n, a.commonIntegers? b = some (m, n) → m = n := by
  unfold tie
  cases a.commonIntegers? b with
  | none => simp
  | some pair =>
    obtain ⟨m, n⟩ := pair
    simp

/-- A coarser order put first changes nothing. -/
theorem then_compare_of_coarser {i j m n : Int} (up : m ≤ n → i ≤ j) (down : n ≤ m → j ≤ i) :
    (Ord.compare i j).then (Ord.compare m n) = Ord.compare m n := by
  rcases Int.lt_trichotomy i j with less | same | more
  · have finer : m < n := Int.not_le.mp fun h => Int.not_le.mpr less (down h)
    rw [Int.compare_eq_lt.mpr less, Int.compare_eq_lt.mpr finer]
    rfl
  · rw [Int.compare_eq_eq.mpr same]
    rfl
  · have finer : n < m := Int.not_le.mp fun h => Int.not_le.mpr more (up h)
    rw [Int.compare_eq_gt.mpr more, Int.compare_eq_gt.mpr finer]
    rfl

/-- Values are compared by their nearest doubles first, and then as integers. -/
theorem compare_eq_then (a b : Value) :
    a.compare b = (a.toDouble.compare b.toDouble).then (a.tie b) := by
  rw [compare_eq_match, tie]
  cases h : a.commonIntegers? b with
  | none => exact Ordering.then_eq.symm
  | some pair =>
    obtain ⟨m, n⟩ := pair
    have swapped : b.commonIntegers? a = some (n, m) := by rw [commonIntegers?_swap, h]; rfl
    exact (then_compare_of_coarser (key_le_key_of_tie h) (key_le_key_of_tie swapped)).symm

theorem compare_swap (a b : Value) : (a.compare b).swap = b.compare a := by
  rw [compare_eq_then a b, compare_eq_then b a, Ordering.swap_then, tie_swap, Double.compare,
    Double.compare, Int.compare_swap]

theorem compare_eq_lt_iff {a b : Value} : a.compare b = .lt ↔
    a.toDouble.key < b.toDouble.key ∨ a.toDouble = b.toDouble ∧ a.tie b = .lt := by
  rw [compare_eq_then, Ordering.then_eq_lt, Double.compare, Int.compare_eq_lt, Int.compare_eq_eq]
  exact or_congr_right (and_congr_left' ⟨Double.key_injective, congrArg Double.key⟩)

theorem compare_eq_eq_iff {a b : Value} : a.compare b = .eq ↔
    a.toDouble = b.toDouble ∧ a.tie b = .eq := by
  rw [compare_eq_then, Ordering.then_eq_eq, Double.compare, Int.compare_eq_eq]
  exact and_congr_left' ⟨Double.key_injective, congrArg Double.key⟩

theorem compare_eq_gt_iff {a b : Value} : a.compare b = .gt ↔
    b.toDouble.key < a.toDouble.key ∨ a.toDouble = b.toDouble ∧ a.tie b = .gt := by
  rw [compare_eq_then, Ordering.then_eq_gt, Double.compare, Int.compare_eq_gt, Int.compare_eq_eq]
  exact or_congr_right (and_congr_left' ⟨Double.key_injective, congrArg Double.key⟩)

/-- Values that are not above others have nearest doubles that are not. -/
theorem key_le_key_of_compare {a b : Value} (h : a.compare b ≠ .gt) :
    a.toDouble.key ≤ b.toDouble.key :=
  Int.not_lt.mp fun above => h (compare_eq_gt_iff.mpr (Or.inl above))

/-- Between values that stand for integers, rounded or not, a comparison is that of the integers or finds
no difference. -/
theorem compare_of_standsFor {a b : Value} {m n : Int} (left : a.StandsFor m) (right : b.StandsFor n) :
    a.compare b = .eq ∨ a.compare b = Ord.compare m n := by
  rw [compare_eq_match]
  cases h : a.commonIntegers? b with
  | some pair =>
    obtain ⟨k, l⟩ := pair
    obtain ⟨⟨o, hk, rfl⟩, p, hl, rfl⟩ := ints_of_commonIntegers? h
    obtain rfl := left
    obtain rfl := right
    exact Or.inr rfl
  | none =>
    rw [toDouble_of_standsFor left, toDouble_of_standsFor right]
    have coarser : ((Double.ofInt m).compare (Double.ofInt n)).then (Ord.compare m n) =
        Ord.compare m n :=
      then_compare_of_coarser Double.key_ofInt_mono Double.key_ofInt_mono
    cases rounded : (Double.ofInt m).compare (Double.ofInt n) with
    | eq => exact Or.inl rfl
    | lt | gt =>
      rw [rounded] at coarser
      exact Or.inr coarser

/-- What a loose comparison decides: the order of integers wherever both values are compared as such, and
elsewhere that of the numbers of the nearest doubles.  It is the same from both sides, and never the
opposite of the order of two integers. -/
theorem compare_decides (a b : Value) :
    (a.compare b = match a.commonIntegers? b with
      | some (m, n) => Ord.compare m n
      | none => Double.compareNumbers a.toDouble b.toDouble) ∧
    a.compare b = (b.compare a).swap ∧
    ∀ {o p m n} {hm : o.Fits m} {hn : p.Fits n}, a = int o m hm → b = int p n hn →
      a.compare b = .eq ∨ a.compare b = Ord.compare m n := by
  refine ⟨?_, (compare_swap b a).symm, ?_⟩
  · rw [compare_eq_match]
    cases a.commonIntegers? b with
    | some pair => rfl
    | none => exact Double.compare_eq_compareNumbers _ _
  · rintro o p m n hm hn rfl rfl
    exact compare_of_standsFor (standsFor_int hm) (standsFor_int hn)

theorem compare_decides_beyond :
    let a := int .u128 170141183460469231731687303715884105729 (by decide)
    let b := int .i128 170141183460469231731687303715884105727 (by decide)
    a.compare b = Double.compareNumbers a.toDouble b.toDouble ∧
    a.compare b = (b.compare a).swap ∧
    (a.compare b = .eq ∨ a.compare b = .gt) := by
  obtain ⟨number, swapped, near⟩ := compare_decides
    (int .u128 170141183460469231731687303715884105729 (by decide))
    (int .i128 170141183460469231731687303715884105727 (by decide))
  exact ⟨number, swapped, near rfl rfl⟩

/-! ## Chains -/

section Chains

variable {a b c : Value}

/-- A chain of values that do not descend ends below its beginning only if all have one nearest double and
the ends are compared as integers. -/
theorem compare_eq_gt_iff_of_chain (first : a.compare b ≠ .gt) (second : b.compare c ≠ .gt) :
    a.compare c = .gt ↔
      (a.toDouble = b.toDouble ∧ b.toDouble = c.toDouble) ∧ a.tie c = .gt := by
  have up := key_le_key_of_compare first
  have onward := key_le_key_of_compare second
  rw [compare_eq_gt_iff]
  constructor
  · rintro (above | ⟨same, ties⟩)
    · exact absurd (Int.le_trans up onward) (Int.not_le.mpr above)
    · have keys := congrArg Double.key same
      exact ⟨⟨Double.key_injective (by omega), Double.key_injective (by omega)⟩, ties⟩
  · rintro ⟨⟨left, right⟩, ties⟩
    exact Or.inr ⟨left.trans right, ties⟩

/-- In a chain of values that compare as equal all have one nearest double. -/
theorem compare_of_same_chain (first : a.compare b = .eq) (second : b.compare c = .eq) :
    a.compare c = a.tie c := by
  have same := (compare_eq_eq_iff.mp first).1.trans (compare_eq_eq_iff.mp second).1
  rw [compare_eq_then, Double.compare, Int.compare_eq_eq.mpr (congrArg Double.key same)]
  rfl

/-- The end of an ascending chain compares as equal to its beginning if both have one nearest double and
are not compared as integers, and as above it otherwise. -/
theorem compare_of_below_chain (first : a.compare b = .lt) (second : b.compare c = .lt) :
    a.compare c =
      if a.toDouble = c.toDouble ∧ a.commonIntegers? c = none then .eq else .lt := by
  have up := key_le_key_of_compare (a := a) (b := b) (by rw [first]; exact nofun)
  have onward := key_le_key_of_compare (a := b) (b := c) (by rw [second]; exact nofun)
  by_cases same : a.toDouble = c.toDouble
  · have keys := congrArg Double.key same
    have left : a.tie b = .lt := by
      rcases compare_eq_lt_iff.mp first with apart | ⟨-, ties⟩
      · omega
      · exact ties
    have right : b.tie c = .lt := by
      rcases compare_eq_lt_iff.mp second with apart | ⟨-, ties⟩
      · omega
      · exact ties
    obtain ⟨k, l, inner, less⟩ := (tie_eq_iff (r := .lt) nofun).mp left
    obtain ⟨l', m, outer, more⟩ := (tie_eq_iff (r := .lt) nofun).mp right
    obtain ⟨⟨o, hk, rfl⟩, p, hl, rfl⟩ := ints_of_commonIntegers? inner
    obtain ⟨⟨_, _, middle⟩, q, hm, rfl⟩ := ints_of_commonIntegers? outer
    obtain ⟨-, rfl⟩ := int.inj middle
    -- The integers ascend with the chain, so the ends can only be equal by rounding.
    rw [compare_eq_match]
    cases ends : (int o k hk).commonIntegers? (int q m hm) with
    | none =>
      rw [if_pos ⟨same, rfl⟩]
      exact Int.compare_eq_eq.mpr keys
    | some pair =>
      obtain ⟨k', m'⟩ := pair
      obtain ⟨⟨_, _, start⟩, _, _, stop⟩ := ints_of_commonIntegers? ends
      obtain ⟨-, rfl⟩ := int.inj start
      obtain ⟨-, rfl⟩ := int.inj stop
      rw [if_neg fun h => nomatch h.2]
      exact Int.compare_eq_lt.mpr
        (Int.lt_trans (Int.compare_eq_lt.mp less) (Int.compare_eq_lt.mp more))
  · rw [if_neg fun h => same h.1]
    have keys : a.toDouble.key ≠ c.toDouble.key := fun h => same (Double.key_injective h)
    exact compare_eq_lt_iff.mpr (Or.inl (by omega))

end Chains

end Value

end Reckoner
