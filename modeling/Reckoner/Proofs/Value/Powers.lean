import Reckoner.Proofs.Value.Climbing
import Reckoner.Proofs.Value.Comparing

/-!
# Powers of integers

A power is refused without being computed if the logarithm of its base says that it is too wide for the
order.  The logarithm is a lower bound, so a power that is too wide in this sense does not fit
(`not_fits_of_isTooWide`), and the refusal is no more than a shortcut (`powerWithin?_eq`).  Twice the
logarithm is an upper bound, so no power that is computed has twice the digits of the order
(`natAbs_pow_lt_of_not_isTooWide`).

The exponent takes part in one match of the orders only.  After that the base climbs through its own homes
(`climbPower_eq`), while sums and products climb through the homes that their operands share.  From
where a base with a sign is matched, both are the same orders; a base without one has signed homes that
the exponent may not share, but these hold no power that the unsigned orders do not hold.  So powers
promote as sums and products do (`pow_promotes`).
-/

namespace Reckoner

namespace IntOrder

/-- What an order holds has no more digits than the order. -/
theorem natAbs_lt_of_fits {o : IntOrder} {n : Int} (h : o.Fits n) : n.natAbs < Nat.pow 2 o.width := by
  cases o <;> simp only [Fits, low, high, width] at h ⊢ <;> simp only [Nat.pow_eq] <;> omega

end IntOrder

namespace Value

/-! ## The shortcut -/

section Shortcut

variable {o : IntOrder} {m : Int} {k : Nat}

/-- A power has at least as many digits as its exponent times the logarithm of its base. -/
theorem pow_log2_le_natAbs_pow (large : m ≠ 0) :
    Nat.pow 2 (m.natAbs.log2 * k) ≤ (Int.pow m k).natAbs := by
  calc Nat.pow 2 (m.natAbs.log2 * k)
      = Nat.pow (Nat.pow 2 m.natAbs.log2) k := Nat.pow_mul 2 _ _
    _ ≤ Nat.pow m.natAbs k := Nat.pow_le_pow_left (Nat.log2_self_le (Int.natAbs_ne_zero.mpr large)) k
    _ = (Int.pow m k).natAbs := (Int.natAbs_pow m k).symm

/-- A power that is refused for its width does not fit. -/
theorem not_fits_of_isTooWide (h : isTooWide o m k = true) : ¬ o.Fits (Int.pow m k) := by
  obtain ⟨large, wide⟩ : 1 < m.natAbs ∧ o.width ≤ m.natAbs.log2 * k := by
    simpa [isTooWide] using h
  intro fits
  have least := pow_log2_le_natAbs_pow (m := m) (k := k) (by omega)
  have most := IntOrder.natAbs_lt_of_fits fits
  have widths : Nat.pow 2 o.width ≤ Nat.pow 2 (m.natAbs.log2 * k) :=
    Nat.pow_le_pow_right (by decide) wide
  omega

/-- The shortcut changes nothing about which powers an order holds. -/
theorem powerWithin?_eq (o : IntOrder) (m : Int) (k : Nat) :
    powerWithin? o m k = if o.Fits (Int.pow m k) then some (Int.pow m k) else none := by
  unfold powerWithin?
  split
  case isTrue wide => rw [if_neg (not_fits_of_isTooWide wide)]
  case isFalse => rfl

/-- What the logarithm lets through has fewer than twice the digits of the order, since a base of more than
one digit has at most twice as many digits as its logarithm says. -/
theorem natAbs_pow_lt_of_not_isTooWide (large : 1 < m.natAbs) (narrow : isTooWide o m k = false) :
    (Int.pow m k).natAbs < Nat.pow 2 (2 * o.width) := by
  have within : m.natAbs.log2 * k < o.width := by simpa [isTooWide, large] using narrow
  have least : 1 ≤ m.natAbs.log2 := (Nat.le_log2 (by omega)).mpr large
  have digits : (m.natAbs.log2 + 1) * k < 2 * o.width := by
    have twice : 1 * k ≤ m.natAbs.log2 * k := Nat.mul_le_mul_right k least
    rw [Nat.add_mul]
    omega
  calc (Int.pow m k).natAbs
      = Nat.pow m.natAbs k := Int.natAbs_pow m k
    _ ≤ Nat.pow (Nat.pow 2 (m.natAbs.log2 + 1)) k :=
        Nat.pow_le_pow_left (Nat.le_of_lt Nat.lt_log2_self) k
    _ = Nat.pow 2 ((m.natAbs.log2 + 1) * k) := (Nat.pow_mul 2 _ _).symm
    _ < Nat.pow 2 (2 * o.width) := Nat.pow_lt_pow_right (by decide) digits

/-- All powers of a base of at most one digit have at most one digit. -/
theorem natAbs_pow_le_one (small : m.natAbs ≤ 1) (k : Nat) : (Int.pow m k).natAbs ≤ 1 := by
  calc (Int.pow m k).natAbs
      = Nat.pow m.natAbs k := Int.natAbs_pow m k
    _ ≤ Nat.pow 1 k := Nat.pow_le_pow_left small k
    _ = 1 := Nat.one_pow k

/-- A power is found at an order just if the order holds it.  The shortcut refuses nothing that fits, and
where it lets a power be computed, neither that power nor one on the way to it is wide, whatever the
exponent. -/
theorem power_shortcut_sound (o : IntOrder) (m : Int) (k : Nat) :
    powerWithin? o m k = (if o.Fits (Int.pow m k) then some (Int.pow m k) else none) ∧
    (isTooWide o m k = true → powerWithin? o m k = none ∧ ¬ o.Fits (Int.pow m k)) ∧
    (isTooWide o m k = false →
      (m.natAbs ≤ 1 ∨ (Int.pow m k).natAbs < Nat.pow 2 (2 * o.width)) ∧
        ∀ j ≤ k, (Int.pow m j).natAbs < Nat.pow 2 (2 * o.width)) := by
  refine ⟨powerWithin?_eq o m k, fun wide => ⟨if_pos wide, not_fits_of_isTooWide wide⟩,
    fun narrow => ?_⟩
  rcases Nat.lt_or_ge 1 m.natAbs with large | small
  · have last := natAbs_pow_lt_of_not_isTooWide large narrow
    refine ⟨Or.inr last, fun j before => ?_⟩
    calc (Int.pow m j).natAbs
        = Nat.pow m.natAbs j := Int.natAbs_pow m j
      _ ≤ Nat.pow m.natAbs k := Nat.pow_le_pow_right (by omega) before
      _ = (Int.pow m k).natAbs := (Int.natAbs_pow m k).symm
      _ < Nat.pow 2 (2 * o.width) := last
  · refine ⟨Or.inl small, fun j _ => ?_⟩
    exact Nat.lt_of_le_of_lt (natAbs_pow_le_one small j)
      (Nat.one_lt_two_pow (by cases o <;> decide))

-- The least integer of an order stands at the edge of what is let through.
example : isTooWide .i64 (-2) 63 = false ∧ isTooWide .i64 (-2) 64 = true ∧
    powerWithin? .i64 (-2) 63 = some IntOrder.i64.low := by decide

end Shortcut

/-! ## The climb of the base -/

/-- The base of a power passes its homes that do not hold the power.  It ends at the first one that does, and
with the power of doubles where there is none. -/
theorem climbPower_eq (k : Nat) {v : Value} {m : Int} (h : v.StandsFor m) :
    climbPower k v =
      ⟨firstFit (Int.pow m k) ((Double.ofInt m).pow (.ofInt k)) v.homes,
        v.homes.takeWhile fun o => ¬ o.Fits (Int.pow m k)⟩ := by
  fun_induction climbPower k v with
  | case1 x =>
    obtain rfl := h
    rfl
  | case2 o n hn r within =>
    obtain rfl := h
    rw [powerWithin?_eq] at within
    split at within
    case isTrue fits =>
      obtain rfl := Option.some.inj within
      rw [homes_promote, firstFit_of_fits fits, List.takeWhile_cons_of_neg (by simpa using fits)]
    case isFalse => cases within
  | case3 o n hn beyond higher ih =>
    obtain rfl := h
    rw [powerWithin?_eq] at beyond
    split at beyond
    case isTrue => cases beyond
    case isFalse narrow =>
      have onward : higher = _ := ih (standsFor_int hn).promote
      rw [homes_promote, firstFit_of_not_fits narrow,
        List.takeWhile_cons_of_pos (by simpa using narrow), onward]

theorem climbPower_result (k : Nat) {v : Value} {m : Int} (h : v.StandsFor m) :
    (climbPower k v).result =
      firstFit (Int.pow m k) ((Double.ofInt m).pow (.ofInt k)) v.homes :=
  congrArg Ascent.result (climbPower_eq k h)

section Integers

variable {o p q : IntOrder} {m n : Int} {orders : List IntOrder}

theorem count_int (hn : q.Fits n) :
    (int q n hn).count =
      if 0 ≤ n ∧ n ≤ countLimit then .ok n.toNat else .error (.calculation .overflow) := rfl

/-- Of values that are matched as integers, the base climbs alone if the exponent is a count, and otherwise
there is no power. -/
theorem pow_of_ints {a b : Value} {hm : q.Fits m} {hn : q.Fits n}
    (met : a.matchOrders b = .ints q m n hm hn) :
    a.pow b = if 0 ≤ n ∧ n ≤ countLimit then .ok (climbPower n.toNat (int q m hm))
      else .error (.calculation .overflow) := by
  rw [pow, met]
  simp only [count_int]
  split <;> rfl

/-- With an exponent that is no count there is no power of integers. -/
theorem pow_of_not_count (hm : o.Fits m) (hn : p.Fits n) (near : ¬ Apart o p m n)
    (wrong : ¬ (0 ≤ n ∧ n ≤ countLimit)) :
    (int o m hm).pow (int p n hn) = .error (.calculation .overflow) := by
  obtain ⟨q, left, right, matched⟩ := matchOrders_of_not_apart hm hn near
  rw [pow_of_ints matched, if_neg wrong]

/-- With a count for its exponent, a power is that of the base from the order on at which both are
matched. -/
theorem pow_of_meeting (hm : o.Fits m) (hn : p.Fits n) (counts : 0 ≤ n ∧ n ≤ countLimit)
    (meets : (int o m hm).meeting (int p n hn) = q :: orders) :
    ∃ fits : q.Fits m, ∃ ascent, (int o m hm).pow (int p n hn) = .ok ascent ∧
      ascent.result = firstFit (Int.pow m n.toNat) ((Double.ofInt m).pow (.ofInt n))
        (int q m fits).homes := by
  have level := order_matchOrders (standsFor_int hm) (standsFor_int hn) meets
  cases met : (int o m hm).matchOrders (int p n hn) with
  | doubles x y =>
    rw [met] at level
    cases level
  | ints q' k l hk hl =>
    obtain ⟨rfl, rfl, -⟩ := meeting_of_ints (standsFor_int hm) (standsFor_int hn) met
    rw [met] at level
    obtain rfl := Order.integer.inj level
    refine ⟨hk, climbPower l.toNat (int q' k hk), ?_, ?_⟩
    · rw [pow_of_ints met, if_pos counts]
    · rw [climbPower_result l.toNat (standsFor_int hk), Int.toNat_of_nonneg counts.1]

/-- From a signed order on, the base has the homes that it shares with the exponent. -/
theorem pow_of_signed (hm : o.Fits m) (hn : p.Fits n) (near : ¬ Apart o p m n)
    (counts : 0 ≤ n ∧ n ≤ countLimit) (sign : o.isSigned = true ∨ p.isSigned = true) :
    ∃ ascent, (int o m hm).pow (int p n hn) = .ok ascent ∧
      ascent.result = firstFit (Int.pow m n.toNat) ((Double.ofInt m).pow (.ofInt n))
        ((int o m hm).meeting (int p n hn)) := by
  rcases meeting_of_signed hm hn sign near with meets | meets
  · obtain ⟨fits, ascent, powered, result⟩ := pow_of_meeting hm hn counts meets
    exact ⟨ascent, powered, by rw [result, homes_i64, meets]⟩
  · obtain ⟨fits, ascent, powered, result⟩ := pow_of_meeting hm hn counts meets
    exact ⟨ascent, powered, by rw [result, homes_i128, meets]⟩

/-- Without signs, a power fits at the unsigned orders or nowhere. -/
theorem pow_of_unsigned (hm : o.Fits m) (hn : p.Fits n) (counts : 0 ≤ n ∧ n ≤ countLimit)
    (left : o.isSigned = false) (right : p.isSigned = false) :
    ∃ ascent, (int o m hm).pow (int p n hn) = .ok ascent ∧
      ascent.result = firstFit (Int.pow m n.toNat) ((Double.ofInt m).pow (.ofInt n))
        (if o = .u64 ∧ p = .u64 then [.u64, .u128] else [.u128]) := by
  have least : 0 ≤ Int.pow m n.toNat := Int.pow_nonneg (nonneg_of_unsigned hm left)
  have meets := meeting_of_unsigned hm hn left right
  split at meets
  case isTrue narrow =>
    obtain ⟨fits, ascent, powered, result⟩ := pow_of_meeting hm hn counts meets
    refine ⟨ascent, powered, ?_⟩
    rw [result, homes_u64, if_pos narrow]
    exact firstFit_append_signedHomes least _ [.u64, .u128] (by decide) m
  case isFalse wide =>
    obtain ⟨fits, ascent, powered, result⟩ := pow_of_meeting hm hn counts meets
    refine ⟨ascent, powered, ?_⟩
    rw [result, homes_u128, if_neg wide]
    exact firstFit_append_signedHomes least _ [.u128] (by decide) m

/-- A power of integers that are matched as such promotes as sums and products do. -/
theorem promotes_pow (hm : o.Fits m) (hn : p.Fits n) (near : ¬ Apart o p m n)
    (counts : 0 ≤ n ∧ n ≤ countLimit) :
    ∃ ascent, (int o m hm).pow (int p n hn) = .ok ascent ∧
      Promotes o p m n ((int o m hm).matchOrders (int p n hn)).order (Int.pow m n.toNat)
        ((Double.ofInt m).pow (.ofInt n)) ascent.result := by
  by_cases sign : o.isSigned = true ∨ p.isSigned = true
  · obtain ⟨ascent, powered, result⟩ := pow_of_signed hm hn near counts sign
    refine ⟨ascent, powered, settles_of_firstFit hm hn fun _ => result, fun left right => ?_⟩
    rw [left, right] at sign
    exact absurd sign (by decide)
  · obtain ⟨left, right⟩ := not_or.mp sign
    obtain ⟨ascent, powered, result⟩ := pow_of_unsigned hm hn counts
      (Bool.eq_false_iff.mpr left) (Bool.eq_false_iff.mpr right)
    exact ⟨ascent, powered, settles_of_firstFit hm hn fun signed => absurd signed sign,
      fun _ _ => result⟩

end Integers

/-- Values that are matched as doubles have the power of these, whatever they are. -/
theorem pow_of_doubles {a b : Value} (doubles : (a.matchOrders b).order = .double) :
    a.pow b = .ok ⟨.double (a.toDouble.pow b.toDouble), []⟩ := by
  cases met : a.matchOrders b with
  | ints q k l hk hl =>
    rw [met] at doubles
    cases doubles
  | doubles x y =>
    obtain ⟨rfl, rfl⟩ := eq_of_matchOrders_doubles met
    rw [pow, met]

/-! ## Powers -/

/-- What the power `m ^ n` of two integers results in, as their orders `o` and `p` decide it. -/
structure PowerPromotes (o p : IntOrder) (m n : Int) (meets : Order) (result : Except Fault Ascent) :
    Prop where
  /-- Integers that are matched as such overflow exactly if the exponent is no count. -/
  overflows : ¬ Apart o p m n → (result = .error (.calculation .overflow) ↔ n < 0 ∨ countLimit < n)
  /-- With a count for the exponent there is a power, and it promotes as sums and products do. -/
  powers : ¬ Apart o p m n → 0 ≤ n → n ≤ countLimit → ∃ ascent, result = .ok ascent ∧
    Promotes o p m n meets (Int.pow m n.toNat) ((Double.ofInt m).pow (.ofInt n)) ascent.result

/-- Powers of integers are exact and promote as little as they have to, and powers of values that are
matched as doubles never fail. -/
theorem pow_promotes :
    (∀ {o p : IntOrder} {m n : Int} (hm : o.Fits m) (hn : p.Fits n),
      PowerPromotes o p m n ((int o m hm).matchOrders (int p n hn)).order
        ((int o m hm).pow (int p n hn))) ∧
    ∀ a b : Value, (a.matchOrders b).order = .double →
      a.pow b = .ok ⟨.double (a.toDouble.pow b.toDouble), []⟩ := by
  constructor
  · intro o p m n hm hn
    constructor
    · intro near
      constructor
      · intro overflowed
        by_contra counts
        obtain ⟨ascent, powered, -⟩ := promotes_pow hm hn near (by omega)
        rw [powered] at overflowed
        cases overflowed
      · intro wrong
        exact pow_of_not_count hm hn near (by omega)
    · intro near least most
      exact promotes_pow hm hn near ⟨least, most⟩
  · intro a b
    exact pow_of_doubles

/-- The least integer of an order is a power at that order, one more factor needs the next order, and an
integer beyond the signed orders has a power below zero, as a double. -/
theorem pow_promotes_least :
    let base := int .i64 (-2) (by decide)
    let least := int .u64 63 (by decide)
    let more := int .u64 64 (by decide)
    let minus := int .i64 (-1) (by decide)
    let beyond := int .u128 170141183460469231731687303715884105728 (by decide)
    (∃ ascent, base.pow least = .ok ascent ∧
      Promotes .i64 .u64 (-2) 63 (base.matchOrders least).order (Int.pow (-2) 63)
        ((Double.ofInt (-2)).pow (.ofInt 63)) ascent.result) ∧
    (∃ ascent, base.pow more = .ok ascent ∧
      Promotes .i64 .u64 (-2) 64 (base.matchOrders more).order (Int.pow (-2) 64)
        ((Double.ofInt (-2)).pow (.ofInt 64)) ascent.result) ∧
    base.pow least = .ok ⟨.int .i64 (-9223372036854775808) (by decide), []⟩ ∧
    base.pow more = .ok ⟨.int .i128 18446744073709551616 (by decide), [.i64]⟩ ∧
    base.pow minus = .error (.calculation .overflow) ∧
    beyond.pow minus = .ok ⟨.double (beyond.toDouble.pow minus.toDouble), []⟩ := by
  intro base least more minus beyond
  obtain ⟨integers, doubles⟩ := pow_promotes
  have fits : IntOrder.i64.Fits (-2) := by decide
  have first := integers (n := 63) fits (by decide : IntOrder.u64.Fits 63)
  have second := integers (n := 64) fits (by decide : IntOrder.u64.Fits 64)
  have below := integers (n := -1) fits (by decide : IntOrder.i64.Fits (-1))
  refine ⟨?_, ?_, by decide +kernel, by decide +kernel, ?_, ?_⟩
  · exact first.powers (by decide) (by decide) (by decide)
  · exact second.powers (by decide) (by decide) (by decide)
  · exact (below.overflows (by decide)).mpr (by decide)
  · exact doubles beyond minus (by decide +kernel)

end Value

end Reckoner
