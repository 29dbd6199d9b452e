import Reckoner.Expr.Operator
import Reckoner.Proofs.Double.Integral
import Reckoner.Proofs.Value.Combining

/-!
# Operations stay in range

A value carries the proof that its order holds its integer, and an operation that computes an integer
anew has to make that proof again.  Three ways lead there.  Sums, products and powers are tried at higher
and higher orders until the result fits.  Combined bits, patterns, shifts to the right and remainders fit at
the order of their operands, each for a reason of its own (`fits_bitwise`, `fits_ofPattern`,
`fits_shiftRight`, `fits_tmod`).  Roundings pass through doubles, and a rounded double is an integer or not
finite (`demote_roundWhole`).  All other outcomes blame the operands: integer arithmetic has no result for
them, or an operation on integers met a double, which happens only to operators on integers and only where
operands are matched as doubles (`InfixOp.blames_match`).

`FailsOnly` says of a computation that its faults are of a certain sort.  Every operator and every function
fails only where the operands are to blame, and so do chains of calls, each on values that others gave
(`operations_stay_in_range`).
-/

namespace Reckoner

/-! ## Integers that fit -/

namespace IntOrder

variable {o : IntOrder} {m n : Int}

/-- An order holds whatever lies between zero and an integer that it holds. -/
theorem fits_of_between (h : o.Fits m) (lower : min m 0 ≤ n) (upper : n ≤ max m 0) : o.Fits n := by
  have zero : o.Fits 0 := by cases o <;> decide
  obtain ⟨low, high⟩ := h
  obtain ⟨low', high'⟩ := zero
  refine ⟨?_, ?_⟩ <;> omega

/-- A remainder of truncated division lies between zero and the dividend. -/
theorem fits_tmod (h : o.Fits m) (n : Int) : o.Fits (Int.tmod m n) := by
  have size : (Int.tmod m n).natAbs ≤ m.natAbs := by
    rw [Int.natAbs_tmod]
    exact Nat.mod_le _ _
  rcases Int.le_total 0 m with nonneg | nonpos
  · have sign := Int.tmod_nonneg n nonneg
    exact fits_of_between h (by omega) (by omega)
  · have sign := Int.tmod_nonneg n (Int.neg_nonneg_of_nonpos nonpos)
    rw [Int.neg_tmod] at sign
    exact fits_of_between h (by omega) (by omega)

/-- A shift to the right moves an integer towards zero or `-1`. -/
theorem fits_shiftRight (h : o.Fits m) (k : Nat) : o.Fits (m >>> k) := by
  rcases Int.le_total 0 m with nonneg | nonpos
  · have lower : 0 ≤ m >>> k := Int.le_shiftRight_of_nonneg nonneg
    have upper : m >>> k ≤ m := Int.shiftRight_le_of_nonneg nonneg
    exact fits_of_between h (by omega) (by omega)
  · have lower : m ≤ m >>> k := Int.le_shiftRight_of_nonpos nonpos
    have upper : m >>> k ≤ 0 := Int.shiftRight_le_of_nonpos nonpos
    exact fits_of_between h (by omega) (by omega)

/-- The integer of a pattern fits at the order of the pattern. -/
theorem fits_ofPattern (o : IntOrder) (bits : BitVec o.width) : o.Fits (o.ofPattern bits) := by
  cases o with
  | u64 | u128 =>
    have below : bits.toNat < 2 ^ _ := bits.isLt
    simp only [Fits, ofPattern, isSigned, low, high, width, Bool.false_eq_true, if_false] at below ⊢
    omega
  | i64 | i128 =>
    have lower := bits.le_toInt
    have upper := bits.toInt_lt
    simp only [Fits, ofPattern, isSigned, low, high, width, if_true] at lower upper ⊢
    omega

end IntOrder

/-! ## Faults that blame the operands -/

/-- The computation fails with faults of one sort only. -/
def FailsOnly {α : Type} (sort : Fault → Prop) (r : Except Fault α) : Prop :=
  ∀ fault, r = .error fault → sort fault

section FailsOnly

variable {α β : Type} {sort : Fault → Prop} {r : Except Fault α}

@[simp] theorem failsOnly_ok (a : α) : FailsOnly sort (.ok a) := fun _ h => nomatch h

@[simp] theorem failsOnly_error {fault : Fault} :
    FailsOnly sort (.error fault : Except Fault α) ↔ sort fault :=
  ⟨fun h => h fault rfl, fun h _ same => Except.error.inj same ▸ h⟩

theorem FailsOnly.bind {f : α → Except Fault β} (first : FailsOnly sort r)
    (second : ∀ a, FailsOnly sort (f a)) : FailsOnly sort (r.bind f) := by
  cases r with
  | ok a => exact second a
  | error fault => exact failsOnly_error.mpr (failsOnly_error.mp first)

theorem FailsOnly.map (f : α → β) (h : FailsOnly sort r) : FailsOnly sort (r.map f) := by
  cases r with
  | ok a => exact failsOnly_ok _
  | error fault => exact failsOnly_error.mpr (failsOnly_error.mp h)

theorem FailsOnly.mono {other : Fault → Prop} (h : FailsOnly sort r)
    (wider : ∀ fault, sort fault → other fault) : FailsOnly other r :=
  fun fault failed => wider fault (h fault failed)

end FailsOnly

/-- The operands of an operation are to blame: integer arithmetic has no result for them, or one of them
is no integer where integers are needed. -/
def Fault.BlamesOperands (fault : Fault) : Prop :=
  fault.kind = .arithmetic ∨ fault.kind = .integerNeeded

/-- Integer arithmetic has no result, or integers are needed in vain for a given reason. -/
def Fault.Blames (reason : Prop) (fault : Fault) : Prop :=
  fault.kind = .arithmetic ∨ fault.kind = .integerNeeded ∧ reason

theorem Fault.Blames.blamesOperands {reason : Prop} {fault : Fault} (h : fault.Blames reason) :
    fault.BlamesOperands := h.imp_right And.left

namespace Value

/-- If the computation fails, its operands are to blame. -/
abbrev BlamesOperands {α : Type} (r : Except Fault α) : Prop := FailsOnly Fault.BlamesOperands r

/-- If the computation fails, its operands are to blame, and integers are needed in vain for the given
reason only. -/
abbrev Blames {α : Type} (reason : Prop) (r : Except Fault α) : Prop := FailsOnly (Fault.Blames reason) r

section Blames

variable {α : Type} {reason : Prop}

theorem Blames.imp {wider : Prop} {r : Except Fault α} (h : Blames reason r) (because : reason → wider) :
    Blames wider r :=
  h.mono fun _ blamed => blamed.imp_right (And.imp_right because)

theorem blames_arithmetic {e : CalcError} (h : (Fault.calculation e).kind = .arithmetic) :
    Blames reason (.error (.calculation e) : Except Fault α) := failsOnly_error.mpr (Or.inl h)

theorem blames_integerNeeded (h : reason) :
    Blames reason (.error (.calculation .integerNeeded) : Except Fault α) :=
  failsOnly_error.mpr (Or.inr ⟨rfl, h⟩)

/-! ### Operations on integers -/

variable {o : IntOrder} {n : Int}

theorem blames_make (h : o.Fits n) : Blames reason (make o n) := by
  rw [make, dif_pos h]
  exact failsOnly_ok _

theorem blames_within (n : Int) : Blames reason (count.within n) := by
  unfold count.within
  split
  · exact failsOnly_ok _
  · exact blames_arithmetic rfl

theorem blames_count (h : o.Fits n) : Blames reason (int o n h).count := blames_within n

/-- An operation that two values meet for is only asked for integers that fit. -/
theorem blames_onIntegers {f : (order : IntOrder) → (m n : Int) → order.Fits n → Except Fault Value}
    {a b : Value} (h : ∀ o m n (_ : o.Fits m) (hn : o.Fits n),
      Blames ((a.matchOrders b).order = .double) (f o m n hn)) :
    Blames ((a.matchOrders b).order = .double) (onIntegers f a b) := by
  unfold onIntegers
  split
  case h_1 => exact h _ _ _ ‹_› _
  case h_2 met => exact blames_integerNeeded (congrArg Matched.order met)

/-- Integers that fit are combined to one that does. -/
theorem blames_onBits {f : Bool → Bool → Bool} (keeps : f false false = false) (a b : Value) :
    Blames ((a.matchOrders b).order = .double) (onBits f a b) := by
  refine blames_onIntegers fun o m n hm hn => blames_make ?_
  rw [combineBits_eq_bitwise]
  exact IntOrder.fits_bitwise keeps hm hn

theorem blames_onCount {f : (order : IntOrder) → Int → Nat → Except Fault Value} {a b : Value}
    (h : ∀ o m k, o.Fits m → Blames ((a.matchOrders b).order = .double) (f o m k)) :
    Blames ((a.matchOrders b).order = .double) (onCount f a b) :=
  blames_onIntegers fun _ _ _ hm hn => (blames_count hn).bind fun k => h _ _ k hm

theorem blames_bitNot (v : Value) : Blames (v.order = .double) v.bitNot := by
  cases v with
  | int o n h => exact blames_make (o.fits_ofPattern _)
  | double x => exact blames_integerNeeded rfl

theorem blames_shiftLeft (a b : Value) :
    Blames ((a.matchOrders b).order = .double) (a.shiftLeft b) := by
  refine blames_onCount fun o m k _ => ?_
  split
  · exact blames_arithmetic rfl
  · exact blames_make (o.fits_ofPattern _)

theorem blames_shiftRight (a b : Value) :
    Blames ((a.matchOrders b).order = .double) (a.shiftRight b) := by
  refine blames_onCount fun o m k hm => ?_
  split
  · exact blames_arithmetic rfl
  · exact blames_make (IntOrder.fits_shiftRight hm k)

theorem blames_rotateLeft (a b : Value) :
    Blames ((a.matchOrders b).order = .double) (a.rotateLeft b) :=
  blames_onCount fun o _ _ _ => blames_make (o.fits_ofPattern _)

theorem blames_rotateRight (a b : Value) :
    Blames ((a.matchOrders b).order = .double) (a.rotateRight b) :=
  blames_onCount fun o _ _ _ => blames_make (o.fits_ofPattern _)

/-! ### Arithmetic and roundings -/

theorem blames_pow (a b : Value) : Blames reason (a.pow b) := by
  unfold pow
  split
  · exact failsOnly_ok _
  · exact (blames_count _).bind fun _ => failsOnly_ok _

theorem blames_div (a b : Value) : Blames reason (a.div b) := by
  unfold div
  split
  · split
    · exact blames_arithmetic rfl
    · exact failsOnly_ok _
  · exact failsOnly_ok _

theorem blames_rem (a b : Value) : Blames reason (a.rem b) := by
  unfold rem
  split
  · split
    · exact blames_arithmetic rfl
    · exact blames_make (IntOrder.fits_tmod ‹_› _)
  · exact failsOnly_ok _

/-- A rounded double always moves down: it has nothing after the point, or it is not finite. -/
theorem demote_roundWhole (up : Bool → Nat → Bool) (x : Double) :
    ∃ v, demote (.double (Double.roundWhole up x)) = .ok v := by
  rw [demote]
  split
  case isTrue => exact ⟨_, rfl⟩
  case isFalse inside =>
    have finite : (Double.roundWhole up x).isFinite = true := by simpa using inside
    have tolerated : 0 < fractionTolerance := by decide +kernel
    rw [Double.fraction_roundWhole finite, if_pos tolerated]
    exact ⟨_, rfl⟩

theorem failsOnly_demote_roundWhole {sort : Fault → Prop} (up : Bool → Nat → Bool) (x : Double) :
    FailsOnly sort (demote (.double (Double.roundWhole up x))) := by
  obtain ⟨v, demoted⟩ := demote_roundWhole up x
  rw [demoted]
  exact failsOnly_ok v

theorem blames_floorDiv (a b : Value) : Blames reason (a.floorDiv b) :=
  (blames_div a b).bind fun q => failsOnly_demote_roundWhole _ q.toDouble

theorem failsOnly_roundBy {sort : Fault → Prop} (up : Bool → Nat → Bool) (v : Value) :
    FailsOnly sort (roundBy (Double.roundWhole up) v) := by
  cases v with
  | int o n h => exact failsOnly_ok _
  | double x => exact failsOnly_demote_roundWhole up x

end Blames

end Value

/-! ## The vocabulary of expressions -/

/-- Only a prefix on integers needs them in vain, and only of a double. -/
theorem PrefixOp.blames_order (op : PrefixOp) (v : Value) :
    Value.Blames (op.integersOnly = true ∧ v.order = .double) (op.apply v) := by
  cases op with
  | negate => exact failsOnly_ok _
  | complement => exact v.blames_bitNot.imp fun double => ⟨rfl, double⟩

/-- Only an operator on integers needs them in vain, and only of operands that are matched as doubles. -/
theorem InfixOp.blames_match (op : InfixOp) (a b : Value) :
    Value.Blames (op.integersOnly = true ∧ (a.matchOrders b).order = .double) (op.apply a b) := by
  cases op with
  | add | sub | mul => exact failsOnly_ok _
  | pow => exact a.blames_pow b
  | div => exact (a.blames_div b).map _
  | floorDiv => exact (a.blames_floorDiv b).map _
  | rem => exact (a.blames_rem b).map _
  | shiftLeft => exact ((a.blames_shiftLeft b).imp fun doubles => ⟨rfl, doubles⟩).map _
  | shiftRight => exact ((a.blames_shiftRight b).imp fun doubles => ⟨rfl, doubles⟩).map _
  | rotateLeft => exact ((a.blames_rotateLeft b).imp fun doubles => ⟨rfl, doubles⟩).map _
  | rotateRight => exact ((a.blames_rotateRight b).imp fun doubles => ⟨rfl, doubles⟩).map _
  | bitAnd | bitOr | bitXor =>
    exact ((Value.blames_onBits rfl a b).imp fun doubles => ⟨rfl, doubles⟩).map _

theorem PrefixOp.blames_apply (op : PrefixOp) (v : Value) : Value.BlamesOperands (op.apply v) :=
  (op.blames_order v).mono fun _ => Fault.Blames.blamesOperands

theorem InfixOp.blames_apply (op : InfixOp) (a b : Value) : Value.BlamesOperands (op.apply a b) :=
  (op.blames_match a b).mono fun _ => Fault.Blames.blamesOperands

theorem Function.blames_apply (f : Function) (v : Value) : Value.BlamesOperands (f.apply v) := by
  cases f with
  | ceil | floor | round => exact Value.failsOnly_roundBy _ v
  | _ => exact failsOnly_ok _

/-! ## Chains of calls -/

namespace Value

/-- The operations on values, alone and with an operand. -/
inductive Operation where
  | promote
  | promoteToSigned
  | promoteToDouble
  | matchOrders
  | prefixed (op : PrefixOp)
  | infixed (op : InfixOp)
  | function (f : Function)
deriving DecidableEq

/-- The results of an operation on a receiver and, where it takes one, an operand. -/
def Operation.results (receiver operand : Value) : Operation → Except Fault (List Value)
  | promote => .ok [receiver.promote]
  | promoteToSigned => .ok [receiver.promoteToSigned]
  | promoteToDouble => .ok [receiver.promoteToDouble]
  | matchOrders => .ok [(receiver.matchOrders operand).left, (receiver.matchOrders operand).right]
  | prefixed op => (op.apply receiver).map fun v => [v]
  | infixed op => (op.apply receiver operand).map fun ascent => [ascent.result]
  | function f => (f.apply receiver).map fun v => [v]

/-- The integer lies in the bounds of its order; a double has none. -/
def InBounds : Value → Prop
  | int o n _ => o.low ≤ n ∧ n ≤ o.high
  | double _ => True

theorem inBounds (v : Value) : v.InBounds := by
  cases v with
  | int o n h => exact h
  | double x => trivial

/-- No integer of a value is too large for a double. -/
theorem order_double_or_isFinite (v : Value) : v.order = .double ∨ v.toDouble.isFinite = true := by
  cases v with
  | int o n h => exact Or.inr (Double.isFinite_ofInt h)
  | double x => exact Or.inl rfl

theorem Operation.blames_results (op : Operation) (v w : Value) : BlamesOperands (op.results v w) := by
  cases op with
  | promote | promoteToSigned | promoteToDouble | matchOrders => exact failsOnly_ok _
  | prefixed op => exact (op.blames_apply v).map _
  | infixed op => exact (op.blames_apply v w).map _
  | function f => exact (f.blames_apply v).map _

/-- A call on values at hand: an operation and the places of its receiver and its operand. -/
structure Call where
  operation : Operation
  receiver : Nat
  operand : Nat

/-- The values at hand, the newest last, and the faults of the calls so far. -/
structure Stock where
  values : List Value
  faults : List Fault

namespace Stock

/-- A call adds its results to the values at hand, or its fault to the faults. -/
def perform (s : Stock) (c : Call) : Stock :=
  match s.values[c.receiver]?, s.values[c.operand]? with
  | some v, some w =>
    match c.operation.results v w with
    | .ok results => { s with values := s.values ++ results }
    | .error fault => { s with faults := s.faults ++ [fault] }
  | _, _ => s

/-- All values are in their bounds and all faults blame operands. -/
structure Sound (s : Stock) : Prop where
  bounded : ∀ v ∈ s.values, v.InBounds
  blamed : ∀ fault ∈ s.faults, fault.BlamesOperands

theorem Sound.perform {s : Stock} (h : s.Sound) (c : Call) : (s.perform c).Sound := by
  refine ⟨fun v _ => v.inBounds, ?_⟩
  unfold Stock.perform
  split
  case h_1 v w _ _ =>
    split
    case h_1 => exact h.blamed
    case h_2 fault failed =>
      intro other mem
      rcases List.mem_append.mp mem with earlier | new
      · exact h.blamed other earlier
      · obtain rfl := List.mem_singleton.mp new
        exact c.operation.blames_results v w _ failed
  case h_2 => exact h.blamed

/-- Chains of calls keep a stock sound, whatever values and faults it has grown by. -/
theorem Sound.foldl {s : Stock} (h : s.Sound) (calls : List Call) : (calls.foldl Stock.perform s).Sound := by
  induction calls generalizing s with
  | nil => exact h
  | cons c calls ih => exact ih (h.perform c)

end Stock

/-- An operation on values gives values in the bounds of their orders, or blames the operands; no integer is
too large for the double that it is promoted to; and whatever calls follow on each other, on values at
hand, all the values that they give are in their bounds and all their faults blame operands. -/
theorem operations_stay_in_range :
    (∀ (op : Operation) (v w : Value),
      (∃ results, op.results v w = .ok results ∧ ∀ u ∈ results, u.InBounds) ∨
        ∃ fault, op.results v w = .error fault ∧
          (fault.kind = .arithmetic ∨ fault.kind = .integerNeeded)) ∧
      (∀ v : Value, v.order = .double ∨ v.toDouble.isFinite = true) ∧
      ∀ (values : List Value) (calls : List Call), (calls.foldl Stock.perform ⟨values, []⟩).Sound := by
  refine ⟨fun op v w => ?_, order_double_or_isFinite, fun values calls => ?_⟩
  · cases given : op.results v w with
    | ok results => exact Or.inl ⟨results, rfl, fun u _ => u.inBounds⟩
    | error fault => exact Or.inr ⟨fault, rfl, op.blames_results v w fault given⟩
  · have start : Stock.Sound ⟨values, []⟩ :=
      ⟨fun v _ => v.inBounds, fun _ mem => absurd mem List.not_mem_nil⟩
    exact start.foldl calls

end Value

end Reckoner
