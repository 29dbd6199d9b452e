import Reckoner.Proofs.Value.Matching
import Reckoner.Proofs.Value.Range

/-!
# Operators on integers

An operator on integers matches its operands before it looks at them in any other way, and refuses those
that are matched as doubles (`InfixOp.apply_of_doubles`).  So the refusal comes before the check of a
count of places.  That no other operator refuses anything in this way, powers included, is known from the
faults in which each of them may end (`InfixOp.blames_match`): a power takes its exponent as a count only
after both operands have been matched as integers, and the count of an integer is too large at worst.
-/

namespace Reckoner

/-- The computation fails because it needs integers. -/
def NeedsIntegers {α : Type} (r : Except Fault α) : Prop :=
  ∃ fault, r = .error fault ∧ fault.kind = .integerNeeded

theorem needsIntegers_error {α : Type} :
    NeedsIntegers (.error (.calculation .integerNeeded) : Except Fault α) := ⟨_, rfl, rfl⟩

/-- Integers are needed in vain only for the reason that is known. -/
theorem NeedsIntegers.reason {α : Type} {reason : Prop} {r : Except Fault α} (h : NeedsIntegers r)
    (blames : Value.Blames reason r) : reason := by
  obtain ⟨fault, failed, kind⟩ := h
  rcases blames fault failed with arithmetic | ⟨-, known⟩
  · rw [arithmetic] at kind
    exact absurd kind nofun
  · exact known

theorem Value.onIntegers_of_doubles
    {f : (order : IntOrder) → (m n : Int) → order.Fits n → Except Fault Value} {a b : Value}
    (doubles : (a.matchOrders b).order = .double) :
    onIntegers f a b = .error (.calculation .integerNeeded) := by
  unfold onIntegers
  split
  case h_1 met =>
    rw [met] at doubles
    exact absurd doubles nofun
  case h_2 => rfl

/-- An operator on integers refuses operands that are matched as doubles, whatever they are. -/
theorem InfixOp.apply_of_doubles {op : InfixOp} (only : op.integersOnly = true) {a b : Value}
    (doubles : (a.matchOrders b).order = .double) :
    op.apply a b = .error (.calculation .integerNeeded) := by
  have refused : apply.flat (.error (.calculation .integerNeeded)) =
      .error (.calculation .integerNeeded) := rfl
  cases op with
  | add | sub | mul | div | floorDiv | pow | rem => cases only
  | shiftLeft | shiftRight | rotateLeft | rotateRight | bitAnd | bitOr | bitXor =>
    exact (congrArg apply.flat (Value.onIntegers_of_doubles doubles)).trans refused

/-- How an operator treats doubles, given two operands. -/
structure RefusesDoubles (op : InfixOp) (a b : Value) : Prop where
  /-- Integers are needed in vain by the operators on integers, and of operands that are matched as
  doubles. -/
  needs_iff : NeedsIntegers (op.apply a b) ↔
    op.integersOnly = true ∧ (a.matchOrders b).order = .double
  /-- These are a double and any other value, and an integer beyond the signed orders and one at a signed
  order. -/
  doubles_iff : (a.matchOrders b).order = .double ↔ a.order = .double ∨ b.order = .double ∨
    ∃ o p m n hm hn, a = .int o m hm ∧ b = .int p n hn ∧ Value.Apart o p m n
  /-- Nothing else is asked about such operands, so the right one may also be no count of places. -/
  first : op.integersOnly = true → (a.matchOrders b).order = .double →
    op.apply a b = .error (.calculation .integerNeeded)
  /-- Any other fault is one of integer arithmetic, and then an operator on integers has matched its
  operands as integers. -/
  later : ∀ fault, op.apply a b = .error fault → fault.kind ≠ .integerNeeded →
    fault.kind = .arithmetic ∧ (op.integersOnly = true → (a.matchOrders b).order ≠ .double)

theorem InfixOp.refusesDoubles (op : InfixOp) (a b : Value) : RefusesDoubles op a b := by
  constructor
  · constructor
    · intro needs
      exact needs.reason (op.blames_match a b)
    · rintro ⟨only, doubles⟩
      rw [InfixOp.apply_of_doubles only doubles]
      exact needsIntegers_error
  · exact Value.order_matchOrders_eq_double_iff a b
  · intro only doubles
    exact InfixOp.apply_of_doubles only doubles
  · intro fault failed other
    constructor
    · exact (op.blames_match a b fault failed).resolve_right fun needed => other needed.1
    · intro only doubles
      rw [InfixOp.apply_of_doubles only doubles] at failed
      obtain rfl := Except.error.inj failed
      exact other rfl

/-- Of a single operand only its own order matters. -/
theorem PrefixOp.needsIntegers_iff (op : PrefixOp) (v : Value) :
    NeedsIntegers (op.apply v) ↔ op.integersOnly = true ∧ v.order = .double := by
  constructor
  · intro needs
    exact needs.reason (op.blames_order v)
  · rintro ⟨only, double⟩
    rcases v with ⟨o, n, h⟩ | x
    · exact absurd double nofun
    · cases op with
      | negate => cases only
      | complement => exact needsIntegers_error

/-- Operators on integers refuse doubles first of all, and all others never do. -/
theorem integersOnly_refuse_doubles :
    (∀ op a b, RefusesDoubles op a b) ∧
    ∀ (op : PrefixOp) (v : Value),
      NeedsIntegers (op.apply v) ↔ op.integersOnly = true ∧ v.order = .double := by
  constructor
  · exact InfixOp.refusesDoubles
  · exact PrefixOp.needsIntegers_iff

/-- An integer beyond the signed orders is no integer for a shift by a signed count, and this is said before
the count is found to be below zero. -/
example :
    let beyond := Value.int .u128 170141183460469231731687303715884105728 (by decide)
    let minus := Value.int .i64 (-1) (by decide)
    InfixOp.shiftLeft.apply beyond minus = .error (.calculation .integerNeeded) ∧
      minus.count = .error (.calculation .overflow) := by
  decide +kernel

end Reckoner
