import Reckoner.Expr.Operator

/-!
# The vocabulary and its ladder

Operators and functions are found by their spellings and by nothing else (`ofSpelling?_eq_some_iff`,
`ofName?_eq_some_iff`); only the constant `pi` has a second name.

Infix operators stand on a ladder of seven rungs.  An operation is admitted as a bare operand of an
operator if it stands on a tighter rung, and on the same rung only to the left, or for powers only to
the right.  What is admitted by an admitted operation on the side where they meet is admitted itself
(`AdmitsLeft.of_admitsRight`, `AdmitsRight.of_admitsLeft`).
-/

namespace Reckoner

namespace PrefixOp

theorem ofSpelling?_eq_some_iff {s : String} {op : PrefixOp} :
    ofSpelling? s = some op ↔ op.spelling = s := by
  constructor
  · intro h
    simpa using List.find?_some h
  · rintro rfl
    cases op <;> rfl

end PrefixOp

namespace InfixOp

theorem ofSpelling?_eq_some_iff {s : String} {op : InfixOp} :
    ofSpelling? s = some op ↔ op.spelling = s := by
  constructor
  · intro h
    simpa using List.find?_some h
  · rintro rfl
    cases op <;> rfl

/-- The ladder of infix operators, from the loosest rung to the tightest. -/
def ladder : List (List InfixOp) :=
  [[add, sub], [bitOr], [bitXor], [bitAnd], [shiftLeft, shiftRight, rotateLeft, rotateRight],
    [mul, div, floorDiv, rem], [pow]]

/-- The rung that an operator stands on, counted from the loosest. -/
def rung (op : InfixOp) : Nat := ladder.findIdx (·.contains op)

/-- May an operation `inner` be the left operand of `op` without parentheses? -/
def AdmitsLeft (op inner : InfixOp) : Prop :=
  op.rung < inner.rung ∨ (op.rung = inner.rung ∧ op ≠ pow)

/-- May an operation `inner` be the right operand of `op` without parentheses? -/
def AdmitsRight (op inner : InfixOp) : Prop :=
  op.rung < inner.rung ∨ (op.rung = inner.rung ∧ op = pow)

instance (op inner : InfixOp) : Decidable (op.AdmitsLeft inner) :=
  inferInstanceAs (Decidable (_ ∨ _))

instance (op inner : InfixOp) : Decidable (op.AdmitsRight inner) :=
  inferInstanceAs (Decidable (_ ∨ _))

/-- Levels are rungs counted from one. -/
theorem level_eq_rung_succ (op : InfixOp) : op.level = op.rung + 1 := by
  cases op <;> decide

/-- Powers have the tightest rung for themselves. -/
theorem rung_eq_six_iff (op : InfixOp) : op.rung = 6 ↔ op = pow := by
  cases op <;> decide

theorem groupsRight_iff (op : InfixOp) : op.groupsRight = true ↔ op = pow := by
  cases op <;> decide

/-- A right operand within a left operand may be a left operand itself. -/
theorem AdmitsLeft.of_admitsRight {next op inner : InfixOp} (h : next.AdmitsLeft op)
    (h' : op.AdmitsRight inner) : next.AdmitsLeft inner := by
  have tightest := rung_eq_six_iff next
  have tightest' := rung_eq_six_iff op
  unfold AdmitsLeft at h ⊢
  unfold AdmitsRight at h'
  grind

/-- A left operand within a right operand may be a right operand itself. -/
theorem AdmitsRight.of_admitsLeft {op next inner : InfixOp} (h : op.AdmitsRight next)
    (h' : next.AdmitsLeft inner) : op.AdmitsRight inner := by
  have tightest := rung_eq_six_iff op
  have tightest' := rung_eq_six_iff next
  unfold AdmitsRight at h ⊢
  unfold AdmitsLeft at h'
  grind

end InfixOp

namespace Function

theorem ofName?_eq_some_iff {s : String} {f : Function} : ofName? s = some f ↔ f.name = s := by
  constructor
  · intro h
    simpa using List.find?_some h
  · rintro rfl
    cases f <;> rfl

end Function

namespace Constant

theorem ofName?_name (c : Constant) : ofName? c.name = some c := by
  cases c <;> rfl

/-- The names of functions are no names of constants. -/
theorem ofName?_function_name (f : Function) : ofName? f.name = none := by
  cases f <;> rfl

/-- A constant is found by its name, and `pi` by the Greek letter too. -/
theorem name_of_ofName? {s : String} {c : Constant} (h : ofName? s = some c) :
    c.name = if s = "π" then "pi" else s := by
  unfold ofName? at h
  split at h
  case isTrue isE =>
    subst isE
    obtain rfl := Option.some.inj h
    decide
  case isFalse =>
    split at h
    case isTrue isPi =>
      obtain rfl := Option.some.inj h
      rcases isPi with rfl | rfl <;> decide
    case isFalse => cases h

end Constant

end Reckoner
