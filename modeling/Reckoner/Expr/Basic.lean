import Reckoner.Expr.Operator
import Reckoner.Value.Literal

/-!
# Expressions

The tree of an expression. Explicit parentheses are nodes, so that a tree can be spelled as it was
written. A `blocked` node stands where there is nothing that could be evaluated; its evaluation reports
the fault it holds.
-/

namespace Reckoner

inductive Expr where
  | literal (text : String) (base : Base)
  | constant (constant : Constant)
  | reference (kind : ReferenceKind) (index : Int)
  | prefixed (op : PrefixOp) (operand : Expr)
  | infixed (left : Expr) (op : InfixOp) (right : Expr)
  | call (function : Function) (argument : Expr)
  | group (inner : Expr)
  | blocked (fault : Fault)
deriving DecidableEq

namespace Expr

/-- The tree with everything deeper than `room` levels blocked as too deep to be evaluated. -/
def limited : Nat → Expr → Expr
  | 0, _ => .blocked (.calculation .tooDeep)
  | room + 1, .prefixed op x => .prefixed op (limited room x)
  | room + 1, .infixed l op r => .infixed (limited room l) op (limited room r)
  | room + 1, .call f x => .call f (limited room x)
  | room + 1, .group x => .group (limited room x)
  | _ + 1, x => x

/-- The number of nodes on the longest way down. -/
def height : Expr → Nat
  | .literal .. | .constant _ | .reference .. | .blocked _ => 1
  | .prefixed _ x | .call _ x | .group x => x.height + 1
  | .infixed l _ r => max l.height r.height + 1

/-- A tree within the limit is left as it is. -/
theorem limited_of_height_le {room : Nat} {x : Expr} (h : x.height ≤ room) : x.limited room = x := by
  induction room generalizing x with
  | zero => cases x <;> simp [height] at h
  | succ room ih =>
    cases x <;> simp only [height, limited] at h ⊢
    case prefixed => rw [ih (by omega)]
    case infixed => rw [ih (by omega), ih (by omega)]
    case call => rw [ih (by omega)]
    case group => rw [ih (by omega)]

end Expr

end Reckoner
