import Reckoner.Proofs.Expr.Spelling

/-!
# Waiting operators

While a source is read, operators wait for their right operand.  When the next infix operator comes
after a complete operand `x`, the innermost waiting operators take `x` as long as they yield to the
newcomer.  An operator that yields may stand as the left operand of the newcomer, and one that does not
yield may have the newcomer's operation as its right operand (`yieldsTo_eq_true_iff`,
`yieldsTo_eq_false_iff`): of two operators exactly one may be bare below the other on the side where
they meet.

`edge` takes a tree apart into the operand at its right end and the operators that wait for it;
`foldAll_edge` puts it together again.  How deep a reading has gone is counted within
the innermost open parenthesis and `outside` it.
-/

namespace Reckoner

namespace Pending

/-- A waiting operator yields just if its operation may be the left operand of the newcomer. -/
theorem yieldsTo_eq_true_iff {op next : InfixOp} :
    yieldsTo op next = true ↔ next.AdmitsLeft op := by
  have tightest := InfixOp.rung_eq_six_iff op
  have tightest' := InfixOp.rung_eq_six_iff next
  have right := InfixOp.groupsRight_iff op
  simp only [yieldsTo, InfixOp.level_eq_rung_succ, InfixOp.AdmitsLeft, Bool.or_eq_true,
    Bool.and_eq_true, Bool.not_eq_true', decide_eq_true_eq, Nat.add_lt_add_iff_right,
    Nat.add_right_cancel_iff]
  grind

/-- A waiting operator stays just if the newcomer's operation may be its right operand. -/
theorem yieldsTo_eq_false_iff {op next : InfixOp} :
    yieldsTo op next = false ↔ op.AdmitsRight next := by
  have tightest := InfixOp.rung_eq_six_iff op
  have tightest' := InfixOp.rung_eq_six_iff next
  rw [← Bool.not_eq_true, yieldsTo_eq_true_iff]
  unfold InfixOp.AdmitsLeft InfixOp.AdmitsRight
  grind

/-- The operation of a waiting operator and its right operand. -/
def apply : Pending → Expr → Expr
  | .prefixed op, x => .prefixed op x
  | .infixed l op, x => .infixed l op x

/-- Does a waiting operator take its operand before `next` does? -/
def Yields (next : InfixOp) : Pending → Prop
  | .prefixed _ => True
  | .infixed _ op => yieldsTo op next = true

@[simp] theorem foldAll_nil (x : Expr) : foldAll x [] = x := rfl

@[simp] theorem foldAll_cons (x : Expr) (p : Pending) (ps : List Pending) :
    foldAll x (p :: ps) = foldAll (p.apply x) ps := by
  cases p <;> rfl

theorem foldAll_append (x : Expr) (ps qs : List Pending) :
    foldAll x (ps ++ qs) = foldAll (foldAll x ps) qs := by
  induction ps generalizing x with
  | nil => rfl
  | cons p ps ih => rw [List.cons_append, foldAll_cons, foldAll_cons, ih]

/-- The innermost operators that yield are folded before anything else is looked at. -/
theorem foldBefore_append {next : InfixOp} {ps : List Pending} (h : ∀ p ∈ ps, p.Yields next)
    (x : Expr) (qs : List Pending) :
    foldBefore next x (ps ++ qs) = foldBefore next (foldAll x ps) qs := by
  induction ps generalizing x with
  | nil => rfl
  | cons p ps ih =>
    have others := ih fun q hq => h q (List.mem_cons_of_mem _ hq)
    rw [List.cons_append, foldAll_cons]
    cases p with
    | prefixed op => exact others _
    | infixed l op =>
      have yields : yieldsTo op next = true := h _ List.mem_cons_self
      rw [foldBefore, if_pos yields]
      exact others _

/-- May an operation of `op` be the operand of the innermost waiting operator? -/
def Admits : List Pending → InfixOp → Prop
  | [], _ => True
  | .prefixed _ :: _, _ => False
  | .infixed _ outer :: _, op => outer.AdmitsRight op

/-- What admits an operation admits its left operand. -/
theorem Admits.of_admitsLeft {ps : List Pending} {op inner : InfixOp} (h : Admits ps op)
    (left : op.AdmitsLeft inner) : Admits ps inner := by
  match ps, h with
  | [], _ => trivial
  | .infixed _ outer :: _, h => exact InfixOp.AdmitsRight.of_admitsLeft h left

/-- What admits an operation is not folded before its operator. -/
theorem Admits.foldBefore_eq {ps : List Pending} {op : InfixOp} (h : Admits ps op) (x : Expr) :
    foldBefore op x ps = (x, ps) := by
  match ps, h with
  | [], _ => rfl
  | .infixed l outer :: ps, h =>
    have stays : yieldsTo outer op = false := yieldsTo_eq_false_iff.mpr h
    rw [foldBefore, stays, if_neg Bool.false_ne_true]

/-- What a waiting operator keeps when it takes its operand holds when all have done so. -/
theorem foldAll_induction {motive : Expr → List Pending → Prop}
    (step : ∀ {p x ps}, motive x (p :: ps) → motive (p.apply x) ps) {x : Expr} {ps : List Pending}
    (base : motive x ps) : motive (foldAll x ps) [] := by
  induction ps generalizing x with
  | nil => exact base
  | cons p ps ih =>
    rw [foldAll_cons]
    exact ih (step base)

/-- What a waiting operator that yields keeps when it takes its operand holds when the next operator has
to wait, and it may wait there. -/
theorem foldBefore_induction {next : InfixOp} {motive : Expr → List Pending → Prop}
    (step : ∀ {p x ps}, Yields next p → motive x (p :: ps) → motive (p.apply x) ps)
    {x l : Expr} {ps rest : List Pending} (folded : foldBefore next x ps = (l, rest))
    (base : motive x ps) : motive l rest ∧ Admits rest next := by
  induction ps generalizing x with
  | nil =>
    obtain ⟨rfl, rfl⟩ := Prod.mk.inj folded
    exact ⟨base, trivial⟩
  | cons p ps ih =>
    cases p with
    | prefixed op => exact ih folded (step (p := .prefixed op) trivial base)
    | infixed l' op =>
      unfold foldBefore at folded
      by_cases yields : yieldsTo op next = true
      · rw [if_pos yields] at folded
        exact ih folded (step (p := .infixed l' op) yields base)
      · rw [if_neg yields] at folded
        obtain ⟨rfl, rfl⟩ := Prod.mk.inj folded
        exact ⟨base, yieldsTo_eq_false_iff.mp (by simpa using yields)⟩

end Pending

namespace Expr

/-- The operand at the right end of a tree, and the operators that wait for it, innermost first. -/
def edge : Expr → Expr × List Pending
  | .prefixed op x => (x.edge.1, x.edge.2 ++ [.prefixed op])
  | .infixed l op r => (r.edge.1, r.edge.2 ++ [.infixed l op])
  | x => (x, [])

theorem foldAll_edge (t : Expr) : Pending.foldAll t.edge.1 t.edge.2 = t := by
  induction t with
  | literal | constant | reference | call | group | blocked => rfl
  | prefixed op x ih => rw [edge, Pending.foldAll_append, ih]; rfl
  | infixed l op r _ ih => rw [edge, Pending.foldAll_append, ih]; rfl

/-- All that waits at the right end of a left operand of `next` yields to `next`. -/
theorem yields_of_mem_edge {t : Expr} (ladder : t.Laddered) {next : InfixOp}
    (h : ∀ inner, t.bareInfix? = some inner → next.AdmitsLeft inner) :
    ∀ p ∈ t.edge.2, p.Yields next := by
  induction t with
  | literal | constant | reference | call | group | blocked =>
    exact fun p hp => absurd hp List.not_mem_nil
  | prefixed op x ih =>
    intro p hp
    rcases List.mem_append.mp hp with hp | hp
    · exact ih ladder.2 (fun inner bare => by rw [ladder.1] at bare; cases bare) p hp
    · obtain rfl := List.mem_singleton.mp hp
      trivial
  | infixed l op r _ ih =>
    obtain ⟨-, right, -, ladder⟩ := ladder
    have own : next.AdmitsLeft op := h op rfl
    intro p hp
    rcases List.mem_append.mp hp with hp | hp
    · exact ih ladder (fun inner bare => own.of_admitsRight (right inner bare)) p hp
    · obtain rfl := List.mem_singleton.mp hp
      exact Pending.yieldsTo_eq_true_iff.mpr own

end Expr

namespace ParseState

/-- How deep the reading was when the innermost parenthesis had just been opened. -/
def outside : List (Bracket × List Pending) → Nat
  | [] => 0
  | (_, ps) :: outer => ps.length + Bracket.depth + outside outer

@[simp] theorem outside_nil : outside [] = 0 := rfl

@[simp] theorem outside_cons (bracket : Bracket) (ps : List Pending)
    (outer : List (Bracket × List Pending)) :
    outside ((bracket, ps) :: outer) = ps.length + Bracket.depth + outside outer := rfl

theorem foldl_waiting (outer : List (Bracket × List Pending)) (n : Nat) :
    outer.foldl (fun n level => n + Bracket.depth + level.2.length) n = n + outside outer := by
  induction outer generalizing n with
  | nil => rfl
  | cons level outer ih =>
    obtain ⟨bracket, ps⟩ := level
    rw [List.foldl_cons, ih]
    simp only [outside_cons]
    omega

@[simp] theorem depth_operand (ps : List Pending) (outer : List (Bracket × List Pending)) :
    (operand ps outer).depth = ps.length + outside outer := foldl_waiting outer _

@[simp] theorem depth_argument (f : Function) (ps : List Pending)
    (outer : List (Bracket × List Pending)) :
    (argument f ps outer).depth = ps.length + outside outer := foldl_waiting outer _

@[simp] theorem depth_complete (x : Expr) (ps : List Pending)
    (outer : List (Bracket × List Pending)) :
    (complete x ps outer).depth = ps.length + outside outer := foldl_waiting outer _

end ParseState

end Reckoner
