import Reckoner.Expr.Evaluation

/-!
# What computations record

Computations that report events form a lawful monad, so that a computation may be taken apart where it
suits a proof.  The events of its parts come one after the other, and `recordings` takes from them the
values that were recorded.  An evaluation reports what it looks up and which orders were too narrow, but
it records nothing (`recordings_evaluate`).
-/

namespace Reckoner

namespace Traced

variable {α β : Type}

theorem bind_of_ok {x : Traced α} {a : α} (h : x.outcome = .ok a) (f : α → Traced β) :
    x >>= f = ⟨(f a).outcome, x.events ++ (f a).events⟩ := by
  change Traced.bind x f = _
  simp only [Traced.bind, h]

theorem bind_of_error {x : Traced α} {fault : Fault} (h : x.outcome = .error fault)
    (f : α → Traced β) : x >>= f = ⟨.error fault, x.events⟩ := by
  change Traced.bind x f = _
  simp only [Traced.bind, h]

/-- A computation in two parts gives what the second part gives from the result of the first. -/
theorem outcome_bind_eq_ok_iff {x : Traced α} {f : α → Traced β} {b : β} :
    (x >>= f).outcome = .ok b ↔ ∃ a, x.outcome = .ok a ∧ (f a).outcome = .ok b := by
  rw [bind_outcome]
  cases x.outcome with
  | error fault =>
    constructor
    · intro h
      cases h
    · rintro ⟨_, h, _⟩
      cases h
  | ok a =>
    constructor
    · intro h
      exact ⟨a, rfl, h⟩
    · rintro ⟨_, h, second⟩
      cases h
      exact second

theorem pure_events (a : α) : (pure a : Traced α).events = [] := rfl

protected theorem pure_bind (a : α) (f : α → Traced β) : pure a >>= f = f a := by
  rw [bind_of_ok (pure_outcome a), pure_events, List.nil_append]

protected theorem bind_assoc {γ : Type} (x : Traced α) (f : α → Traced β) (g : β → Traced γ) :
    x >>= f >>= g = x >>= fun a => f a >>= g := by
  cases first : x.outcome with
  | error fault => rw [bind_of_error first, bind_of_error first, bind_of_error rfl]
  | ok a =>
    rw [bind_of_ok first, bind_of_ok first]
    cases second : (f a).outcome with
    | error fault => rw [bind_of_error second, bind_of_error rfl]
    | ok b => rw [bind_of_ok second, bind_of_ok rfl, List.append_assoc]

protected theorem id_map (x : Traced α) : id <$> x = x := by
  change x >>= pure = x
  cases first : x.outcome with
  | error fault => rw [bind_of_error first, ← first]
  | ok a => rw [bind_of_ok first, pure_events, List.append_nil, pure_outcome, ← first]

instance : LawfulMonad Traced := .mk' Traced Traced.id_map Traced.pure_bind Traced.bind_assoc

end Traced

/-! ## What is recorded -/

/-- The values that events tell to have been recorded. -/
def recordings (events : List Event) : List Value :=
  events.filterMap fun
    | .recorded _ _ v => some v
    | _ => none

theorem recordings_append (events more : List Event) :
    recordings (events ++ more) = recordings events ++ recordings more :=
  List.filterMap_append

/-- A computation in steps that record nothing records nothing. -/
theorem recordings_bind {α β : Type} {x : Traced α} {f : α → Traced β}
    (first : recordings x.events = []) (second : ∀ a, recordings (f a).events = []) :
    recordings (x >>= f).events = [] := by
  cases taken : x.outcome with
  | error fault =>
    rw [Traced.bind_of_error taken]
    exact first
  | ok a =>
    rw [Traced.bind_of_ok taken, recordings_append, first, second a]
    rfl

theorem recordings_lookup (history : History) (kind : ReferenceKind) (index : Int) :
    recordings (history.lookup kind index).events = [] := by
  simp only [History.lookup]
  split
  · rfl
  · split
    · rfl
    · rfl

theorem recordings_applyTraced (op : InfixOp) (a b : Value) :
    recordings (op.applyTraced a b).events = [] := by
  unfold InfixOp.applyTraced
  split
  · simp [recordings]
  · rfl

/-- Evaluation records nothing. -/
theorem recordings_evaluate (history : History) (x : Expr) :
    recordings (x.evaluate history).events = [] := by
  induction x with
  | literal | constant | blocked => rfl
  | reference kind index => exact recordings_lookup history kind index
  | prefixed op x ih => exact recordings_bind ih fun _ => rfl
  | infixed l op r ihl ihr =>
    exact recordings_bind ihl fun a => recordings_bind ihr fun b => recordings_applyTraced op a b
  | call f x ih => exact recordings_bind ih fun _ => rfl
  | group x ih => exact ih

end Reckoner
