import Mathlib.Tactic.Common
import Reckoner.Expr.Evaluation

/-!
# Writing out the newest result

Referring to a result is the same as writing out the expression that gave it.  `inlined` puts an
expression in parentheses wherever a tree refers to the newest result; references that count back from
the newest result count one step less then, and those that count from the oldest stay as they are.

A reference is read at its place in the history (`lookup_outcome`), and a history with one more result
differs from the shorter one in a single place (`resultAt?_push`).  So each reference of the tree reads there
what its counterpart reads in the shorter history, or else neither finds a result
(`kinds_evaluate_reference`).  All other nodes evaluate their operands in the same order on both sides, and
two computations that agree up to the kind of fault still agree when they are continued alike
(`kinds_bind`).
-/

namespace Reckoner

/-- What a computation gives, as far as a caller can tell: its value, or the kind of its fault. -/
def kinds {α : Type} (r : Except Fault α) : Except FaultKind α := r.mapError Fault.kind

section Kinds

variable {α β : Type} {r r' : Except Fault α}

/-- Computations that agree go on alike. -/
theorem kinds_bind (first : kinds r = kinds r') {f g : α → Except Fault β}
    (second : ∀ a, kinds (f a) = kinds (g a)) : kinds (r.bind f) = kinds (r'.bind g) := by
  cases r with
  | error fault =>
    cases r' with
    | ok a => cases first
    | error fault' => exact congrArg Except.error (Except.error.inj first)
  | ok a =>
    cases r' with
    | error fault' => cases first
    | ok a' =>
      obtain rfl : a = a' := Except.ok.inj first
      exact second a

theorem eq_ok_iff_of_kinds (agree : kinds r = kinds r') (a : α) : r = .ok a ↔ r' = .ok a := by
  cases r with
  | error fault =>
    cases r' with
    | ok b => cases agree
    | error fault' => exact iff_of_false (fun h => nomatch h) (fun h => nomatch h)
  | ok b =>
    cases r' with
    | error fault' => cases agree
    | ok b' =>
      obtain rfl : b = b' := Except.ok.inj agree
      exact Iff.rfl

theorem exists_error_of_kinds (agree : kinds r = kinds r') {fault : Fault} (h : r = .error fault) :
    ∃ fault', r' = .error fault' ∧ fault'.kind = fault.kind := by
  subst h
  cases r' with
  | ok a => cases agree
  | error fault' => exact ⟨fault', rfl, (Except.error.inj agree).symm⟩

end Kinds

namespace History

/-- The result at a place of the history. -/
def resultAt? (history : History) (place : Int) : Option Value :=
  if place < 0 then none else history[place.toNat]?

theorem lookup_outcome (history : History) (kind : ReferenceKind) (index : Int) :
    (history.lookup kind index).outcome = match history.resultAt? (slot history.size kind index) with
      | some v => .ok v
      | none => .error (.calculation (.outOfHistory kind index history.size)) := by
  simp only [lookup, resultAt?]
  split
  · rfl
  · cases history[(slot history.size kind index).toNat]? with
    | none => rfl
    | some v => rfl

/-- One more result is found behind all others, which stay in their places. -/
theorem resultAt?_push (history : History) (v : Value) (place : Int) :
    resultAt? (history.push v) place = if place = history.size then some v else history.resultAt? place := by
  unfold resultAt?
  by_cases negative : place < 0
  · rw [if_pos negative, if_pos negative, if_neg (by omega)]
  · rw [if_neg negative, if_neg negative, Array.getElem?_push]
    by_cases last : place = history.size
    · rw [if_pos last, if_pos (by omega)]
    · rw [if_neg last, if_neg (by omega)]

theorem resultAt?_of_size_le {history : History} {place : Int} (h : history.size ≤ place) :
    history.resultAt? place = none := by
  rw [resultAt?, if_neg (by omega)]
  exact Array.getElem?_eq_none (by omega)

/-- References to one place are read alike, whatever they count from. -/
theorem kinds_lookup {history history' : History} {kind kind' : ReferenceKind} {index index' : Int}
    (same : history.resultAt? (slot history.size kind index) =
      history'.resultAt? (slot history'.size kind' index')) :
    kinds (history.lookup kind index).outcome = kinds (history'.lookup kind' index').outcome := by
  rw [lookup_outcome, lookup_outcome, same]
  cases history'.resultAt? (slot history'.size kind' index') with
  | none => rfl
  | some v => rfl

end History

namespace Expr

/-- The reference with the expression `e` in its place if it names the newest of `length + 1` results.
References further back from there count one step less. -/
def inlinedReference (length : Nat) (e : Expr) (kind : ReferenceKind) (index : Int) : Expr :=
  match kind with
  | .relative =>
    if index = 1 then .group e
    else if 2 ≤ index then .reference .relative (index - 1) else .reference .relative index
  | .absolute => if index = length then .group e else .reference .absolute index

/-- The tree with the expression `e`, in parentheses, in the place of the newest of `length + 1` results. -/
def inlined (length : Nat) (e : Expr) : Expr → Expr
  | .reference kind index => inlinedReference length e kind index
  | .prefixed op x => .prefixed op (inlined length e x)
  | .infixed l op r => .infixed (inlined length e l) op (inlined length e r)
  | .call f x => .call f (inlined length e x)
  | .group x => .group (inlined length e x)
  | .literal text base => .literal text base
  | .constant c => .constant c
  | .blocked fault => .blocked fault

section Inlined

variable {history : History} {e : Expr} {v : Value} (value : (e.evaluate history).outcome = .ok v)

include value

/-- What a reference reads in the longer history is read in the shorter one where the newest result is
written out. -/
theorem kinds_evaluate_reference (kind : ReferenceKind) (index : Int) :
    kinds ((reference kind index).evaluate (history.push v)).outcome =
      kinds ((inlinedReference history.size e kind index).evaluate history).outcome := by
  have size : (history.push v).size = history.size + 1 := Array.size_push v
  -- The newest result is the value of the expression; elsewhere the two references have one place.
  have newest (place : History.slot (history.size + 1) kind index = history.size) :
      kinds (History.lookup (history.push v) kind index).outcome = kinds ((group e).evaluate history).outcome := by
    rw [History.lookup_outcome, size, place, History.resultAt?_push, if_pos rfl]
    exact congrArg kinds value.symm
  have other {index' : Int} (place : History.slot (history.size + 1) kind index ≠ history.size)
      (same : history.resultAt? (History.slot (history.size + 1) kind index) =
        history.resultAt? (History.slot history.size kind index')) :
      kinds (History.lookup (history.push v) kind index).outcome =
        kinds (history.lookup kind index').outcome := by
    refine History.kinds_lookup ?_
    rw [size, History.resultAt?_push, if_neg place, same]
  cases kind with
  | absolute =>
    simp only [inlinedReference]
    by_cases last : index = history.size
    · rw [if_pos last]
      exact newest last
    · rw [if_neg last]
      exact other last rfl
  | relative =>
    simp only [inlinedReference]
    by_cases last : index = 1
    · rw [if_pos last]
      exact newest (by simp only [History.slot]; omega)
    · rw [if_neg last]
      by_cases back : 2 ≤ index
      · rw [if_pos back]
        refine other (by simp only [History.slot]; omega) (congrArg history.resultAt? ?_)
        simp only [History.slot]
        omega
      · rw [if_neg back]
        refine other (by simp only [History.slot]; omega) ?_
        rw [History.resultAt?_of_size_le (by simp only [History.slot]; omega),
          History.resultAt?_of_size_le (by simp only [History.slot]; omega)]

/-- A tree evaluates in the longer history as it does in the shorter one with the newest result written
out, up to the kind of a fault. -/
theorem kinds_evaluate_inlined (t : Expr) :
    kinds (t.evaluate (history.push v)).outcome =
      kinds ((inlined history.size e t).evaluate history).outcome := by
  induction t with
  | literal | constant | blocked => rfl
  | reference kind index => exact kinds_evaluate_reference value kind index
  | group x ih => exact ih
  | prefixed op x ih =>
    simp only [evaluate, inlined, Traced.bind_outcome]
    exact kinds_bind ih fun a => rfl
  | call f x ih =>
    simp only [evaluate, inlined, Traced.bind_outcome]
    exact kinds_bind ih fun a => rfl
  | infixed l op r ihl ihr =>
    simp only [evaluate, inlined, Traced.bind_outcome]
    exact kinds_bind ihl fun a => kinds_bind ihr fun b => rfl

/-- Referring to a recorded result is the same as writing out its expression: a tree has a value in the
history with the result of `e` recorded just if it has that value, with `e` written out, in the history
before, and a fault on one side is a fault of the same kind on the other. -/
theorem evaluate_inlined (t : Expr) :
    let recorded := (t.evaluate (history.push v)).outcome
    let written := ((inlined history.size e t).evaluate history).outcome
    (∀ w, recorded = .ok w ↔ written = .ok w) ∧
      (∀ fault, recorded = .error fault →
        ∃ fault', written = .error fault' ∧ fault'.kind = fault.kind) ∧
      ∀ fault, written = .error fault →
        ∃ fault', recorded = .error fault' ∧ fault'.kind = fault.kind := by
  have agree := kinds_evaluate_inlined value t
  exact ⟨eq_ok_iff_of_kinds agree, fun _ => exists_error_of_kinds agree,
    fun _ => exists_error_of_kinds agree.symm⟩

end Inlined

theorem evaluate_inlined_product :
    let history : History := #[.int .u64 5 (by decide), .int .u64 7 (by decide)]
    let e : Expr := .infixed (.reference .relative 1) .mul (.literal "2" .decimal)
    let v : Value := .int .u64 14 (by decide)
    let t : Expr := .infixed (.reference .relative 1) .sub
      (.infixed (.reference .relative 3) .mul (.reference .absolute 2))
    let written : Expr := .infixed (.group e) .sub (.infixed (.reference .relative 2) .mul (.group e))
    let far : Expr := .infixed (.reference .relative 4) .add t
    (e.evaluate history).outcome = .ok v ∧ inlined 2 e t = written ∧
      ((t.evaluate (history.push v)).outcome = .ok (.int .i64 (-56) (by decide)) ↔
        (written.evaluate history).outcome = .ok (.int .i64 (-56) (by decide))) ∧
      ∃ fault, ((inlined 2 e far).evaluate history).outcome = .error fault ∧
        fault.kind = .outOfHistory := by
  intro history e v t written far
  have value : (e.evaluate history).outcome = .ok v := by decide +kernel
  have missing : (far.evaluate (history.push v)).outcome =
      .error (.calculation (.outOfHistory .relative 4 3)) := by decide +kernel
  exact ⟨value, by decide +kernel, (evaluate_inlined value t).1 _,
    (evaluate_inlined value far).2.1 _ missing⟩

end Expr

end Reckoner
