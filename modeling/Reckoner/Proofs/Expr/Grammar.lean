import Reckoner.Proofs.Expr.Conservation

/-!
# The grammar of expressions

An expression is a row of signed operands with an infix operator between any two, and an operand is a
number, a reference, a constant, a call or a group.  `Derives` says this of rows of words.  The ladder of
operators has no part in it: it decides how the operands of a row are grouped, and every row can be
grouped.

A row is `Viable` if it begins an expression.  While a row is read, what is of interest is its part within
the innermost open parenthesis: either that part is an expression, or it `Leads` to one, so that any
signed operand may come next.  `Inside` says it of that part, and of the parts around it that they lead up
to their parentheses.  Operands, operators and parentheses keep this form (`Inside.operand`,
`Inside.append`, `Inside.enter`, `Inside.leave`), and whatever has it is viable, because the open
parentheses can be closed one after the other (`Inside.viable`).
-/

namespace Reckoner

open Token (Word IsWord)

/-- The kinds of phrase: operands, operands behind signs, and rows of those with operators between. -/
inductive Phrase where
  | operand
  | signed
  | expression
deriving DecidableEq

/-- The rows of words that are phrases of a kind. -/
inductive Derives : Phrase → List Word → Prop where
  | number {text : String} (word : IsWord .number text) : Derives .operand [(.number, text)]
  | reference {text : String} (word : IsWord .history text) : Derives .operand [(.history, text)]
  | constant {text : String} {c : Constant} (named : Constant.ofName? text = some c) :
      Derives .operand [(.name, text)]
  | call {f : Function} {ws : List Word} (argument : Derives .expression ws) :
      Derives .operand ((.name, f.name) :: (.opening, "(") :: (ws ++ [(.closing, ")")]))
  | group {ws : List Word} (inner : Derives .expression ws) :
      Derives .operand ((.opening, "(") :: (ws ++ [(.closing, ")")]))
  | plain {ws : List Word} (operand : Derives .operand ws) : Derives .signed ws
  | sign {op : PrefixOp} {ws : List Word} (operand : Derives .signed ws) :
      Derives .signed ((.operator, op.spelling) :: ws)
  | single {ws : List Word} (operand : Derives .signed ws) : Derives .expression ws
  | operation {op : InfixOp} {ws vs : List Word} (left : Derives .expression ws)
      (right : Derives .signed vs) : Derives .expression (ws ++ (.operator, op.spelling) :: vs)

/-- The words of a phrase are words of the language, so every phrase stands in some source. -/
theorem Derives.isWord {phrase : Phrase} {ws : List Word} (h : Derives phrase ws) :
    ∀ w ∈ ws, IsWord w.1 w.2 := by
  induction h with
  | number word | reference word => exact fun w hw => List.mem_singleton.mp hw ▸ word
  | constant named =>
    intro w hw
    obtain rfl := List.mem_singleton.mp hw
    exact Constant.isWord_of_ofName? named
  | @call f ws _ ih =>
    intro w hw
    simp only [List.mem_append, List.mem_cons, List.not_mem_nil, or_false] at hw
    rcases hw with rfl | rfl | hw | rfl
    · exact f.isWord_name
    · exact Token.isWord_opening
    · exact ih w hw
    · exact Token.isWord_closing
  | group _ ih =>
    intro w hw
    simp only [List.mem_append, List.mem_cons, List.not_mem_nil, or_false] at hw
    rcases hw with rfl | hw | rfl
    · exact Token.isWord_opening
    · exact ih w hw
    · exact Token.isWord_closing
  | plain _ ih | single _ ih => exact ih
  | @sign op _ _ ih =>
    intro w hw
    rcases List.mem_cons.mp hw with rfl | hw
    · exact op.isWord_spelling
    · exact ih w hw
  | @operation op _ _ _ _ ihl ihr =>
    intro w hw
    simp only [List.mem_append, List.mem_cons] at hw
    rcases hw with hw | rfl | hw
    · exact ihl w hw
    · exact op.isWord_spelling
    · exact ihr w hw

/-- An expression can be written down, and its words are scanned back. -/
theorem Derives.exists_source {phrase : Phrase} {ws : List Word} (h : Derives phrase ws) :
    ∃ source tokens, Token.Scans 0 (String.toList source) tokens ∧ tokens.map Token.word = ws := by
  obtain ⟨tokens, scanned, words⟩ := Token.exists_scans_spaced h.isWord 0
  exact ⟨Token.spaced ws, tokens, scanned, words⟩

/-- A parenthesis with an expression in it is an operand. -/
theorem derives_bracket (bracket : Bracket) {ws : List Word} (inner : Derives .expression ws) :
    Derives .operand (bracket.spelling ++ (ws ++ [(.closing, ")")])) := by
  cases bracket with
  | group => exact .group inner
  | call f => exact .call inner

/-- The row begins an expression. -/
def Viable (ws : List Word) : Prop := ∃ rest, Derives .expression (ws ++ rest)

theorem Viable.of_append {ws vs : List Word} (h : Viable (ws ++ vs)) : Viable ws := by
  obtain ⟨rest, whole⟩ := h
  rw [List.append_assoc] at whole
  exact ⟨vs ++ rest, whole⟩

/-- Any signed operand makes an expression of the row. -/
def Leads (ws : List Word) : Prop := ∀ vs, Derives .signed vs → Derives .expression (ws ++ vs)

theorem leads_nil : Leads [] := fun _ => .single

theorem Leads.sign {ws : List Word} (h : Leads ws) (op : PrefixOp) :
    Leads (ws ++ [(.operator, op.spelling)]) := by
  intro vs operand
  rw [List.append_assoc]
  exact h _ (.sign operand)

theorem Derives.leads {ws : List Word} (h : Derives .expression ws) (op : InfixOp) :
    Leads (ws ++ [(.operator, op.spelling)]) := by
  intro vs operand
  rw [List.append_assoc]
  exact .operation h operand

/-- The part of the row within the innermost of some open parentheses is as said, and the parts around
lead up to their parentheses. -/
def Inside (part : List Word → Prop) : List Bracket → List Word → Prop
  | [], ws => part ws
  | bracket :: around, ws =>
    ∃ us vs, ws = us ++ (bracket.spelling ++ vs) ∧ Inside Leads around us ∧ part vs

namespace Inside

variable {around : List Bracket} {ws : List Word}

/-- What is said of the innermost part may change with words that are put to the end. -/
theorem append {part part' : List Word → Prop} {vs : List Word} (h : Inside part around ws)
    (grows : ∀ us, part us → part' (us ++ vs)) : Inside part' around (ws ++ vs) := by
  cases around with
  | nil => exact grows ws h
  | cons bracket around =>
    obtain ⟨us, inner, rfl, outside, holds⟩ := h
    refine ⟨us, inner ++ vs, ?_, outside, grows inner holds⟩
    rw [List.append_assoc, List.append_assoc]

theorem enter (h : Inside Leads around ws) (bracket : Bracket) :
    Inside Leads (bracket :: around) (ws ++ bracket.spelling) :=
  ⟨ws, [], by rw [List.append_nil], h, leads_nil⟩

theorem operand {vs : List Word} (h : Inside Leads around ws) (operand : Derives .operand vs) :
    Inside (Derives .expression) around (ws ++ vs) :=
  h.append fun _ leads => leads vs (.plain operand)

theorem leave {bracket : Bracket} (h : Inside (Derives .expression) (bracket :: around) ws) :
    Inside (Derives .expression) around (ws ++ [(.closing, ")")]) := by
  obtain ⟨us, vs, rfl, outside, inner⟩ := h
  rw [List.append_assoc, List.append_assoc]
  exact outside.operand (derives_bracket bracket inner)

/-- Open parentheses can be closed one after the other. -/
theorem viable (h : Inside (Derives .expression) around ws) : Viable ws := by
  induction around generalizing ws with
  | nil => exact ⟨[], by rwa [List.append_nil]⟩
  | cons bracket around ih => exact (ih h.leave).of_append

theorem viable_of_leads (h : Inside Leads around ws) : Viable ws := by
  have digit : IsWord .number "0" := by decide
  exact (h.operand (.number digit)).viable.of_append

end Inside

end Reckoner
