import Reckoner.Session

/-!
# The shell

The shell reads lines and answers each against one session, with a prompt before each that is made from the
number of results so far. What it does is a list of emissions: text for the output, text for the error
output, and events for the journal, in the order in which they happen. A blank line is passed over; a
misuse ends the shell.
-/

namespace Reckoner

/-- One thing that the program gives out. -/
inductive Emission where
  | output (text : String)
  | complaint (text : String)
  | note (event : Event)
deriving DecidableEq

/-- What became of a line. -/
inductive Verdict where
  | answered
  | refused
  | broken (misuse : Misuse)
deriving DecidableEq

/-- The reply to a line: the session after it, what is given out, and what became of it. -/
structure Reply where
  session : Session
  emissions : List Emission
  verdict : Verdict

/-- How a run ends. -/
inductive Ending where
  | exit (code : Nat)
  | broken (misuse : Misuse)
deriving DecidableEq

namespace Shell

/-- Answers one line. -/
def reply (s : Session) (line : String) : Reply :=
  let r := s.answer line
  let notes := r.events.map Emission.note
  match r.outcome with
  | .ok (shown, next) => ⟨next, notes ++ [.output (shown ++ "\n")], .answered⟩
  | .error (.calculation e) =>
    ⟨s, notes ++ [.note (.failed line e), .complaint (e.describe line ++ "\n")], .refused⟩
  | .error (.misuse m) => ⟨s, notes, .broken m⟩

/-- Answers one line and ends. -/
def once (s : Session) (line : String) : List Emission × Ending :=
  let r := reply s line
  (r.emissions, match r.verdict with
    | .answered => .exit 0
    | .refused => .exit 1
    | .broken m => .broken m)

/-- Is there nothing but blanks in the line? -/
def isEmptyLine (line : String) : Bool := line.toList.all Text.isBlank

/-- The turn of a line: what is given out for it, and the session to go on with or the misuse that ends
the shell. -/
def turn (s : Session) (line : String) : List Emission × Except Misuse Session :=
  if isEmptyLine line then ([], .ok s)
  else
    let r := reply s line
    (r.emissions, match r.verdict with
      | .broken m => .error m
      | _ => .ok r.session)

/-- What is given out at the end of the lines, and how the shell ends there. -/
def farewell : List Emission × Ending := ([.output "\n"], .exit 0)

/-- Answers lines until they end. The prompt before a line is made from the number of results. -/
def run (prompt : Nat → String) (s : Session) : List String → List Emission × Ending
  | [] => (.output (prompt s.size) :: farewell.1, farewell.2)
  | line :: rest =>
    let (emissions, next) := turn s line
    match next with
    | .error m => (.output (prompt s.size) :: emissions, .broken m)
    | .ok s' =>
      let (more, ending) := run prompt s' rest
      (.output (prompt s.size) :: emissions ++ more, ending)

/-- The prompt of a shell that is given no other. -/
def standardPrompt (results : Nat) : String := "[" ++ toString results ++ "]: "

/-- The lines of an input; each ends at a line feed, and the last one may end without. -/
def lines (input : String) : List String :=
  let pieces := (input.toList.splitOn '\n').map String.ofList
  if pieces.getLast? = some "" then pieces.dropLast else pieces

end Shell

end Reckoner
