import Reckoner.Journal.Timestamp
import Reckoner.Journal.Template
import Reckoner.Journal.Event

/-!
# Journal lines

A line of the journal holds the time, the level, the source and the message; a fault that goes with it
follows on the next line.
-/

namespace Reckoner

namespace Journal

/-- What a line of the journal is written from. -/
structure Record where
  time : Instant
  level : Level
  source : String
  template : String
  arguments : List Argument
  /-- The text of a fault. -/
  fault : Option String

/-- The last part of a fault: its kind, and its text unless that is empty. -/
def faultLine (text : String) : String :=
  if text.isEmpty then "ValueError" else "ValueError: " ++ text

/-- The time and an entry. -/
def line (time entry : String) : String := time ++ " " ++ entry

/-- The line of a record. -/
def Record.line (r : Record) : Except Misuse String := do
  let time ← r.time.text
  let message ← fillTemplate r.template r.arguments
  let first := Journal.line time (entry r.level.name r.source message)
  .ok (match r.fault with
    | some text => first ++ "\n" ++ faultLine text
    | none => first)

end Journal

end Reckoner
