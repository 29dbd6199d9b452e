import Reckoner.CommandLine.Run
import Reckoner.Journal.Line
import Std.Time

/-!
# The program

The outer layer: it reads the command line and the input, gives out what the library emits, and stamps
the lines of the journal with the time.
-/

namespace Reckoner

namespace Program

/-- The instant at which the program looks at the clock. -/
def now : IO Instant := do
  let nanoseconds := (← Std.Time.Timestamp.now).toNanosecondsSinceUnixEpoch.val
  return { seconds := Int.fdiv nanoseconds 1000000000
           micros := (Int.fmod nanoseconds 1000000000 / 1000).toNat }

/-- Writes an event to the error output and to the file of the journal, if there is one. -/
def writeEvent (settings : CommandLine.Settings) (file : Option IO.FS.Handle) (e : Event) :
    IO Unit := do
  if settings.writes e then
    match (← now).text with
    | .ok time =>
      let line := Journal.line time e.entry ++ "\n"
      IO.eprint line
      if let some handle := file then
        handle.putStr line
        handle.flush
    | .error m => IO.eprintln m.message

def emit (settings : CommandLine.Settings) (file : Option IO.FS.Handle) : Emission → IO Unit
  | .output text => do
    IO.print text
    (← IO.getStdout).flush
  | .complaint text => IO.eprint text
  | .note e => writeEvent settings file e

/-- Ends with the code of a run, or with the message of a misuse. -/
def finish : Ending → IO UInt32
  | .exit code => return code.toUInt32
  | .broken m => do
    IO.eprintln m.message
    return 1

/-- A line without its line feed. -/
def withoutFeed (line : String) : String :=
  let cs := line.toList
  String.ofList (if cs.getLast? = some '\n' then cs.dropLast else cs)

/-- Answers the lines of the input as they come in, turn by turn as `Shell.run` does. -/
partial def converse (write : Emission → IO Unit) (prompt : Nat → String) (s : Session) : IO UInt32 := do
  write (.output (prompt s.size))
  let line ← (← IO.getStdin).getLine
  if line.isEmpty then
    Shell.farewell.1.forM write
    finish Shell.farewell.2
  else
    let (emissions, next) := Shell.turn s (withoutFeed line)
    emissions.forM write
    match next with
    | .error m => finish (.broken m)
    | .ok s' => converse write prompt s'

def perform (settings : CommandLine.Settings) (task : CommandLine.Task) : IO UInt32 := do
  let file ← match settings.logFile with
    | some path => if path.isEmpty then pure none else some <$> IO.FS.Handle.mk path .append
    | none => pure none
  let write := emit settings file
  match task with
  | .once session line =>
    let (emissions, ending) := Shell.once session line
    emissions.forM write
    finish ending
  | .shell session => converse write Shell.standardPrompt session

/-- How deep expressions may be here. -/
def limits : Limits := { depth := 1000, height := 1000 }

/-- The options in short. -/
def usage : String :=
  "usage: freecalc [-h] [-F FORMAT] [--log-level LOG_LEVEL] [--log-file LOG_FILE] ..."

end Program

end Reckoner

def main (words : List String) : IO UInt32 := do
  match Reckoner.CommandLine.plan Reckoner.Program.limits words with
  | .perform settings task => Reckoner.Program.perform settings task
  | .help =>
    IO.println Reckoner.Program.usage
    return 0
  | .refused message =>
    IO.eprintln Reckoner.Program.usage
    IO.eprintln (Reckoner.CommandLine.usageError message)
    return 2
  | .broken _ m => Reckoner.Program.finish (.broken m)
