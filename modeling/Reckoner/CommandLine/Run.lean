import Reckoner.CommandLine.Options
import Reckoner.Shell

/-!
# Running a command line

A run evaluates the expression of the command line once or, without an expression, answers the lines of
the input. Errors in the options end it before that.
-/

namespace Reckoner

namespace CommandLine

/-! ### Levels -/

/-- The name of a level in capitals, which takes the dotless i, the long s and the two joined forms of s
and t to plain letters. -/
def levelName (name : String) : String :=
  let raise (c : Char) : List Char :=
    if c.toNat = 0x131 then ['I']
    else if c.toNat = 0x17f then ['S']
    else if c.toNat = 0xfb05 ∨ c.toNat = 0xfb06 then ['S', 'T']
    else [c.toUpper]
  String.ofList (name.toList.flatMap raise)

/-- The least rank of events that are written, for the name of a level in any case. Unknown names stand
for warnings, and so does the name for no level at all. -/
def threshold (name : String) : Nat :=
  match Level.ofName? (levelName name) with
  | some .unset | none => Level.warning.rank
  | some level => level.rank

/-- What is wrong with the choice of a level: nothing was chosen, or a name was that is known and stands
for the plain layout of lines or for the table of layouts. -/
def levelFault? : Given → Option Misuse
  | none => some .nothingForLevel
  | some name =>
    if levelName name = "BASIC_FORMAT" then some .layoutForLevel
    else if levelName name = "_STYLES" then some .layoutsForLevel
    else none

/-! ### Tasks -/

/-- What is asked for once options and formats are understood. -/
inductive Task where
  | once (session : Session) (line : String)
  | shell (session : Session)

/-- What a command line comes to. -/
inductive Plan where
  | perform (settings : Settings) (task : Task)
  | help
  | refused (message : String)
  /-- A misuse in the level or the format. -/
  | broken (settings : Settings) (misuse : Misuse)

/-- The standard format, or the one of the command line. -/
def chosenFormat (s : Settings) : Except Fault Format :=
  match s.format with
  | some (some text) => Format.parse text
  | some none => .error (.misuse .nothingForFormat)
  | none => .ok .standard

/-- The plan for a command line. The words of an expression are joined by blanks. -/
def plan (limits : Limits) (words : List String) : Plan :=
  match readRequest words with
  | .error message => .refused message
  | .ok .help => .help
  | .ok (.run settings) =>
    match levelFault? settings.logLevel, chosenFormat settings with
    | some m, _ => .broken settings m
    | none, .error (.calculation e) => .refused e.message
    | none, .error (.misuse m) => .broken settings m
    | none, .ok format =>
      let session := Session.new limits format
      .perform settings <|
        if settings.expression.isEmpty then .shell session
        else .once session (" ".intercalate settings.expression)

/-- What a task gives out on an input, and how it ends. -/
def Task.run (prompt : Nat → String) (input : List String) : Task → List Emission × Ending
  | .once session line => Shell.once session line
  | .shell session => Shell.run prompt session input

/-- Is an event written by a run with these settings? -/
def Settings.writes (s : Settings) (e : Event) : Bool := threshold (s.logLevel.getD "") ≤ e.level.rank

/-- What a usage error shows last. -/
def usageError (message : String) : String := "freecalc: error: " ++ message

end CommandLine

end Reckoner
