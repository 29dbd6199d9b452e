import Reckoner.Text.Quoted
import Reckoner.Text.Numeric

/-!
# Options of the command line

Options come first; the first word that is none begins the expression, which takes up all the words
that are left. Long options may be shortened to any beginning that only one of them has, and take their
argument after an equals sign or as the next word; short ones also take it without a gap. Words that
look like options without being any are not recognised; negative numbers and words with a blank in them
do not look like options. Two dashes alone end the options and belong to the expression.
-/

namespace Reckoner

namespace CommandLine

inductive Switch where
  | help
  | format
  | logLevel
  | logFile
deriving DecidableEq

namespace Switch

/-- All spellings with their switches. -/
def spellings : List (String × Switch) :=
  [("-h", help), ("--help", help), ("-F", format), ("--format", format), ("--log-level", logLevel),
    ("--log-file", logFile)]

/-- The switch as messages name it. -/
def title (s : Switch) : String :=
  "/".intercalate ((spellings.filter (·.2 = s)).map (·.1))

def takesArgument : Switch → Bool
  | help => false
  | _ => true

/-- The switch with a spelling. -/
def ofSpelling? (spelling : String) : Option Switch := spellings.lookup spelling

end Switch

/-- What a word of the command line looks like. -/
inductive Word where
  | plain
  | ending
  /-- An option, with the argument that is joined to it by an equals sign or without a gap. -/
  | option (switch : Switch) (spelling : String) (joined : Option String)
  | unknown
deriving DecidableEq

/-- The parts before and after the first equals sign, if there is one. -/
def splitEquals (word : String) : Option (String × String) :=
  let cs := word.toList
  match cs.dropWhile (· ≠ '=') with
  | [] => none
  | _ :: value => some (String.ofList (cs.takeWhile (· ≠ '=')), String.ofList value)

/-- Is the word a minus sign and a decimal number, in digits of any script? One line feed may follow. -/
def isNegativeNumber (word : String) : Bool :=
  let isDecimal (c : Char) : Bool := (Text.decimalDigit? c).isSome
  let cs := word.toList
  match if cs.getLast? = some '\n' then cs.dropLast else cs with
  | '-' :: rest =>
    let whole := rest.takeWhile isDecimal
    match rest.drop whole.length with
    | [] => !whole.isEmpty
    | '.' :: places => !places.isEmpty && places.all isDecimal
    | _ => false
  | _ => false

/-- The options that a word with two dashes may be short for. -/
def longCandidates (word : String) : List (Switch × String × Option String) :=
  let (beginning, joined) := match splitEquals word with
    | some (beginning, value) => (beginning, some value)
    | none => (word, none)
  (Switch.spellings.filter fun (spelling, _) => beginning.toList.isPrefixOf spelling.toList).map
    fun (spelling, switch) => (switch, spelling, joined)

/-- The options that a word with one dash may stand for, its argument following without a gap. -/
def shortCandidates (word : String) : List (Switch × String × Option String) :=
  let letter := String.ofList (word.toList.take 2)
  let value := String.ofList (word.toList.drop 2)
  Switch.spellings.filterMap fun (spelling, switch) =>
    if spelling = letter then some (switch, spelling, some value)
    else if word.toList.isPrefixOf spelling.toList then some (switch, spelling, none)
    else none

/-- What a word with a leading dash that is no spelling of an option looks like. -/
def lookClosely (word : String) : Except String Word :=
  let candidates :=
    if "--".toList.isPrefixOf word.toList then longCandidates word else shortCandidates word
  match candidates with
  | [(switch, spelling, joined)] => .ok (.option switch spelling joined)
  | _ :: _ :: _ =>
    .error ("ambiguous option: " ++ word ++ " could match "
      ++ ", ".intercalate (candidates.map fun (_, spelling, _) => spelling))
  | [] =>
    if isNegativeNumber word || word.toList.contains ' ' then .ok .plain else .ok .unknown

/-- What a word looks like. -/
def look (word : String) : Except String Word :=
  if word = "--" then .ok .ending
  else if word.toList.head? ≠ some '-' then .ok .plain
  else
    match Switch.ofSpelling? word with
    | some switch => .ok (.option switch word none)
    | none =>
      if word.length = 1 then .ok .plain
      else
        let exact := (splitEquals word).bind fun (spelling, value) =>
          (Switch.ofSpelling? spelling).map fun switch => Word.option switch spelling (some value)
        match exact with
        | some option => .ok option
        | none => lookClosely word

/-- What all words look like; after two dashes alone every word is plain. -/
def lookAll : List String → Except String (List (String × Word))
  | [] => .ok []
  | word :: rest => do
    let seen ← look word
    if seen = .ending then .ok ((word, .ending) :: rest.map fun w => (w, .plain))
    else
      let others ← lookAll rest
      .ok ((word, seen) :: others)

/-- The argument of an option. Two dashes joined to an option are taken away, and nothing is left. -/
abbrev Given := Option String

def givenIn (joined : String) : Given := if joined = "--" then none else some joined

/-- The settings of a run. -/
structure Settings where
  format : Option Given
  logLevel : Given
  logFile : Given
  expression : List String
deriving DecidableEq

namespace Settings

def initial : Settings := ⟨none, some "WARNING", none, []⟩

def set (s : Settings) (value : Given) : Switch → Settings
  | .help => s
  | .format => { s with format := some value }
  | .logLevel => { s with logLevel := value }
  | .logFile => { s with logFile := value }

end Settings

/-- What a command line asks for. -/
inductive Request where
  | run (settings : Settings)
  | help
deriving DecidableEq

def missingArgument (switch : Switch) : String :=
  "argument " ++ switch.title ++ ": expected one argument"

def needlessArgument (switch : Switch) (value : String) : String :=
  "argument " ++ switch.title ++ ": ignored explicit argument " ++ Text.quoted value

/-- Reads the letters that follow the letter of help in one word: further letters of options, of which
the last one may take what is left, or want the next word for its argument and is given then. -/
def lettersAfterHelp : List Char → Except String (Option Switch)
  | [] => .error (needlessArgument .help "")
  | c :: rest =>
    match Switch.ofSpelling? (String.ofList ['-', c]), rest with
    | none, _ => .error (needlessArgument .help (String.ofList (c :: rest)))
    | some switch, [] => .ok (if switch.takesArgument then some switch else none)
    | some switch, d :: others =>
      if switch.takesArgument then .ok none else lettersAfterHelp (d :: others)

/-- What an option without an argument comes to: the switch that wants the next word, if any. -/
def helpRequest (spelling : String) : Option String → Except String (Option Switch)
  | none => .ok none
  | some joined =>
    if spelling.length = 2 then lettersAfterHelp joined.toList
    else .error (needlessArgument .help joined)

/-- The next word, if it is plain, and the words after it. -/
def nextPlain (wanting : Switch) : List (String × Word) → Except String (String × List (String × Word))
  | (value, .plain) :: rest => .ok (value, rest)
  | _ => .error (missingArgument wanting)

/-- Takes options until the expression begins, and gives the words that were not recognised. -/
def takeOptions (s : Settings) (unknown : List String) :
    List (String × Word) → Except String (Request × List String)
  | [] => .ok (.run s, unknown)
  | (word, seen) :: rest =>
    match seen with
    | .unknown => takeOptions s (unknown ++ [word]) rest
    | .plain | .ending => .ok (.run { s with expression := word :: rest.map (·.1) }, unknown)
    | .option .help spelling joined => do
      if let some wanting ← helpRequest spelling joined then
        let _ ← nextPlain wanting rest
      .ok (.help, unknown)
    | .option switch _ (some joined) => takeOptions (s.set (givenIn joined) switch) unknown rest
    | .option switch _ none =>
      match rest with
      | (value, .plain) :: rest => takeOptions (s.set (some value) switch) unknown rest
      | _ => .error (missingArgument switch)

/-- What the words of a command line ask for, or why they are refused. -/
def readRequest (words : List String) : Except String Request := do
  match ← takeOptions .initial [] (← lookAll words) with
  | (.help, _) => .ok .help
  | (.run s, []) => .ok (.run s)
  | (.run _, unknown) => .error ("unrecognized arguments: " ++ " ".intercalate unknown)

end CommandLine

end Reckoner
