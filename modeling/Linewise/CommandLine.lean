import Linewise.Session

/-! The command line: options, then commands. Options come first and end at the first argument that
is none, or at two hyphens; a help word among them asks for the usage. -/
namespace Linewise.CommandLine

/-- `Args`: what to run. -/
structure Invocation where
  /-- The script file. -/
  script : Option String := none
  /-- The state file to load first. -/
  state : Option String := none
  /-- Whether to log. -/
  verbose : Bool := false
  /-- The commands after the script. -/
  commands : List String := []
deriving DecidableEq

/-- What the arguments ask for. -/
inductive Request where
  | usage
  | run (invocation : Invocation)
deriving DecidableEq

/-- What is wrong with the arguments. -/
inductive UsageError where
  /-- There is no such option. -/
  | unrecognized (argument : String)
  /-- An option is the last argument but needs a value. -/
  | noValue (option : String)
  /-- An option is given twice. -/
  | duplicate (option value : String)
  /-- An option follows a help word. -/
  | afterHelp
deriving DecidableEq

/-- The name of the program in its messages. -/
def program : String := "dzlang"

/-- The wording of an argument error. -/
def UsageError.message : UsageError → String
  | .unrecognized argument => "Unrecognized argument: " ++ argument ++ "\n"
  | .noValue option => "No value provided for option '" ++ option ++ "'.\n"
  | .duplicate option value =>
    "Error parsing option '" ++ option ++ "' with value '" ++ value ++
      "': duplicate values provided\n"
  | .afterHelp => "Trailing arguments are not allowed after `help`."

/-- What is shown of an argument error. -/
def UsageError.report (e : UsageError) : String :=
  e.message ++ "\nRun " ++ program ++ " --help for more information.\n"

/-- The usage text. -/
def usage : String :=
  "Usage: " ++ program ++ " [-f <file>] [-s <state>] [-v] [commands...]\n" ++
  "\n" ++
  "Run DZLang programs, one command per line.\n" ++
  "\n" ++
  "Options:\n" ++
  "  -f, --file        run the commands of a script file\n" ++
  "  -s, --state       load a saved state file before running anything\n" ++
  "  -v, --verbose     log every dispatched command to stderr\n" ++
  "  --help, help      display usage information\n" ++
  "\n"

/-- The request of finished arguments. -/
def finish (help : Bool) (i : Invocation) : Request :=
  if help then .usage else .run i

/-- Reads the arguments. `help` tells whether a help word came before. -/
def readFrom (help : Bool) (i : Invocation) : List String → Except UsageError Request
  | [] => .ok (finish help i)
  | argument :: rest =>
    if argument = "--help" ∨ argument = "help" then readFrom true i rest
    else if argument = "--" then .ok (finish help { i with commands := rest })
    else if argument.toList.head? ≠ some '-' then
      .ok (finish help { i with commands := argument :: rest })
    else if help then .error .afterHelp
    else if argument = "-v" ∨ argument = "--verbose" then
      readFrom help { i with verbose := true } rest
    else if argument = "-f" ∨ argument = "--file" then
      match rest with
      | [] => .error (.noValue argument)
      | value :: more =>
        if i.script.isSome then .error (.duplicate argument value)
        else readFrom help { i with script := some value } more
    else if argument = "-s" ∨ argument = "--state" then
      match rest with
      | [] => .error (.noValue argument)
      | value :: more =>
        if i.state.isSome then .error (.duplicate argument value)
        else readFrom help { i with state := some value } more
    else .error (.unrecognized argument)

/-- `from_env`: reads the arguments of the program. -/
def read (arguments : List String) : Except UsageError Request :=
  readFrom false {} arguments

/-- What is shown of a script that cannot be read. -/
def scriptReport (path : String) (e : FileError) : String :=
  "Error: cannot read script " ++ path ++ "\n\nCaused by:\n    " ++ e.message ++ "\n"

/-- The line that loads a state file. It is an ordinary line, so only the first word of the path
counts. -/
def loadLine (path : String) : String :=
  Keyword.load.name ++ " " ++ path

/-- The end of a run: the exit code, what went to the standard error and the session. -/
structure Ended (φ : Type := Files) where
  code : UInt32 := 0
  errors : String := ""
  session : Session φ

variable {φ : Type} [FileSystem φ]

/-- The first part of `main`: loads the state file of an invocation. -/
def loadState (i : Invocation) (s : Session φ) : Session φ :=
  match i.state with
  | none => s
  | some path => s.perform (loadLine path)

/-- `main` with its arguments read: the state file is loaded, then the lines of the script are
performed and then the commands. A line that asks to leave ends the run, so that a script with such
a line leaves the commands out. -/
def run (i : Invocation) (start : Session φ) : Ended φ :=
  let s := loadState i start
  match i.script with
  | none => { session := (s.performUntilExit i.commands).1 }
  | some path =>
    match FileSystem.readText s.files path with
    | .error e => { code := 1, errors := scriptReport path e, session := s }
    | .ok text =>
      match s.performUntilExit (Text.linesOf text) with
      | (last, true) => { session := last }
      | (next, false) => { session := (next.performUntilExit i.commands).1 }

/-- `main`: runs the program on its arguments. -/
def runArguments (arguments : List String) (s : Session φ) : Ended φ :=
  match read arguments with
  | .error e => { code := 1, errors := e.report, session := s }
  | .ok .usage => { session := { s with prompt := s.prompt.shown usage } }
  | .ok (.run i) => run i s

end Linewise.CommandLine
