import Linewise.CommandLine

/-! The program: it answers the requests of lines from the real files and the real terminal. What to
do is decided by the pure modules; this one only carries it out. -/
namespace Linewise.Main

/-- A system error as a file error. -/
def fileError (e : IO.Error) : FileError :=
  match e with
  | .noFileOrDirectory _ _ _ => .notFound
  | .inappropriateType _ 20 _ => .notDirectory
  | .inappropriateType _ 21 _ => .isDirectory
  | .invalidArgument _ 36 _ => .nameTooLong
  | other => .other (toString other)

/-- Carries out a file operation on a path that the system can be asked about. -/
def onFile {α : Type} (path : String) (action : IO α) : IO (Except FileError α) := do
  match Files.checked path with
  | .error e => return .error e
  | .ok _ =>
    match ← action.toBaseIO with
    | .ok a => return .ok a
    | .error e => return .error (fileError e)

/-- Reads the text of a file. -/
def readText (path : String) : IO (Except FileError String) := do
  match ← onFile path (IO.FS.readBinFile path) with
  | .error e => return .error e
  | .ok contents => return FileSystem.decode contents

/-- Asks for the value of a name on the terminal. -/
def ask (name : String) : IO (Option String) := do
  let output ← IO.getStdout
  output.putStr (question name)
  output.flush
  let input ← IO.getStdin
  let line ← try input.getLine catch _ => pure ""
  if line.isEmpty then return none
  return Terminal.reply? line.toUTF8.toList

/-- Answers the request of a line. -/
def answer : Step → IO Outcome
  | .done outcome => return outcome
  | .ask name resume => return resume (← ask name)
  | .read path resume => return resume (← readText path)
  | .write path contents resume => return resume (← onFile path (IO.FS.writeFile path contents))

/-- Executes one line and shows its output. -/
def perform (s : Store) (line : String) : IO Store := do
  let outcome ← answer (s.step Keyword.all line)
  if let some text := outcome.output then IO.println text
  return outcome.store

/-- Performs lines up to the first that asks to leave, and tells whether there was one. -/
def performUntilExit (s : Store) : List String → IO (Store × Bool)
  | [] => return (s, false)
  | line :: more => do
    let next ← perform s line
    if next.leaving then return (next, true) else performUntilExit next more

/-- Performs lines from the terminal up to the end of the input or the first that asks to leave. -/
partial def interact (s : Store) : IO Unit := do
  let output ← IO.getStdout
  output.putStr "dz> "
  output.flush
  let line ← (← IO.getStdin).getLine
  if line.isEmpty then return
  let next ← perform s line
  unless next.leaving do interact next

/-- Runs an invocation. -/
def run (i : CommandLine.Invocation) : IO UInt32 := do
  let start ← match i.state with
    | none => pure {}
    | some path => perform {} (CommandLine.loadLine path)
  match i.script with
  | none =>
    if i.commands.isEmpty then interact start
    else discard (performUntilExit start i.commands)
    return 0
  | some path =>
    match ← readText path with
    | .error e =>
      IO.eprint (CommandLine.scriptReport path e)
      return 1
    | .ok text =>
      let (next, left) ← performUntilExit start (Text.linesOf text)
      unless left do discard (performUntilExit next i.commands)
      return 0

end Linewise.Main

/-- Runs the program on its arguments. -/
def main (arguments : List String) : IO UInt32 :=
  match Linewise.CommandLine.read arguments with
  | .error e => do
    IO.eprint e.report
    return 1
  | .ok .usage => do
    IO.print Linewise.CommandLine.usage
    return 0
  | .ok (.run i) => Linewise.Main.run i
