import Linewise.Prompt
import Linewise.Step

/-! Sessions: a store together with its surroundings, which answer the requests of its lines. -/
namespace Linewise

/-- `Interpreter`: a store, the keywords it knows and its source of replies, with the files around
it. Unless another file system is named, the files are a tree. -/
structure Session (φ : Type := Files) where
  vocabulary : List Keyword := Keyword.all
  store : Store := {}
  prompt : Prompt := .script {}
  files : φ := by exact default

namespace Session

variable {φ : Type} [FileSystem φ]

/-- Answers the request of a line, if it has one. -/
def answer (s : Session φ) : Step → Session φ × Option String
  | .done outcome => ({ s with store := outcome.store }, outcome.output)
  | .ask name resume =>
    let (prompt, reply) := s.prompt.ask name
    let outcome := resume reply
    ({ s with store := outcome.store, prompt }, outcome.output)
  | .read path resume =>
    let outcome := resume (FileSystem.readText s.files path)
    ({ s with store := outcome.store }, outcome.output)
  | .write path contents resume =>
    let (files, done) := FileSystem.write s.files path contents.toUTF8
    let outcome := resume done
    ({ s with store := outcome.store, files }, outcome.output)

/-- `Interpreter.execute`: executes one line. -/
def execute (s : Session φ) (line : String) : Session φ × Option String :=
  s.answer (s.store.step s.vocabulary line)

/-- Executes lines one after the other and gathers what they show. -/
def executeAll (s : Session φ) : List String → Session φ × List String
  | [] => (s, [])
  | line :: more =>
    let (next, output) := s.execute line
    let (last, outputs) := next.executeAll more
    (last, output.toList ++ outputs)

/-- `Interpreter.run_script`: executes every line of a script. -/
def runScript (s : Session φ) (script : String) : Session φ × List String :=
  s.executeAll (Text.linesOf script)

/-- `execute` and then `print_output`: executes one line and shows its output, on a line of its own,
where the questions appear. -/
def perform (s : Session φ) (line : String) : Session φ :=
  match s.execute line with
  | (next, none) => next
  | (next, some text) => { next with prompt := next.prompt.shown (text ++ "\n") }

/-- A loop of `main`: performs lines one after the other up to the first that asks to leave, and
tells whether there was one. -/
def performUntilExit (s : Session φ) : List String → Session φ × Bool
  | [] => (s, false)
  | line :: more =>
    let next := s.perform line
    if next.store.leaving then (next, true) else next.performUntilExit more

end Session

end Linewise
