import Linewise.Proofs.SessionSteps

/-! Lines in arbitrary surroundings. A line meets its surroundings only through its one request, so
nothing is assumed of the source of replies and of the file system but that each has a memory of its
own: any prompt and any file system is covered, also those that fail in ways of their own. The
sessions with the whole vocabulary are one instance. -/
namespace Linewise

/-- A source of replies with the memory `π` and a file system with the memory `φ`. Both may change
their memory whenever they are asked. -/
structure Surroundings (π φ : Type) where
  /-- The reply to the question for a name; none if it is cancelled. -/
  ask : π → String → π × Option String
  /-- The text of a file. -/
  read : φ → String → φ × Except FileError String
  /-- Writes a text to a file. -/
  write : φ → String → String → φ × Except FileError Unit

/-- A store and what its surroundings remember. -/
structure Scene (π φ : Type) where
  store : Store
  prompt : π
  files : φ

namespace Surroundings

variable {π φ : Type} (w : Surroundings π φ)

/-- Answers the request of a line, if it has one. -/
def answer (s : Scene π φ) : Step → Scene π φ × Option String
  | .done outcome => ({ s with store := outcome.store }, outcome.output)
  | .ask name resume =>
    let (prompt, reply) := w.ask s.prompt name
    ({ s with store := (resume reply).store, prompt }, (resume reply).output)
  | .read path resume =>
    let (files, text) := w.read s.files path
    ({ s with store := (resume text).store, files }, (resume text).output)
  | .write path contents resume =>
    let (files, done) := w.write s.files path contents
    ({ s with store := (resume done).store, files }, (resume done).output)

/-- Executes one line. -/
def execute (s : Scene π φ) (line : String) : Scene π φ × Option String :=
  w.answer s (s.store.step Keyword.all line)

/-- Executes lines one after the other and notes what each of them shows. -/
def run (s : Scene π φ) : List String → Scene π φ × List (String × Option String)
  | [] => (s, [])
  | line :: more =>
    let (next, output) := w.execute s line
    let (last, notes) := run next more
    (last, (line, output) :: notes)

theorem run_cons (s : Scene π φ) (line : String) (more : List String) :
    w.run s (line :: more) =
      ((w.run (w.execute s line).1 more).1,
        (line, (w.execute s line).2) :: (w.run (w.execute s line).1 more).2) :=
  rfl

/-- What surroundings make of a step is one of its outcomes. -/
theorem answer_yields (s : Scene π φ) (step : Step) :
    step.Yields ⟨(w.answer s step).1.store, (w.answer s step).2⟩ := by
  cases step with
  | done outcome => exact .done outcome
  | ask name resume => exact .ask name resume _
  | read path resume => exact .read path resume _
  | write path contents resume => exact .write path contents resume _

/-- The prompt changes only by the one question that a step may have. -/
theorem answer_prompt (s : Scene π φ) (step : Step) :
    (w.answer s step).1.prompt =
      match step with
      | .ask name _ => (w.ask s.prompt name).1
      | _ => s.prompt := by
  cases step <;> rfl

/-- The surroundings that the sessions on a file system have. -/
def ofSession [FileSystem φ] : Surroundings Prompt φ where
  ask := Prompt.ask
  read files path := (files, FileSystem.readText files path)
  write files path contents := FileSystem.write files path contents.toUTF8

end Surroundings

namespace Session

variable {φ : Type} [FileSystem φ]

/-- The store, the prompt and the files of a session. -/
def scene (s : Session φ) : Scene Prompt φ :=
  ⟨s.store, s.prompt, s.files⟩

theorem answer_eq (s : Session φ) (step : Step) :
    Surroundings.ofSession.answer s.scene step = ((s.answer step).1.scene, (s.answer step).2) := by
  cases step <;> rfl

/-- A session with the whole vocabulary executes a line as its surroundings do. -/
theorem execute_eq {s : Session φ} (complete : s.vocabulary = Keyword.all) (line : String) :
    Surroundings.ofSession.execute s.scene line =
      ((s.execute line).1.scene, (s.execute line).2) := by
  rw [execute, complete]
  exact s.answer_eq _

/-- A session with the whole vocabulary runs as its surroundings do, and gathers the outputs of the
lines that have one. -/
theorem executeAll_eq {s : Session φ} (complete : s.vocabulary = Keyword.all)
    (lines : List String) :
    (s.executeAll lines).1.scene = (Surroundings.ofSession.run s.scene lines).1 ∧
      (s.executeAll lines).2 =
        (Surroundings.ofSession.run s.scene lines).2.flatMap fun note => note.2.toList := by
  induction lines generalizing s with
  | nil => exact ⟨rfl, rfl⟩
  | cons line more ih =>
    have still : (s.execute line).1.vocabulary = Keyword.all :=
      (execute_vocabulary s line).trans complete
    obtain ⟨last, outputs⟩ := ih still
    rw [Surroundings.run_cons, execute_eq complete]
    exact ⟨last, congrArg ((s.execute line).2.toList ++ ·) outputs⟩

end Session

end Linewise
