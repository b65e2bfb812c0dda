import Linewise.CommandLine
import Linewise.Proofs.PromptSimulation

/-! What a run from the command line shows. Questions and outputs stand on one page, in the order of
the lines. A line does not look at the page, so the page is put together from what each line writes
on an empty one. The script and the commands have a loop each, which run as one over all lines, and
the run ends after the first line that asks to leave. -/
namespace Linewise

/-- The lines up to and including the first whose first word asks to leave. -/
def untilExit : List String → List String
  | [] => []
  | line :: more =>
    if (Text.wordsOf line).head? = some Keyword.exit.name then [line] else line :: untilExit more

theorem untilExit_eq_self {lines : List String}
    (stays : ∀ line ∈ lines, (Text.wordsOf line).head? ≠ some Keyword.exit.name) :
    untilExit lines = lines := by
  induction lines with
  | nil => rfl
  | cons line more ih =>
    obtain ⟨here, rest⟩ := List.forall_mem_cons.mp stays
    rw [untilExit, if_neg here, ih rest]

namespace Session

variable {φ : Type}

/-- What stands on the terminal of a session. -/
def page (s : Session φ) : ByteArray :=
  match s.prompt with
  | .terminal t => t.written
  | .script _ => .empty

/-- The session with another page on its terminal. -/
def onPage (s : Session φ) (page : ByteArray) : Session φ :=
  match s.prompt with
  | .terminal t => { s with prompt := .terminal { t with written := page } }
  | .script _ => s

/-- For each line, what is written while it is executed, and its output. -/
def record [FileSystem φ] (s : Session φ) : List String → List (ByteArray × Option String)
  | [] => []
  | line :: more =>
    let (next, output) := (s.onPage .empty).execute line
    (next.page, output) :: next.record more

/-- What lines leave on an empty page: the questions of each line, and then its output, if it has
one, with a line feed. -/
def printed : List (ByteArray × Option String) → ByteArray
  | [] => .empty
  | (questions, none) :: more => questions ++ printed more
  | (questions, some output) :: more => questions ++ (output ++ "\n").toUTF8 ++ printed more

/-- The session has a terminal without limit. -/
def Unlimited (s : Session φ) : Prop :=
  ∃ t, s.prompt = .terminal t ∧ t.room = none

variable {s : Session φ}

/-! ## One line -/

theorem Unlimited.onPage_page (unlimited : s.Unlimited) : s.onPage s.page = s := by
  obtain ⟨t, terminal, -⟩ := unlimited
  obtain ⟨vocabulary, store, prompt, files⟩ := s
  obtain rfl : prompt = .terminal t := terminal
  rfl

theorem onPage_onPage (s : Session φ) (first second : ByteArray) :
    (s.onPage first).onPage second = s.onPage second := by
  obtain ⟨vocabulary, store, prompt, files⟩ := s
  cases prompt with
  | terminal t => rfl
  | script given => rfl

theorem store_onPage (s : Session φ) (page : ByteArray) : (s.onPage page).store = s.store := by
  unfold onPage
  split <;> rfl

theorem vocabulary_onPage (s : Session φ) (page : ByteArray) :
    (s.onPage page).vocabulary = s.vocabulary := by
  unfold onPage
  split <;> rfl

theorem Unlimited.shown (unlimited : s.Unlimited) (before : ByteArray) (text : String) :
    { s.onPage before with prompt := (s.onPage before).prompt.shown text } =
      s.onPage (before ++ text.toUTF8) := by
  obtain ⟨t, terminal, room⟩ := unlimited
  simp only [Session.onPage, terminal, Prompt.shown, Terminal.write, room]

variable [FileSystem φ]

/-- What a step does to a session whose page is `before`: it writes behind what is there, and else
does what it does on an empty page. -/
theorem Unlimited.answer (unlimited : s.Unlimited) (before : ByteArray) (step : Step) :
    let alone := (s.onPage .empty).answer step
    alone.1.Unlimited ∧
      (s.onPage before).answer step = (alone.1.onPage (before ++ alone.1.page), alone.2) := by
  obtain ⟨t, terminal, room⟩ := unlimited
  obtain ⟨vocabulary, store, prompt, files⟩ := s
  obtain rfl : prompt = .terminal t := terminal
  cases step with
  | done | read | write =>
    refine ⟨⟨_, rfl, room⟩, ?_⟩
    simp [Session.answer, Session.onPage, Session.page]
  | ask name resume =>
    have asks (page : ByteArray) :=
      Terminal.ask_of_unlimited (t := { t with written := page }) room name
    simp only [Session.answer, Session.onPage, Prompt.ask, asks]
    refine ⟨⟨_, rfl, room⟩, ?_⟩
    simp [Session.page]

/-- What a line does to a session whose page is `before`. -/
theorem Unlimited.execute (unlimited : s.Unlimited) (before : ByteArray) (line : String) :
    let alone := (s.onPage .empty).execute line
    alone.1.Unlimited ∧
      (s.onPage before).execute line = (alone.1.onPage (before ++ alone.1.page), alone.2) := by
  simp only [Session.execute, store_onPage, vocabulary_onPage]
  exact unlimited.answer before (s.store.step s.vocabulary line)

/-- A performed line writes its questions and then its output behind what is there. -/
theorem Unlimited.perform (unlimited : s.Unlimited) (before : ByteArray) (line : String) :
    let alone := (s.onPage .empty).execute line
    (s.onPage before).perform line =
      alone.1.onPage (before ++ printed [(alone.1.page, alone.2)]) := by
  obtain ⟨alone, does⟩ := unlimited.execute before line
  simp only [Session.perform, does]
  cases ((s.onPage .empty).execute line).2 with
  | none => simp only [printed, ByteArray.append_empty]
  | some output =>
    simp only [alone.shown, printed, ByteArray.append_empty, ByteArray.append_assoc]

/-! ## Runs -/

theorem record_cons (s : Session φ) (line : String) (more : List String) :
    s.record (line :: more) =
      (((s.onPage .empty).execute line).1.page, ((s.onPage .empty).execute line).2) ::
        ((s.onPage .empty).execute line).1.record more :=
  rfl

theorem executeAll_cons (s : Session φ) (line : String) (more : List String) :
    s.executeAll (line :: more) =
      (((s.execute line).1.executeAll more).1,
        (s.execute line).2.toList ++ ((s.execute line).1.executeAll more).2) :=
  rfl

theorem performUntilExit_cons (s : Session φ) (line : String) (more : List String) :
    s.performUntilExit (line :: more) =
      if (s.perform line).store.leaving then (s.perform line, true)
      else (s.perform line).performUntilExit more :=
  rfl

/-- Lines after others are performed unless one of the others asked to leave. -/
theorem performUntilExit_append (s : Session φ) (first second : List String) :
    s.performUntilExit (first ++ second) =
      if (s.performUntilExit first).2 then s.performUntilExit first
      else (s.performUntilExit first).1.performUntilExit second := by
  induction first generalizing s with
  | nil => rfl
  | cons line more ih =>
    rw [List.cons_append, performUntilExit_cons, performUntilExit_cons]
    by_cases leaves : (s.perform line).store.leaving = true
    · simp only [if_pos leaves, if_true]
    · simp only [if_neg leaves, ih]

theorem printed_cons (note : ByteArray × Option String) (more : List (ByteArray × Option String)) :
    printed (note :: more) = printed [note] ++ printed more := by
  obtain ⟨questions, output⟩ := note
  cases output with
  | none => simp [printed]
  | some text => simp [printed, ByteArray.append_assoc]

/-- Whatever stands on the page, lines lead to the same session and have the outputs of their
record. -/
theorem Unlimited.executeAll (unlimited : s.Unlimited) (before : ByteArray)
    (lines : List String) :
    (∀ page, ((s.onPage before).executeAll lines).1.onPage page =
        (s.executeAll lines).1.onPage page) ∧
      ((s.onPage before).executeAll lines).2 = (s.record lines).filterMap (·.2) := by
  induction lines generalizing s before with
  | nil => exact ⟨fun page => onPage_onPage s before page, rfl⟩
  | cons line more ih =>
    have alone := (unlimited.execute .empty line).1
    have here := (unlimited.execute s.page line).2
    rw [unlimited.onPage_page] at here
    rw [executeAll_cons, executeAll_cons, record_cons, (unlimited.execute before line).2, here]
    constructor
    · intro page
      rw [(ih alone _).1, (ih alone _).1]
    · rw [(ih alone _).2]
      cases output : ((s.onPage .empty).execute line).2 with
      | none => simp
      | some text => simp

/-- A line asks to leave if its first word does, and never takes that back. -/
theorem execute_leaving (complete : s.vocabulary = Keyword.all) (line : String) :
    (s.execute line).1.store.leaving =
      (s.store.leaving || decide ((Text.wordsOf line).head? = some Keyword.exit.name)) := by
  have framed := (Surroundings.ofSession.execute_framed s.scene line).leaving
  rw [execute_eq complete] at framed
  refine framed.trans (congrArg (s.store.leaving || ·) ?_)
  rw [Bool.eq_iff_iff, beq_iff_eq, decide_eq_true_iff]
  exact Keyword.heading?_eq_some_iff

/-- A run performs the lines up to the first that asks to leave, and no others. -/
theorem Unlimited.performUntilExit (unlimited : s.Unlimited) (complete : s.vocabulary = Keyword.all)
    (stays : s.store.leaving = false) (before : ByteArray) (lines : List String) :
    ((s.onPage before).performUntilExit lines).1 =
      (s.executeAll (untilExit lines)).1.onPage
        (before ++ printed (s.record (untilExit lines))) := by
  induction lines generalizing s before with
  | nil =>
    change s.onPage before = s.onPage (before ++ ByteArray.empty)
    rw [ByteArray.append_empty]
  | cons line more ih =>
    have alone := (unlimited.execute .empty line).1
    have here := (unlimited.execute s.page line).2
    rw [unlimited.onPage_page] at here
    have leaving := execute_leaving (vocabulary_onPage s .empty ▸ complete) line
    rw [store_onPage, stays, Bool.false_or] at leaving
    rw [performUntilExit_cons, unlimited.perform, store_onPage, leaving, untilExit]
    by_cases last : (Text.wordsOf line).head? = some Keyword.exit.name
    · rw [decide_eq_true last, if_pos rfl, if_pos last]
      rw [executeAll_cons, here, record_cons]
      exact (onPage_onPage _ _ _).symm
    · rw [decide_eq_false last, if_neg Bool.false_ne_true, if_neg last]
      rw [ih alone ((execute_vocabulary _ _).trans (vocabulary_onPage s .empty ▸ complete))
        (leaving.trans (decide_eq_false last))]
      rw [executeAll_cons, here, record_cons, printed_cons _ (record _ _), (alone.executeAll _ _).1,
        ByteArray.append_assoc]

end Session

namespace CommandLine

variable {φ : Type} [FileSystem φ]

/-- The lines of the script and the commands are performed as one list of lines. -/
theorem run_eq_performUntilExit {i : Invocation} {s : Session φ} {script : String}
    (stateless : i.state = none)
    (readable : ∀ path ∈ i.script, FileSystem.readText s.files path = .ok script)
    (absent : i.script = none → script = "") :
    run i s = { session := (s.performUntilExit (Text.linesOf script ++ i.commands)).1 } := by
  simp only [run, loadState, stateless]
  cases named : i.script with
  | none =>
    obtain rfl := absent named
    rfl
  | some path =>
    simp only [readable path named, Session.performUntilExit_append]
    split
    · rename_i last left
      simp [left]
    · rename_i next stays
      simp [stays]

/-- **A run ends with the first line that asks to leave.** On any file system, without a state file,
and with a script that can be read if there is one, a run over typed input executes the lines of the
script and then the commands up to and including the first one whose first word is `exit`, all of
them if there is none, and no line after it: the store, the files and the input that is left are
those after these lines. What stands on the page is, for each of these lines, the questions that are
written while it is executed and then its output, if it has one, with a line feed. A script that
does not ask to leave, without commands behind it, has the outputs of executing all its lines. -/
theorem run_ends_at_exit {arguments : List String} {i : Invocation}
    (given : read arguments = .ok (.run i)) (stateless : i.state = none) {files : φ}
    {script : String} (readable : ∀ path ∈ i.script, FileSystem.readText files path = .ok script)
    (absent : i.script = none → script = "") (input : List UInt8) :
    let start : Session φ := { prompt := .terminal { input }, files }
    let lines := untilExit (Text.linesOf script ++ i.commands)
    runArguments arguments start =
        { code := 0
          errors := ""
          session := (start.executeAll lines).1.onPage (Session.printed (start.record lines)) } ∧
      ((∀ line ∈ Text.linesOf script, (Text.wordsOf line).head? ≠ some Keyword.exit.name) →
        i.commands = [] →
        (start.record lines).filterMap (·.2) = (start.runScript script).2) := by
  intro start lines
  have unlimited : start.Unlimited := ⟨_, rfl, rfl⟩
  constructor
  · have performed := unlimited.performUntilExit rfl rfl .empty
      (Text.linesOf script ++ i.commands)
    rw [ByteArray.empty_append] at performed
    rw [runArguments, given]
    have folded : run i start = _ := run_eq_performUntilExit stateless readable absent
    exact folded.trans (congrArg (Ended.mk 0 "") performed)
  · intro stays alone
    have all : lines = Text.linesOf script := by
      simp only [lines, alone, List.append_nil]
      exact untilExit_eq_self stays
    rw [all, Session.runScript, ← (unlimited.executeAll start.page _).2, unlimited.onPage_page]

/-- A folder with a script that asks twice, loads a state that is not there and only mentions the
word that asks to leave. -/
def folder : Files where
  entries := [(["s"], .file "input n\r\nload exit\n\nexiting\ninput m".toUTF8)]

/-- The commands behind the script leave before they ask again, so that the last line of the input
is not read; alone, the script has the outputs of all its lines. -/
theorem run_ends_at_exit_commands :
    let input : List UInt8 := "7\n\n8\n".toUTF8.data.toList
    let start : Session := { prompt := .terminal { input }, files := folder }
    let ended := runArguments ["--file", "s", "-v", "print n", " exit now", "input k"] start
    let script := "input n\r\nload exit\n\nexiting\ninput m"
    let outputs := ["n = 7", "Error loading state: No such file or directory (os error 2)",
      "Unknown command: exiting", "m = "]
    ended.code = 0 ∧
      ended.session.page = (question "n" ++ "n = 7\n" ++
        "Error loading state: No such file or directory (os error 2)\n" ++
        "Unknown command: exiting\n" ++ question "m" ++ "m = \n" ++ "7\n" ++
        "Exiting the program.\n").toUTF8 ∧
      (match ended.session.prompt with
        | .terminal t => t.input
        | .script _ => []) = "8\n".toUTF8.data.toList ∧
      (start.record (untilExit (Text.linesOf script ++ []))).filterMap (·.2) = outputs ∧
      (start.runScript script).2 = outputs := by
  intro input start ended script outputs
  have text : ∀ path ∈ some "s", folder.readText path = .ok script := by
    rintro _ ⟨⟩
    decide +kernel
  have given : read ["--file", "s", "-v", "print n", " exit now", "input k"] =
      .ok (.run
        { script := some "s"
          verbose := true
          commands := ["print n", " exit now", "input k"] }) := by
    decide +kernel
  have alone : read ["-f", "s"] = .ok (.run { script := some "s" }) := by decide +kernel
  have first := (run_ends_at_exit given rfl text nofun input).1
  have second := (run_ends_at_exit alone rfl text nofun input).2 (by decide +kernel) rfl
  have shown : (start.runScript script).2 = outputs := by decide +kernel
  refine ⟨congrArg Ended.code first, ?_, ?_, second.trans shown, shown⟩
  · rw [show ended = _ from first]
    decide +kernel
  · rw [show ended = _ from first]
    decide +kernel

end CommandLine

end Linewise
