import Linewise.Proofs.DriverRuns
import Linewise.Proofs.ExpressionLines

/-! The state file of the command line. It is loaded by an ordinary line, and a line is cut into
words, so what is loaded is the file that the first word of the path names. For a path without
blanks that is the path itself. A file whose path has a blank is never loaded, although it could be
read. -/
namespace Linewise

namespace Text

/-- The words of a text are not empty and have no blanks. -/
theorem words_visible (text : List Char) : ∀ word ∈ words text, word ≠ [] ∧ BlankFree word := by
  fun_induction words text with
  | case1 => simp
  | case2 => simp
  | case3 c visible =>
    simpa [BlankFree] using visible
  | case4 c d rest blank ih => exact ih
  | case5 c d rest visible blank ih =>
    refine List.forall_mem_cons.mpr ⟨?_, ih⟩
    simpa [BlankFree] using visible
  | case6 c d rest visible _ none ih =>
    simpa [BlankFree] using visible
  | case7 c d rest visible _ word more cut ih =>
    rw [cut] at ih
    obtain ⟨first, later⟩ := List.forall_mem_cons.mp ih
    refine List.forall_mem_cons.mpr ⟨⟨by simp, ?_⟩, later⟩
    exact List.forall_mem_cons.mpr ⟨Bool.eq_false_iff.mpr visible, first.2⟩

theorem isWord_of_mem_wordsOf {text word : String} (member : word ∈ wordsOf text) :
    IsWord word := by
  obtain ⟨cut, among, rfl⟩ := List.mem_map.mp member
  obtain ⟨nonempty, visible⟩ := words_visible text.toList cut among
  refine ⟨fun empty => nonempty ?_, by rwa [String.toList_ofList]⟩
  simpa using congrArg String.toList empty

end Text

namespace CommandLine

variable {φ : Type} [FileSystem φ]

/-- What loading a state file into an empty store leads to, and what is reported of it. -/
inductive Loads (files : φ) (path : String) : Store → String → Prop where
  | loaded {text : String} {saved : Store} (readable : FileSystem.readText files path = .ok text)
      (valid : Document.read text = .ok saved) :
      Loads files path { saved with leaving := false } ("State loaded from " ++ path)
  | unreadable {e : FileError} (failed : FileSystem.readText files path = .error e) :
      Loads files path {} ("Error loading state: " ++ e.message)
  | malformed {text : String} {f : Document.Fault}
      (readable : FileSystem.readText files path = .ok text)
      (invalid : Document.read text = .error f) :
      Loads files path {} ("Error loading state: " ++ f.message text)

/-- The outcome of a load is the one that its file leads to. -/
theorem loads_loaded (files : φ) (path : String) :
    ∃ store report, Store.loaded {} path (FileSystem.readText files path) = ⟨store, some report⟩ ∧
      Loads files path store report := by
  cases readable : FileSystem.readText files path with
  | error e => exact ⟨_, _, rfl, .unreadable readable⟩
  | ok text =>
    cases valid : Document.read text with
    | error f =>
      refine ⟨_, _, ?_, .malformed readable valid⟩
      simp only [Store.loaded, valid, Store.shows]
    | ok saved =>
      refine ⟨_, _, ?_, .loaded readable valid⟩
      simp only [Store.loaded, valid, Store.shows]
      rfl

/-- A file leads to one store and one report. -/
theorem Loads.unique {files : φ} {path report report' : String} {store store' : Store}
    (loads : Loads files path store report) (loads' : Loads files path store' report') :
    store = store' ∧ report = report' := by
  cases loads <;> cases loads' <;> simp_all

theorem wordsOf_loadLine (path : String) :
    Text.wordsOf (loadLine path) = Keyword.load.name :: Text.wordsOf path := by
  have keyword : IsWord Keyword.load.name := ⟨by decide, by decide⟩
  rw [loadLine, Text.wordsOf_append_space, keyword.wordsOf_eq]
  rfl

/-- What the line with a path leads to: without a word it is refused, else the first word is loaded
and the rest of the path does not count. -/
inductive Takes (files : φ) (path : String) : Store → String → Prop where
  | nothing (blank : Text.wordsOf path = []) :
      Takes files path {} "Error: load: missing argument <name>"
  | first {word report : String} {more : List String} {store : Store}
      (cut : Text.wordsOf path = word :: more) (loads : Loads files word store report) :
      Takes files path store report

/-- A path without blanks is its first word. -/
theorem Takes.loads {files : φ} {path report : String} {store : Store}
    (takes : Takes files path store report) (word : IsWord path) :
    Loads files path store report := by
  cases takes with
  | nothing blank =>
    rw [word.wordsOf_eq] at blank
    cases blank
  | first cut loads =>
    rw [word.wordsOf_eq] at cut
    obtain ⟨rfl, -⟩ := List.cons.inj cut
    exact loads

/-- A report of success names the path that was loaded, and no other report begins like it. -/
theorem Loads.eq_of_success {files : φ} {word path : String} {store : Store}
    (loads : Loads files word store ("State loaded from " ++ path)) : word = path := by
  generalize same : "State loaded from " ++ path = report at loads
  cases loads with
  | loaded => exact ((String.append_right_inj _).mp same).symm
  | unreadable | malformed =>
    have heads := congrArg (fun text => text.toList.head?) same
    simp at heads

/-- A file that could be loaded is loaded from a path without blanks only. -/
theorem Takes.isWord {files : φ} {path report text : String} {store saved : Store}
    (takes : Takes files path store report) (readable : FileSystem.readText files path = .ok text)
    (valid : Document.read text = .ok saved) (loads : Loads files path store report) :
    IsWord path := by
  obtain ⟨-, rfl⟩ := loads.unique (.loaded readable valid)
  -- Success is reported of the word that was loaded, so that word is the path.
  generalize same : "State loaded from " ++ path = report at takes
  cases takes with
  | nothing =>
    have heads := congrArg (fun text => text.toList.head?) same
    simp at heads
  | first cut loaded =>
    subst same
    obtain rfl := loaded.eq_of_success
    exact Text.isWord_of_mem_wordsOf (cut ▸ List.mem_cons_self)

/-- A fresh session over typed input. -/
def fresh (input : List UInt8) (files : φ) : Session φ where
  prompt := .terminal { input }
  files := files

/-- The session before the first line: a store, and a report on the page. -/
def reported (input : List UInt8) (files : φ) (store : Store) (report : String) :
    Session φ where
  store := store
  prompt := .terminal { input, written := (report ++ "\n").toUTF8 }
  files := files

theorem perform_of_execute {input : List UInt8} {files : φ} {line report : String}
    {store : Store}
    (does : (fresh input files).execute line = ({ fresh input files with store }, some report)) :
    (fresh input files).perform line = reported input files store report := by
  rw [Session.perform, does]
  simp only [fresh, reported, Prompt.shown, Terminal.write, ByteArray.empty_append]

/-- The line with the path of the state file leads a fresh session to what it takes of the path. -/
theorem loadState_takes {i : Invocation} {path : String} (named : i.state = some path)
    (input : List UInt8) (files : φ) :
    ∃ store report, loadState i (fresh input files) = reported input files store report ∧
      Takes files path store report := by
  rw [loadState, named]
  cases cut : Text.wordsOf path with
  | nil =>
    have said : Text.wordsOf (loadLine path) = Keyword.load.name :: [] := by
      rw [wordsOf_loadLine, cut]
    refine ⟨_, _, perform_of_execute ?_, .nothing cut⟩
    rw [Session.execute, fresh, Store.step_of_wrong (Keyword.mem_all .load) said rfl]
    rfl
  | cons word more =>
    obtain ⟨store, report, outcome, loads⟩ := loads_loaded files word
    have said : Text.wordsOf (loadLine path) = Keyword.load.name :: word :: more := by
      rw [wordsOf_loadLine, cut]
    refine ⟨store, report, perform_of_execute ?_, .first cut loads⟩
    rw [Session.execute, fresh, Store.step_of_words (Keyword.mem_all .load) said rfl]
    simp only [Command.step, Session.answer, outcome]

/-- **A state file is loaded first, if its path is one word.** On any file system the run goes on,
with the script and the commands, from a session that holds what the file at the first word of the
path gives an empty store, and whose page holds the report; a path without a word is refused. So a
path without blanks is loaded as it is, and of the other paths none whose file could be loaded. -/
theorem state_file_loaded_first {arguments : List String} {i : Invocation} {path : String}
    (given : read arguments = .ok (.run i)) (named : i.state = some path) (input : List UInt8)
    (files : φ) :
    ∃ store report,
      runArguments arguments (fresh input files) =
          run { i with state := none } (reported input files store report) ∧
        Takes files path store report ∧ (IsWord path → Loads files path store report) ∧
        ∀ text saved, FileSystem.readText files path = .ok text → Document.read text = .ok saved →
          (Loads files path store report ↔ IsWord path) := by
  obtain ⟨store, report, before, takes⟩ := loadState_takes named input files
  refine ⟨store, report, ?_, takes, takes.loads, ?_⟩
  · rw [runArguments, given, ← before]
    rfl
  · intro text saved readable valid
    exact ⟨takes.isWord readable valid, takes.loads⟩

/-- The text of a state file with one variable, a digit. -/
def digitState (digit : String) : String :=
  "\x7b\"variables\": \x7b\"x\": " ++ digit ++ "\x7d\x7d"

/-- A folder with two state files, one of them with a blank in its name. -/
def stateFiles : Files where
  entries :=
    [(["s"], .file (digitState "7").toUTF8), (["my s"], .file (digitState "8").toUTF8)]

theorem readText_spaced : stateFiles.readText "my s" = .ok (digitState "8") := by
  decide +kernel

theorem read_spaced :
    Document.read (digitState "8") = .ok { «variables» := Table.empty.insert "x" (.int 8) } := by
  have given : (Document.read (digitState "8")).toOption =
      some { «variables» := Table.empty.insert "x" (.int 8) } := by
    decide +kernel
  cases outcome : Document.read (digitState "8") with
  | error f => simp [outcome, Except.toOption] at given
  | ok saved => simpa [outcome, Except.toOption] using given

/-- Both files can be loaded, and only the one without a blank in its name is. -/
theorem state_file_loaded_first_two_files :
    let commands := ["print x"]
    (∃ store report,
      runArguments ("-s" :: "s" :: commands) (fresh [] stateFiles) =
          run { commands } (reported [] stateFiles store report) ∧
        Loads stateFiles "s" store report) ∧
      ∃ store report,
        runArguments ("--state" :: "my s" :: commands) (fresh [] stateFiles) =
            run { commands } (reported [] stateFiles store report) ∧
          ¬ Loads stateFiles "my s" store report := by
  intro commands
  have short : read ("-s" :: "s" :: commands) = .ok (.run { state := some "s", commands }) := by
    decide +kernel
  have spaced : read ("--state" :: "my s" :: commands) =
      .ok (.run { state := some "my s", commands }) := by
    decide +kernel
  refine ⟨?_, ?_⟩
  · obtain ⟨store, report, ran, -, loads, -⟩ := state_file_loaded_first short rfl [] stateFiles
    exact ⟨store, report, ran, loads ⟨by decide, by decide⟩⟩
  · obtain ⟨store, report, ran, -, -, only⟩ := state_file_loaded_first spaced rfl [] stateFiles
    refine ⟨store, report, ran, fun loads => ?_⟩
    have word : IsWord "my s" := (only _ _ readText_spaced read_spaced).mp loads
    exact absurd word.2 (by decide)

/-- **A blank cuts the path.** The file can be loaded, but another one is asked for, so that the
commands find an empty store. -/
theorem blank_cuts_path :
    let ended := runArguments ["--state", "my s", "print x"] (fresh [] stateFiles)
    Loads stateFiles "my s" { «variables» := Table.empty.insert "x" (.int 8) }
        "State loaded from my s" ∧
      ended.session.page = ("Error loading state: No such file or directory (os error 2)\n" ++
        "Undefined variable\n").toUTF8 ∧
      ∀ store report, Loads stateFiles "my s" store report →
        ended ≠ run { commands := ["print x"] } (reported [] stateFiles store report) := by
  intro ended
  have loaded : Loads stateFiles "my s" { «variables» := Table.empty.insert "x" (.int 8) }
      "State loaded from my s" :=
    .loaded readText_spaced read_spaced
  have page : ended.session.page =
      ("Error loading state: No such file or directory (os error 2)\n" ++
        "Undefined variable\n").toUTF8 := by
    decide +kernel
  refine ⟨loaded, page, ?_⟩
  intro store report loads same
  obtain ⟨rfl, rfl⟩ := loads.unique loaded
  rw [same] at page
  exact absurd page (by decide +kernel)

end CommandLine

end Linewise
