import Linewise.Proofs.Surroundings

/-! Lines that fail. A line fails because of its words, because of what the store holds, or because
of what its surroundings answer; each cause is said here without the commands. Whatever the cause, a
failed line leaves the store as it was and reports the failure. -/
namespace Linewise

/-- The arguments that a keyword cannot do without, in their order. An assignment has a form of its
own. -/
def Keyword.required : Keyword → List String
  | .assign | .attempt | .exit | .clear => []
  | .onlyIf => ["cond"]
  | .push => ["name", "_", "value"]
  | .set => ["name", "key", "_", "value"]
  | .get => ["name", "key"]
  | .method => ["class", "method"]
  | .print | .input | .countDown | .define | .array | .pop | .dict | .newClass | .help | .save
  | .load | .delete => ["name"]

namespace Command

/-- The words behind a keyword are wrong: there are too few of them, one that has to be an integer
is none, or an assignment does not have its form. -/
inductive Refused : Keyword → List String → ArgsError → Prop
  | missing {k : Keyword} {args : List String} {argument : String}
      (lacking : k.required[args.length]? = some argument) : Refused k args (.missing k argument)
  | pushed {name sign word : String} {more : List String}
      (wrong : Integer.ofText? word.toList = none) :
      Refused .push (name :: sign :: word :: more) (.badInteger .push word)
  | put {name key sign word : String} {more : List String}
      (wrong : Integer.ofText? word.toList = none) :
      Refused .set (name :: key :: sign :: word :: more) (.badInteger .set word)
  | assigned {args : List String}
      (malformed : ∀ name first more, args ≠ name :: "=" :: first :: more) :
      Refused .assign args .badAssignment

theorem named_eq_error {k : Keyword} {make : String → Command} {args : List String}
    {e : ArgsError} (wrong : named k make args = .error e) : args = [] ∧ e = .missing k "name" := by
  cases args with
  | nil =>
    cases wrong
    exact ⟨rfl, rfl⟩
  | cons name more => cases wrong

theorem integer_eq_error {k : Keyword} {word : String} {make : Int64 → Command} {e : ArgsError}
    (wrong : integer k word make = .error e) :
    Integer.ofText? word.toList = none ∧ e = .badInteger k word := by
  unfold integer at wrong
  split at wrong
  · cases wrong
  · cases wrong
    exact ⟨‹_›, rfl⟩

/-- The arguments of a keyword are rejected for these causes and for no others. -/
theorem refused_of_ofWords {k : Keyword} {args : List String} {e : ArgsError}
    (wrong : ofWords k args = .error e) : Refused k args e := by
  cases k
  case assign =>
    simp only [ofWords] at wrong
    split at wrong
    · split at wrong
      · cases wrong
      · rename_i unequal
        cases wrong
        refine .assigned ?_
        rintro _ _ _ ⟨⟩
        exact unequal rfl
    · rename_i short
      cases wrong
      refine .assigned ?_
      intro name first more same
      exact short name "=" first more same
  case onlyIf | get | method =>
    simp only [ofWords] at wrong
    split at wrong <;> cases wrong <;> exact .missing rfl
  case push =>
    simp only [ofWords] at wrong
    split at wrong
    iterate 3
      cases wrong
      exact .missing rfl
    obtain ⟨noInteger, rfl⟩ := integer_eq_error wrong
    exact .pushed noInteger
  case set =>
    simp only [ofWords] at wrong
    split at wrong
    iterate 4
      cases wrong
      exact .missing rfl
    obtain ⟨noInteger, rfl⟩ := integer_eq_error wrong
    exact .put noInteger
  case attempt | exit | clear => cases wrong
  all_goals
    obtain ⟨rfl, rfl⟩ := named_eq_error wrong
    exact .missing rfl

theorem named_of_missing {k : Keyword} {make : String → Command} {args : List String}
    {argument : String} (lacking : ["name"][args.length]? = some argument) :
    named k make args = .error (.missing k argument) := by
  cases args with
  | nil =>
    cases lacking
    rfl
  | cons name more => cases lacking

theorem ofWords_of_missing {k : Keyword} {args : List String} {argument : String}
    (lacking : k.required[args.length]? = some argument) :
    ofWords k args = .error (.missing k argument) := by
  cases k
  case assign | attempt | exit | clear => cases lacking
  -- The longest list of required arguments has four of them.
  case onlyIf | push | set | get | method =>
    rcases args with _ | ⟨_, _ | ⟨_, _ | ⟨_, _ | ⟨_, _⟩⟩⟩⟩ <;> cases lacking <;> rfl
  all_goals exact named_of_missing lacking

theorem ofWords_of_refused {k : Keyword} {args : List String} {e : ArgsError}
    (refused : Refused k args e) : ofWords k args = .error e := by
  cases refused with
  | missing lacking => exact ofWords_of_missing lacking
  | pushed wrong => simp only [ofWords, integer, wrong]
  | put wrong => simp only [ofWords, integer, wrong]
  | assigned malformed =>
    simp only [ofWords]
    split
    · rename_i name sign first more
      rw [if_neg]
      rintro rfl
      exact malformed name first more rfl
    · rfl

end Command

namespace Surroundings

variable {π φ : Type} (w : Surroundings π φ)

/-- The failures of a line with the given words, each with its report. -/
inductive Fails (s : Scene π φ) : List String → String → Prop
  /-- The first word is no keyword. -/
  | unknown {first : String} {args : List String} (foreign : ∀ k : Keyword, k.name ≠ first) :
    Fails s (first :: args) ("Unknown command: " ++ first)
  /-- The words behind the keyword are wrong. -/
  | refused {k : Keyword} {args : List String} {e : ArgsError}
    (refused : Command.Refused k args e) : Fails s (k.name :: args) ("Error: " ++ e.message)
  /-- A condition or a count is a text. -/
  | notNumber {k : Keyword} {name text : String} {args : List String}
    (counts : k = .onlyIf ∨ k = .countDown)
    (held : s.store.variables.get? name = some (.str text)) :
    Fails s (k.name :: name :: args) ("Error: " ++ (CommandError.notNumber k name .str).message)
  /-- A method is added to a class that does not exist. -/
  | noClass {name method : String} {args : List String}
    (absent : s.store.classes.get? name = none) :
    Fails s ("method" :: name :: method :: args) ("Error: " ++ (CommandError.noClass name).message)
  /-- The state cannot be written. -/
  | notSaved {path : String} {args : List String} {e : FileError}
    (failed : (w.write s.files path (Document.write s.store)).2 = .error e) :
    Fails s ("save" :: path :: args) ("Error: " ++ (CommandError.notSaved path e).message)
  /-- A file cannot be read, or is no text. -/
  | unreadable {path : String} {args : List String} {e : FileError}
    (failed : (w.read s.files path).2 = .error e) :
    Fails s ("load" :: path :: args) ("Error loading state: " ++ e.message)
  /-- A file does not hold a state. -/
  | noState {path text : String} {args : List String} {f : Document.Fault}
    (given : (w.read s.files path).2 = .ok text) (fault : Document.read text = .error f) :
    Fails s ("load" :: path :: args) ("Error loading state: " ++ f.message text)
  /-- There is no reply. -/
  | cancelled {name : String} {args : List String} (silent : (w.ask s.prompt name).2 = none) :
    Fails s ("input" :: name :: args) "Input canceled."

variable {w} {s : Scene π φ} {line report : String}

theorem execute_of_words {k : Keyword} {args : List String} {command : Command}
    (said : Text.wordsOf line = k.name :: args) (made : Command.ofWords k args = .ok command) :
    w.execute s line = w.answer s (command.step s.store) := by
  rw [execute, Store.step_of_words k.mem_all said made]

/-- A failed line leaves the store and gives its report. -/
theorem Fails.execute (failed : w.Fails s (Text.wordsOf line) report) :
    (w.execute s line).1.store = s.store ∧ (w.execute s line).2 = some report := by
  generalize said : Text.wordsOf line = words at failed
  cases failed with
  | unknown foreign =>
    rw [Surroundings.execute, Store.step_of_foreign (fun k _ => foreign k) said]
    exact ⟨rfl, rfl⟩
  | refused refused =>
    have wrong := Command.ofWords_of_refused refused
    rw [Surroundings.execute, Store.step_of_wrong (Keyword.mem_all _) said wrong]
    exact ⟨rfl, rfl⟩
  | notNumber counts held =>
    obtain rfl | rfl := counts
    · rw [execute_of_words (k := .onlyIf) said rfl]
      simp only [Command.step, answer, Store.onlyIf, held, Value.number?]
      exact ⟨rfl, rfl⟩
    · rw [execute_of_words (k := .countDown) said rfl]
      simp only [Command.step, answer, Store.countDown, held, Store.countedDown?]
      exact ⟨rfl, rfl⟩
  | noClass absent =>
    rw [execute_of_words (k := .method) said rfl]
    simp only [Command.step, answer, Store.addMethod, absent]
    exact ⟨rfl, rfl⟩
  | notSaved failed =>
    rw [execute_of_words (k := .save) said rfl]
    simp only [Command.step, answer, failed]
    exact ⟨rfl, rfl⟩
  | unreadable failed =>
    rw [execute_of_words (k := .load) said rfl]
    simp only [Command.step, answer, failed]
    exact ⟨rfl, rfl⟩
  | noState given fault =>
    rw [execute_of_words (k := .load) said rfl]
    simp only [Command.step, answer, given, Store.loaded, fault]
    exact ⟨rfl, rfl⟩
  | cancelled silent =>
    rw [execute_of_words (k := .input) said rfl]
    simp only [Command.step, answer, silent]
    exact ⟨rfl, rfl⟩

/-- A load with the report of a failed one has failed. -/
theorem fails_of_load_report {path reason : String} {args : List String}
    (said : Text.wordsOf line = "load" :: path :: args)
    (reported : (w.execute s line).2 = some ("Error loading state: " ++ reason)) :
    w.Fails s (Text.wordsOf line) ("Error loading state: " ++ reason) := by
  rw [execute_of_words (k := .load) said rfl] at reported
  change ((s.store.loaded path (w.read s.files path).2).output) = _ at reported
  rw [said]
  cases given : (w.read s.files path).2 with
  | error e =>
    rw [given] at reported
    rw [← Option.some.inj reported]
    exact .unreadable given
  | ok text =>
    simp only [given, Store.loaded] at reported
    cases fault : Document.read text with
    | error f =>
      rw [fault] at reported
      rw [← Option.some.inj reported]
      exact .noState given fault
    | ok other =>
      -- A load that succeeds reports it with another first letter.
      rw [fault] at reported
      have heads := congrArg (fun text => text.toList.head?) (Option.some.inj reported)
      simp at heads

/-- A failed line leaves the four namespaces and the wish to leave as they were, and shows a report.
Every rejection of the arguments is a failure, and so is every load that reports an error. -/
theorem failed_line_keeps_store (w : Surroundings π φ) (s : Scene π φ) (line : String) :
    (∀ report, w.Fails s (Text.wordsOf line) report →
      (w.execute s line).1.store = s.store ∧ (w.execute s line).2 = some report) ∧
    (∀ k args e, Text.wordsOf line = k.name :: args → Command.ofWords k args = .error e →
      w.Fails s (Text.wordsOf line) ("Error: " ++ e.message)) ∧
    ∀ path args reason, Text.wordsOf line = "load" :: path :: args →
      (w.execute s line).2 = some ("Error loading state: " ++ reason) →
      w.Fails s (Text.wordsOf line) ("Error loading state: " ++ reason) := by
  refine ⟨fun report failed => failed.execute, ?_, fun path args reason => fails_of_load_report⟩
  intro k args e said wrong
  rw [said]
  exact .refused (Command.refused_of_ofWords wrong)

/-- A session whose state file is good up to the mark of a method in its last section. -/
def spoiled : Session where
  store :=
    { «variables» := .ofList [("x", .str "kept")], arrays := .ofList [("x", #[1])]
      classes := .ofList [("C", .empty)], leaving := true }
  files :=
    let sections := "\"variables\":\x7b\"x\":1\x7d,\"arrays\":\x7b\"a\":[2]\x7d," ++
      "\"dictionaries\":\x7b\"d\":\x7b\"k\":3\x7d\x7d,\"classes\":\x7b\"C\":\x7b\"m\":5\x7d\x7d"
    ⟨[(["state"], .file ("\x7b" ++ sections ++ "\x7d").toUTF8)]⟩

theorem failed_line_keeps_store_spoiled :
    let report := "Error loading state: " ++
      "invalid type: integer `5`, expected a string at line 1 column 90"
    ofSession.Fails spoiled.scene (Text.wordsOf "load state") report ∧
      (spoiled.execute "load state").1.store = spoiled.store ∧
      (spoiled.execute "load state").2 = some report := by
  intro report
  obtain ⟨keeps, -, loads⟩ := failed_line_keeps_store ofSession spoiled.scene "load state"
  have failed : ofSession.Fails spoiled.scene (Text.wordsOf "load state") report :=
    loads "state" [] _ (by decide +kernel) (by decide +kernel)
  have kept := keeps report failed
  rw [Session.execute_eq rfl] at kept
  exact ⟨failed, kept⟩

end Surroundings

end Linewise
