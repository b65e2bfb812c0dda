import Linewise.Proofs.LineFrame

/-! Independence of the namespaces over whole runs. The lines of one group read and write one
namespace, and only the group of the values has to do with the prompt. What a run makes of a
namespace is therefore what the lines of its group alone make of it, in whatever company they
are. -/
namespace Linewise

/-- The part of the language to which a line belongs. -/
inductive Part where
  /-- Lines on one namespace. -/
  | group (n : Namespace)
  /-- Lines on no namespace. -/
  | neutral
  /-- Lines on several namespaces. -/
  | across
deriving DecidableEq, Repr

/-- The part to which the lines with a keyword belong. Saving counts as neutral: it reads all
namespaces, but only for the file. -/
def Keyword.part : Keyword → Part
  | .assign | .input | .onlyIf | .countDown | .define | .attempt => .group .values
  | .array | .push | .pop => .group .arrays
  | .dict | .set | .get => .group .dictionaries
  | .newClass | .method => .group .classes
  | .help | .exit | .save => .neutral
  | .print | .load | .delete | .clear => .across

/-- The part to which a line belongs. Blank lines and unknown first words are neutral. -/
def partOf (line : String) : Part :=
  ((Keyword.heading? (Text.wordsOf line)).map Keyword.part).getD .neutral

theorem partOf_of_heading {line : String} {k : Keyword}
    (heads : Keyword.heading? (Text.wordsOf line) = some k) : partOf line = k.part := by
  rw [partOf, heads]
  rfl

/-- The lines of one part, in their order. -/
def linesOf (p : Part) (lines : List String) : List String :=
  lines.filter fun line => partOf line = p

/-- What the lines of one part show, in their order. -/
def notesOf (p : Part) (notes : List (String × Option String)) : List (String × Option String) :=
  notes.filter fun note => partOf note.1 = p

/-- Every line stays within one namespace. -/
def Confined (lines : List String) : Prop :=
  ∀ line ∈ lines, partOf line ≠ .across

instance (lines : List String) : Decidable (Confined lines) :=
  inferInstanceAs (Decidable (∀ line ∈ lines, partOf line ≠ .across))

/-! ## Lines of one group -/

/-- Two outcomes that cannot be told apart by one namespace and the output. -/
structure Outcome.Matches (n : Namespace) (a b : Outcome) : Prop where
  table : a.store.table n = b.store.table n
  output : a.output = b.output

/-- Two steps that cannot be told apart by one namespace and the output, as long as the same
questions have the same replies. Only the group of the values has questions, and no group has to do
with files. -/
def Step.Matches (n : Namespace) : Step → Step → Prop
  | .done a, .done b => a.Matches n b
  | .ask name resume, .ask other again =>
    n = .values ∧ name = other ∧ ∀ reply, (resume reply).Matches n (again reply)
  | _, _ => False

namespace Command

variable {s t : Store}

theorem step_values {command : Command} (part : command.keyword.part = .group .values)
    (same : s.variables = t.variables) : (command.step s).Matches .values (command.step t) := by
  have bound (name : String) (v : Value) : (s.bind name v).variables = (t.bind name v).variables :=
    congrArg (fun table => table.insert name v) same
  have scope : s.scope = t.scope := by
    funext name
    rw [Store.scope, Store.scope, same]
  cases command <;> cases part
  case assign name source =>
    simp only [step, Store.assign, scope]
    exact ⟨bound name _, rfl⟩
  case input name =>
    refine ⟨rfl, rfl, ?_⟩
    intro reply
    cases reply with
    | none => exact ⟨same, rfl⟩
    | some text => exact ⟨bound name _, rfl⟩
  case onlyIf name text =>
    simp only [step, Store.onlyIf, same]
    cases t.variables.get? name with
    | none => exact ⟨same, rfl⟩
    | some v =>
      cases numeric : v.number? with
      | none =>
        simp only [numeric]
        exact ⟨same, rfl⟩
      | some n =>
        simp only [numeric]
        split
        · exact ⟨same, rfl⟩
        · exact ⟨same, rfl⟩
  case countDown name =>
    simp only [step, Store.countDown, same]
    cases t.variables.get? name with
    | none => exact ⟨same, rfl⟩
    | some v =>
      cases counted : Store.countedDown? v with
      | none =>
        simp only [counted]
        exact ⟨same, rfl⟩
      | some rest =>
        simp only [counted]
        exact ⟨bound name rest, rfl⟩
  case define name => exact ⟨bound name _, rfl⟩
  case attempt source =>
    simp only [step, Store.attempt, scope]
    split
    · exact ⟨same, rfl⟩
    · exact ⟨same, rfl⟩
    · exact ⟨same, rfl⟩

theorem step_arrays {command : Command} (part : command.keyword.part = .group .arrays)
    (same : s.arrays = t.arrays) : (command.step s).Matches .arrays (command.step t) := by
  cases command <;> cases part
  case array name =>
    simp only [step, same]
    exact ⟨rfl, rfl⟩
  case push name value =>
    simp only [step, Store.push, same]
    cases t.arrays.get? name with
    | none => exact ⟨same, rfl⟩
    | some items => exact ⟨rfl, rfl⟩
  case pop name =>
    simp only [step, Store.pop, same]
    cases t.arrays.get? name with
    | none => exact ⟨same, rfl⟩
    | some items =>
      cases last : items.back? with
      | none =>
        simp only [last]
        exact ⟨same, rfl⟩
      | some value =>
        simp only [last]
        exact ⟨rfl, rfl⟩

theorem step_dictionaries {command : Command} (part : command.keyword.part = .group .dictionaries)
    (same : s.dictionaries = t.dictionaries) :
    (command.step s).Matches .dictionaries (command.step t) := by
  cases command <;> cases part
  case dict name =>
    simp only [step, same]
    exact ⟨rfl, rfl⟩
  case set name key value =>
    simp only [step, Store.set, same]
    cases t.dictionaries.get? name with
    | none => exact ⟨same, rfl⟩
    | some table => exact ⟨rfl, rfl⟩
  case get name key =>
    simp only [step, Store.get, same]
    cases (t.dictionaries.get? name).bind (·.get? key) with
    | none => exact ⟨same, rfl⟩
    | some value => exact ⟨same, rfl⟩

theorem step_classes {command : Command} (part : command.keyword.part = .group .classes)
    (same : s.classes = t.classes) : (command.step s).Matches .classes (command.step t) := by
  cases command <;> cases part
  case newClass name =>
    simp only [step, same]
    exact ⟨rfl, rfl⟩
  case method name added =>
    simp only [step, Store.addMethod, same]
    cases t.classes.get? name with
    | none => exact ⟨same, rfl⟩
    | some table => exact ⟨rfl, rfl⟩

/-- The commands of a group see only their namespace. -/
theorem step_matches {command : Command} {n : Namespace} (part : command.keyword.part = .group n)
    (same : s.table n = t.table n) : (command.step s).Matches n (command.step t) := by
  cases n with
  | values => exact step_values part same
  | arrays => exact step_arrays part same
  | dictionaries => exact step_dictionaries part same
  | classes => exact step_classes part same

end Command

/-! ## Runs -/

/-- A keyword reaches only the namespace of its group. -/
theorem Keyword.reaches_of_part {k : Keyword} {n : Namespace} (other : k.part ≠ .group n)
    (confined : k.part ≠ .across) : k.access.reaches n = false := by
  cases k <;> cases n <;> first | rfl | exact absurd rfl other | exact absurd rfl confined

namespace Surroundings

variable {π φ : Type} {w : Surroundings π φ}

/-- Two scenes that the lines of one group cannot tell apart. The prompt matters only to the group
of the values. -/
structure Agree (n : Namespace) (s t : Scene π φ) : Prop where
  table : s.store.table n = t.store.table n
  prompt : n = .values → s.prompt = t.prompt

theorem Agree.refl (n : Namespace) (s : Scene π φ) : Agree n s s :=
  ⟨rfl, fun _ => rfl⟩

theorem Agree.trans {n : Namespace} {s t u : Scene π φ} (first : Agree n s t)
    (second : Agree n t u) : Agree n s u :=
  ⟨first.table.trans second.table, fun v => (first.prompt v).trans (second.prompt v)⟩

/-- Steps that match lead from scenes that agree to scenes that agree. -/
theorem Agree.answer {n : Namespace} {s t : Scene π φ} (agree : Agree n s t) {a b : Step}
    (matching : a.Matches n b) :
    Agree n (w.answer s a).1 (w.answer t b).1 ∧ (w.answer s a).2 = (w.answer t b).2 := by
  cases a <;> cases b <;> first | exact matching.elim | skip
  case done.done a b => exact ⟨⟨matching.table, agree.prompt⟩, matching.output⟩
  case ask.ask name resume other again =>
    obtain ⟨rfl, rfl, replies⟩ := matching
    have prompts := agree.prompt rfl
    simp only [Surroundings.answer, prompts]
    exact ⟨⟨(replies _).table, fun _ => rfl⟩, (replies _).output⟩

/-- A line of the group leads from scenes that agree to scenes that agree, with the same output. -/
theorem Agree.own_line {n : Namespace} {s t : Scene π φ} (agree : Agree n s t) {line : String}
    (own : partOf line = .group n) :
    Agree n (w.execute s line).1 (w.execute t line).1 ∧
      (w.execute s line).2 = (w.execute t line).2 := by
  -- Which command a line makes does not depend on the store, so both scenes take the same branch.
  obtain ⟨absent, -⟩ | ⟨k, args, e, said, wrong, does⟩ | ⟨k, args, command, said, made, does⟩ :=
    s.store.step_heading line
  · rw [partOf, absent] at own
    cases own
  · rw [execute, execute, does, Store.step_of_wrong k.mem_all said wrong]
    exact agree.answer ⟨agree.table, rfl⟩
  · obtain ⟨rfl, -⟩ := Command.ofWords_eq_ok made
    rw [partOf_of_heading (said ▸ Keyword.heading?_cons _ _)] at own
    rw [execute, execute, does, Store.step_of_words command.keyword.mem_all said made]
    exact agree.answer (Command.step_matches own agree.table)

/-- A line of another group, or of none, leaves the scene as the group sees it. -/
theorem other_line_agree {n : Namespace} (s : Scene π φ) {line : String}
    (other : partOf line ≠ .group n) (confined : partOf line ≠ .across) :
    Agree n (w.execute s line).1 s where
  table := by
    refine w.execute_table s ?_
    intro k heads
    rw [partOf_of_heading heads] at other confined
    exact Keyword.reaches_of_part other confined
  prompt := by
    rintro rfl
    rw [execute_prompt]
    split
    · rename_i heads _
      exact absurd (partOf_of_heading heads) other
    · rfl

/-- The lines of a group make of its namespace, and show, what they do alone. -/
theorem Agree.run {n : Namespace} {s t : Scene π φ} (agree : Agree n s t) {lines : List String}
    (confined : Confined lines) :
    Agree n (w.run s lines).1 (w.run t (linesOf (.group n) lines)).1 ∧
      notesOf (.group n) (w.run s lines).2 = (w.run t (linesOf (.group n) lines)).2 := by
  induction lines generalizing s t with
  | nil => exact ⟨agree, rfl⟩
  | cons line more ih =>
    obtain ⟨inside, rest⟩ := List.forall_mem_cons.mp confined
    by_cases own : partOf line = .group n
    · obtain ⟨next, output⟩ := agree.own_line (w := w) own
      obtain ⟨last, notes⟩ := ih next rest
      rw [linesOf, List.filter_cons_of_pos (by simpa using own), run_cons, run_cons, notesOf,
        List.filter_cons_of_pos (by simpa using own), output]
      exact ⟨last, congrArg _ notes⟩
    · -- The group alone skips this line: only the first scene moves, and unseen by the group.
      have next : Agree n (w.execute s line).1 t := (other_line_agree s own inside).trans agree
      rw [linesOf, List.filter_cons_of_neg (by simpa using own), run_cons, notesOf,
        List.filter_cons_of_neg (by simpa using own)]
      exact ih next rest

/-- After a run there is a wish to leave if there was one before, or a line has asked for it. -/
theorem run_leaving (w : Surroundings π φ) (s : Scene π φ) (lines : List String) :
    (w.run s lines).1.store.leaving =
      (s.store.leaving || lines.any fun line =>
        Keyword.heading? (Text.wordsOf line) == some .exit) := by
  induction lines generalizing s with
  | nil => exact (Bool.or_false _).symm
  | cons line more ih =>
    rw [run_cons, ih, (w.execute_framed s line).leaving, List.any_cons, Bool.or_assoc]

/-- Only neutral lines ask to leave. -/
theorem any_exit_linesOf (lines : List String) :
    ((linesOf .neutral lines).any fun line =>
        Keyword.heading? (Text.wordsOf line) == some .exit) =
      lines.any fun line => Keyword.heading? (Text.wordsOf line) == some .exit := by
  rw [linesOf, List.any_filter]
  refine congrArg lines.any (funext fun line => ?_)
  by_cases leaves : Keyword.heading? (Text.wordsOf line) = some .exit
  · simp [leaves, partOf_of_heading leaves, Keyword.part]
  · simp [leaves]

/-- The namespaces are independent of each other over whole runs. In a run of lines that each stay
within one namespace, every namespace ends as if only the lines of its group had been run, from the
same scene, and these lines show the same. Hence two runs that interleave the same lines of each
group end with the same namespaces and the same outputs of each group, and with the same store if
their neutral lines are the same too. -/
theorem namespaces_independent (w : Surroundings π φ) (start : Scene π φ) :
    (∀ lines, Confined lines → ∀ n,
      let alone := w.run start (linesOf (.group n) lines)
      (w.run start lines).1.store.table n = alone.1.store.table n ∧
        notesOf (.group n) (w.run start lines).2 = alone.2) ∧
    ∀ first second, Confined first → Confined second →
      (∀ n, linesOf (.group n) first = linesOf (.group n) second) →
      (∀ n, (w.run start first).1.store.table n = (w.run start second).1.store.table n ∧
        notesOf (.group n) (w.run start first).2 = notesOf (.group n) (w.run start second).2) ∧
      (linesOf .neutral first = linesOf .neutral second →
        (w.run start first).1.store = (w.run start second).1.store) := by
  have alone {lines : List String} (confined : Confined lines) (n : Namespace) :=
    (Agree.refl n start).run (w := w) confined
  refine ⟨fun lines confined n => ⟨(alone confined n).1.table, (alone confined n).2⟩, ?_⟩
  intro first second confinedFirst confinedSecond groups
  have tables (n : Namespace) :
      (w.run start first).1.store.table n = (w.run start second).1.store.table n := by
    rw [(alone confinedFirst n).1.table, (alone confinedSecond n).1.table, groups n]
  refine ⟨fun n => ⟨tables n, ?_⟩, ?_⟩
  · rw [(alone confinedFirst n).2, (alone confinedSecond n).2, groups n]
  · intro neutral
    refine Store.eq_of_tables tables ?_
    rw [run_leaving, run_leaving, ← any_exit_linesOf first, ← any_exit_linesOf second, neutral]

/-- A session with two replies, of which the second cancels its question. -/
def replying : Session where
  store := { arrays := .ofList [("x", #[7])] }
  prompt := .script { replies := [some "2.5", none] }

/-- Lines of all groups on one name, some of them wrong. -/
def mingled : List String :=
  [ "array y", "input x", "dict x", "push x = 3", "class x", "while x", "exit", "pop x",
    "set x k = x", "input x", "method x k", "set x k = 4", "try x / 0", "pop x", "get x k",
    "if x then shown", "no x" ]

/-- The same lines, group after group. -/
def sorted : List String :=
  linesOf (.group .classes) mingled ++ linesOf .neutral mingled ++
    linesOf (.group .dictionaries) mingled ++ linesOf (.group .values) mingled ++
    linesOf (.group .arrays) mingled

theorem namespaces_independent_mingled :
    Confined mingled ∧ Confined sorted ∧
      (∀ n, linesOf (.group n) mingled = linesOf (.group n) sorted) ∧
      linesOf .neutral mingled = linesOf .neutral sorted ∧
      (replying.executeAll mingled).1.store = (replying.executeAll sorted).1.store := by
  have confined : Confined mingled ∧ Confined sorted := by decide +kernel
  have groups (n : Namespace) : linesOf (.group n) mingled = linesOf (.group n) sorted := by
    cases n <;> decide +kernel
  have neutral : linesOf .neutral mingled = linesOf .neutral sorted := by decide +kernel
  have stores := ((namespaces_independent ofSession replying.scene).2 mingled sorted confined.1
    confined.2 groups).2 neutral
  rw [← (Session.executeAll_eq rfl mingled).1, ← (Session.executeAll_eq rfl sorted).1] at stores
  exact ⟨confined.1, confined.2, groups, neutral, stores⟩

end Surroundings

end Linewise
