import Linewise.Proofs.Namespaces
import Linewise.Proofs.Surroundings

/-! What a line may change. Every keyword has one way of access to the store: it looks, it edits one
entry of one namespace, it deletes a name, it replaces all namespaces, or it asks to leave. What
holds of all lines follows from the ways of access, and not from the single commands. -/
namespace Linewise

/-- What a line with a keyword may do to a store. -/
inductive Access where
  /-- Nothing. -/
  | look
  /-- Change the entry of one name in one namespace. -/
  | edit (n : Namespace)
  /-- Remove a name from the namespace that holds it. -/
  | delete
  /-- Put other namespaces in the place of all four. -/
  | replace
  /-- Ask to leave. -/
  | leave
deriving DecidableEq, Repr

/-- The way of access of each keyword. -/
def Keyword.access : Keyword → Access
  | .print | .onlyIf | .get | .attempt | .help | .save => .look
  | .assign | .input | .countDown | .define => .edit .values
  | .array | .push | .pop => .edit .arrays
  | .dict | .set => .edit .dictionaries
  | .newClass | .method => .edit .classes
  | .delete => .delete
  | .load | .clear => .replace
  | .exit => .leave

/-- A way of access allows a change of the store by a line with the given words behind its
keyword. -/
def Access.Allows (args : List String) (s t : Store) : Access → Prop
  | .look => t = s
  | .edit n => ∃ name more, args = name :: more ∧ s.Edited n name t
  | .delete => ∃ name more, args = name :: more ∧ t = s.delete name
  | .replace => ∃ other, t = s.withNamespaces other
  | .leave => t = { s with leaving := true }

namespace Access

/-- Whether a way of access reaches a namespace. Deletions do not reach the classes. -/
def reaches : Access → Namespace → Bool
  | .look, _ | .leave, _ => false
  | .edit n, m => m == n
  | .delete, m => m != .classes
  | .replace, _ => true

variable {a : Access} {args : List String} {s t : Store}

/-- A namespace out of reach stays as it is. -/
theorem Allows.table_eq (allowed : a.Allows args s t) {n : Namespace}
    (apart : a.reaches n = false) : t.table n = s.table n := by
  cases a with
  | look => rw [show t = s from allowed]
  | leave =>
    obtain rfl : t = { s with leaving := true } := allowed
    cases n <;> rfl
  | edit m =>
    obtain ⟨name, more, -, edited⟩ := allowed
    exact edited.table_of_ne (by simpa [reaches] using apart)
  | delete =>
    obtain ⟨name, more, -, rfl⟩ := allowed
    obtain rfl : n = .classes := by simpa [reaches] using apart
    exact Store.table_delete (s.holder?_ne_classes name)
  | replace => cases apart

/-- Only one entry of one namespace changes, unless all are replaced. -/
theorem Allows.one_entry (allowed : a.Allows args s t) (kept : a ≠ .replace) :
    ∃ n : Namespace, (∀ m, m ≠ n → t.table m = s.table m) ∧
      ∀ name, args.head? ≠ some name → (t.table n).get? name = (s.table n).get? name := by
  have edited {n : Namespace} {name : String} {more : List String} (said : args = name :: more)
      (edited : s.Edited n name t) :
      ∃ n : Namespace, (∀ m, m ≠ n → t.table m = s.table m) ∧
        ∀ name, args.head? ≠ some name → (t.table n).get? name = (s.table n).get? name := by
    refine ⟨n, fun m other => edited.table_of_ne other, ?_⟩
    intro probe different
    apply edited.get?_of_ne
    rintro rfl
    exact different (by rw [said]; rfl)
  cases a with
  | look | leave =>
    refine ⟨.values, fun m _ => allowed.table_eq rfl, ?_⟩
    intro name _
    rw [allowed.table_eq rfl]
  | edit n =>
    obtain ⟨name, more, said, change⟩ := allowed
    exact edited said change
  | delete =>
    obtain ⟨name, more, said, rfl⟩ := allowed
    obtain ⟨n, change⟩ := s.delete_edited name
    exact edited said change
  | replace => exact absurd rfl kept

theorem Allows.leaving (allowed : a.Allows args s t) :
    t.leaving = (s.leaving || decide (a = .leave)) := by
  cases a with
  | look => simp [show t = s from allowed]
  | leave => simp [show t = { s with leaving := true } from allowed]
  | edit n =>
    obtain ⟨name, more, -, edited⟩ := allowed
    simp [edited.leaving]
  | delete =>
    obtain ⟨name, more, -, rfl⟩ := allowed
    obtain ⟨n, edited⟩ := s.delete_edited name
    simp [edited.leaving]
  | replace =>
    obtain ⟨other, rfl⟩ := allowed
    simp [Store.withNamespaces]

end Access

namespace Command

/-- The keyword of a command. -/
def keyword : Command → Keyword
  | .assign _ _ => .assign
  | .print _ => .print
  | .input _ => .input
  | .onlyIf _ _ => .onlyIf
  | .countDown _ => .countDown
  | .define _ => .define
  | .array _ => .array
  | .push _ _ => .push
  | .pop _ => .pop
  | .dict _ => .dict
  | .set _ _ _ => .set
  | .get _ _ => .get
  | .newClass _ => .newClass
  | .method _ _ => .method
  | .attempt _ => .attempt
  | .help _ => .help
  | .exit => .exit
  | .save _ => .save
  | .load _ => .load
  | .delete _ => .delete
  | .clear => .clear

/-- The words that a command takes as they are. -/
def arguments : Command → List String
  | .set name key _ | .get name key | .method name key => [name, key]
  | .attempt _ | .exit | .clear => []
  | .assign name _ | .print name | .input name | .onlyIf name _ | .countDown name | .define name
  | .array name | .push name _ | .pop name | .dict name | .newClass name | .help name | .save name
  | .load name | .delete name => [name]

theorem named_eq_ok {k : Keyword} {make : String → Command} {words : List String}
    {command : Command} (made : named k make words = .ok command) :
    ∃ name more, words = name :: more ∧ command = make name := by
  cases words with
  | nil => cases made
  | cons name more =>
    cases made
    exact ⟨name, more, rfl, rfl⟩

theorem integer_eq_ok {k : Keyword} {word : String} {make : Int64 → Command} {command : Command}
    (made : integer k word make = .ok command) :
    ∃ n, Integer.ofText? word.toList = some n ∧ command = make n := by
  unfold integer at made
  split at made
  · cases made
    exact ⟨_, ‹_›, rfl⟩
  · cases made

/-- A command belongs to the keyword it is made of, and takes its arguments from the front of the
words behind it. -/
theorem ofWords_eq_ok {k : Keyword} {words : List String} {command : Command}
    (made : ofWords k words = .ok command) :
    command.keyword = k ∧ command.arguments <+: words := by
  cases k
  case assign =>
    simp only [ofWords] at made
    split at made
    · split at made
      · cases made
        exact ⟨rfl, List.prefix_append [_] _⟩
      · cases made
    · cases made
  case onlyIf =>
    simp only [ofWords] at made
    split at made
    · cases made
    · cases made
      exact ⟨rfl, List.prefix_append [_] _⟩
  case get | method =>
    simp only [ofWords] at made
    split at made
    · cases made
    · cases made
    · cases made
      exact ⟨rfl, List.prefix_append [_, _] _⟩
  case push =>
    simp only [ofWords] at made
    split at made
    iterate 3 · cases made
    obtain ⟨n, -, rfl⟩ := integer_eq_ok made
    exact ⟨rfl, List.prefix_append [_] _⟩
  case set =>
    simp only [ofWords] at made
    split at made
    iterate 4 · cases made
    obtain ⟨n, -, rfl⟩ := integer_eq_ok made
    exact ⟨rfl, List.prefix_append [_, _] _⟩
  case attempt | exit | clear =>
    cases made
    exact ⟨rfl, List.nil_prefix⟩
  all_goals
    obtain ⟨name, more, rfl, rfl⟩ := named_eq_ok made
    exact ⟨rfl, List.prefix_append [name] more⟩

theorem exists_of_arguments {name : String} {rest words : List String}
    (taken : name :: rest <+: words) : ∃ more, words = name :: more := by
  obtain ⟨more, rfl⟩ := taken
  exact ⟨rest ++ more, rfl⟩

/-- Every outcome of a command is one that its way of access allows. -/
theorem step_allowed {command : Command} {words : List String} {s : Store} {outcome : Outcome}
    (taken : command.arguments <+: words) (yields : (command.step s).Yields outcome) :
    command.keyword.access.Allows words s outcome.store := by
  have edits {n : Namespace} {name : String} {rest : List String} {t : Store}
      (front : name :: rest <+: words) (edited : s.Edited n name t) :
      (Access.edit n).Allows words s t := by
    obtain ⟨more, same⟩ := exists_of_arguments front
    exact ⟨name, more, same, edited⟩
  cases command with
  | print name | help topic =>
    cases yields
    rfl
  | onlyIf name text =>
    cases yields
    exact s.onlyIf_store name text
  | get name key =>
    cases yields
    exact s.get_store name key
  | attempt source =>
    cases yields
    exact s.attempt_store source
  | save path =>
    cases yields
    exact s.saved_store path _
  | assign name source =>
    cases yields
    exact edits taken (s.edited_insert .values name _)
  | define name =>
    cases yields
    exact edits taken (s.edited_insert .values name _)
  | input name =>
    cases yields with
    | ask _ _ reply =>
      cases reply with
      | none => exact edits taken (s.edited_refl .values name)
      | some text => exact edits taken (s.edited_insert .values name _)
  | countDown name =>
    cases yields
    refine edits taken ?_
    unfold Store.countDown
    split
    · exact s.edited_refl .values name
    · split
      · exact s.edited_refl .values name
      · exact s.edited_insert .values name _
  | array name =>
    cases yields
    exact edits taken (s.edited_insert .arrays name _)
  | push name value =>
    cases yields
    refine edits taken ?_
    unfold Store.push
    split
    · exact s.edited_refl .arrays name
    · exact s.edited_insert .arrays name _
  | pop name =>
    cases yields
    refine edits taken ?_
    unfold Store.pop
    split
    · exact s.edited_refl .arrays name
    · split
      · exact s.edited_refl .arrays name
      · exact s.edited_insert .arrays name _
  | dict name =>
    cases yields
    exact edits taken (s.edited_insert .dictionaries name _)
  | set name key value =>
    cases yields
    refine edits taken ?_
    unfold Store.set
    split
    · exact s.edited_refl .dictionaries name
    · exact s.edited_insert .dictionaries name _
  | newClass name =>
    cases yields
    exact edits taken (s.edited_insert .classes name _)
  | method name added =>
    cases yields
    refine edits taken ?_
    unfold Store.addMethod
    split
    · exact s.edited_refl .classes name
    · exact s.edited_insert .classes name _
  | delete name =>
    cases yields
    obtain ⟨more, same⟩ := exists_of_arguments taken
    exact ⟨name, more, same, rfl⟩
  | load path =>
    cases yields with
    | read _ _ answer =>
      unfold Store.loaded
      split
      · exact ⟨s, rfl⟩
      · split
        · exact ⟨s, rfl⟩
        · exact ⟨_, rfl⟩
  | clear =>
    cases yields
    exact ⟨{}, rfl⟩
  | exit =>
    cases yields
    rfl

end Command

/-! ## Lines -/

namespace Keyword

/-- The keyword of a line with the given words; none if the line is blank or its first word is no
keyword. -/
def heading? (words : List String) : Option Keyword :=
  words.head?.bind fun first => all.find? fun k => k.name == first

@[simp]
theorem heading?_cons (k : Keyword) (args : List String) : heading? (k.name :: args) = some k :=
  find?_name k.mem_all

/-- A keyword heads exactly the lines whose first word is its name. -/
theorem heading?_eq_some_iff {words : List String} {k : Keyword} :
    heading? words = some k ↔ words.head? = some k.name := by
  cases words with
  | nil => simp [heading?]
  | cons first args =>
    constructor
    · intro heads
      have found : all.find? (fun l => l.name == first) = some k := heads
      have same := List.find?_some found
      rw [List.head?_cons, beq_iff_eq.mp same]
    · intro said
      obtain rfl := Option.some.inj said
      exact heading?_cons k args

theorem heading?_of_unknown {first : String} (unknown : ∀ k ∈ all, k.name ≠ first)
    (args : List String) : heading? (first :: args) = none :=
  find?_of_foreign unknown

theorem access_eq_replace {k : Keyword} (replaces : k.access = .replace) :
    k = .load ∨ k = .clear := by
  cases k <;> first | exact .inl rfl | exact .inr rfl | cases replaces

theorem access_eq_leave (k : Keyword) : decide (k.access = .leave) = (some k == some .exit) := by
  cases k <;> rfl

theorem reaches_of_looking {k : Keyword}
    (looking : k ∈ [print, .onlyIf, .get, .attempt, .help, .save, .exit]) (n : Namespace) :
    k.access.reaches n = false := by
  cases k <;> first | rfl | exact absurd looking (by decide)

theorem reaches_classes {k : Keyword} (apart : k ∉ [newClass, .method, .clear, .load]) :
    k.access.reaches .classes = false := by
  cases k <;> first | rfl | exact absurd apart (by decide)

end Keyword

/-- A line without a keyword and a line with wrong arguments leave the store; every other line does
what its command does. -/
theorem Store.step_heading (s : Store) (line : String) :
    (Keyword.heading? (Text.wordsOf line) = none ∧
      ∃ output, s.step Keyword.all line = .done ⟨s, output⟩) ∨
    (∃ k args e, Text.wordsOf line = k.name :: args ∧ Command.ofWords k args = .error e ∧
      s.step Keyword.all line = .done (s.fails (.args e))) ∨
    ∃ k args command, Text.wordsOf line = k.name :: args ∧ Command.ofWords k args = .ok command ∧
      s.step Keyword.all line = command.step s := by
  obtain ⟨blank, does⟩ | ⟨first, args, said, unknown, does⟩ | ⟨k, args, e, -, rest⟩ |
    ⟨k, args, command, -, rest⟩ := s.step_cases Keyword.all line
  · exact .inl ⟨by rw [blank]; rfl, _, does⟩
  · exact .inl ⟨by rw [said]; exact Keyword.heading?_of_unknown unknown args, _, does⟩
  · exact .inr (.inl ⟨k, args, e, rest⟩)
  · exact .inr (.inr ⟨k, args, command, rest⟩)

/-- What a line with a keyword and the words behind it leaves as it is. There is no keyword in a
blank line and in one whose first word is unknown. -/
structure Framed (keyword : Option Keyword) (args : List String) (s t : Store) : Prop where
  /-- Only the entry of the first argument changes, in one namespace. -/
  one_entry : keyword ≠ some .load → keyword ≠ some .clear →
    ∃ n : Namespace, (∀ m, m ≠ n → t.table m = s.table m) ∧
      ∀ name, args[0]? ≠ some name → (t.table n).get? name = (s.table n).get? name
  /-- Setting a key reaches the dictionaries only. -/
  only_dictionaries : keyword = some .set → ∀ n, n ≠ .dictionaries → t.table n = s.table n
  /-- In a dictionary only the key that is the second argument changes. -/
  one_key : keyword = some .set → ∀ name key, args[1]? ≠ some key →
    (t.dictionaries.get? name).map (·.get? key) = (s.dictionaries.get? name).map (·.get? key)
  /-- Adding a method reaches the classes only. -/
  only_classes : keyword = some .method → ∀ n, n ≠ .classes → t.table n = s.table n
  /-- In a class only the method that is the second argument changes. -/
  one_method : keyword = some .method → ∀ name method, args[1]? ≠ some method →
    (t.classes.get? name).map (·.get? method) = (s.classes.get? name).map (·.get? method)
  /-- Lines that only look change no namespace. -/
  looks : (∀ k ∈ keyword, k ∈ [Keyword.print, .onlyIf, .get, .attempt, .help, .save, .exit]) →
    ∀ n, t.table n = s.table n
  /-- A deletion keeps all namespaces but the first one that holds the name. -/
  first_holder : keyword = some .delete →
    ∀ n, (∀ name ∈ args[0]?, s.holder? name ≠ some n) → t.table n = s.table n
  /-- From the first namespace that holds it, the name is deleted. -/
  deleted : keyword = some .delete →
    ∀ name ∈ args[0]?, ∀ n ∈ s.holder? name, (t.table n).get? name = none
  /-- Few keywords change classes. -/
  classes : (∀ k ∈ keyword, k ∉ [Keyword.newClass, .method, .clear, .load]) →
    t.classes = s.classes
  /-- The wish to leave stays, and only one keyword adds it. -/
  leaving : t.leaving = (s.leaving || keyword == some .exit)

namespace Framed

/-- A line that leaves the store is framed, unless it had to delete a name or to add the wish to
leave. -/
theorem refl {keyword : Option Keyword} {args : List String} (stays : keyword ≠ some .exit)
    (vain : keyword = some .delete → args = []) (s : Store) : Framed keyword args s s where
  one_entry _ _ := ⟨.values, fun _ _ => rfl, fun _ _ => rfl⟩
  only_dictionaries _ _ _ := rfl
  one_key _ _ _ _ := rfl
  only_classes _ _ _ := rfl
  one_method _ _ _ _ := rfl
  looks _ _ := rfl
  first_holder _ _ _ := rfl
  deleted removes name given := by
    rw [vain removes] at given
    cases given
  classes _ := rfl
  leaving := by
    have other : (keyword == some .exit) = false := by simpa using stays
    rw [other, Bool.or_false]

end Framed

namespace Table

/-- A key put into an inner table leaves all other keys, and all other inner tables. -/
theorem inner_insert {α : Type} {t : Table (Table α)} {name : String} {inner : Table α}
    (found : t.get? name = some inner) {key other : String} (different : other ≠ key) (v : α)
    (probe : String) :
    ((t.insert name (inner.insert key v)).get? probe).map (·.get? other) =
      (t.get? probe).map (·.get? other) := by
  rw [Table.get?_insert]
  split
  · subst probe
    rw [found, Option.map_some, Option.map_some, Table.get?_insert, if_neg different]
  · rfl

end Table

namespace Store

theorem set_inner (s : Store) (name : String) {key other : String} (different : other ≠ key)
    (value : Int64) (probe : String) :
    ((s.set name key value).store.dictionaries.get? probe).map (·.get? other) =
      (s.dictionaries.get? probe).map (·.get? other) := by
  unfold set
  split
  · rfl
  · exact Table.inner_insert ‹_› different value probe

theorem addMethod_inner (s : Store) (name : String) {method other : String}
    (different : other ≠ method) (probe : String) :
    ((s.addMethod name method).store.classes.get? probe).map (·.get? other) =
      (s.classes.get? probe).map (·.get? other) := by
  unfold addMethod
  split
  · rfl
  · exact Table.inner_insert ‹_› different methodMark probe

end Store

namespace Command

/-- Leaving takes no arguments, and a deletion is refused only without a name. -/
theorem ofWords_error {k : Keyword} {args : List String} {e : ArgsError}
    (wrong : ofWords k args = .error e) : k ≠ .exit ∧ (k = .delete → args = []) := by
  constructor
  · rintro rfl
    cases wrong
  · rintro rfl
    cases args with
    | nil => rfl
    | cons name more => cases wrong

/-- Every outcome of a command is framed. -/
theorem step_framed {command : Command} {args : List String} {s : Store} {outcome : Outcome}
    (taken : command.arguments <+: args) (yields : (command.step s).Yields outcome) :
    Framed (some command.keyword) args s outcome.store where
  one_entry notLoad notClear := by
    rw [← List.head?_eq_getElem?]
    refine (step_allowed taken yields).one_entry ?_
    intro replaces
    obtain load | clear := Keyword.access_eq_replace replaces
    · exact notLoad (congrArg some load)
    · exact notClear (congrArg some clear)
  only_dictionaries sets n other := by
    apply (step_allowed taken yields).table_eq
    rw [Option.some.inj sets]
    exact beq_false_of_ne other
  one_key sets := by
    cases command <;> cases sets
    case set name key value =>
      obtain ⟨more, rfl⟩ := taken
      cases yields
      intro probe other different
      refine s.set_inner name ?_ value probe
      rintro rfl
      exact different rfl
  only_classes adds n other := by
    apply (step_allowed taken yields).table_eq
    rw [Option.some.inj adds]
    exact beq_false_of_ne other
  one_method adds := by
    cases command <;> cases adds
    case method name added =>
      obtain ⟨more, rfl⟩ := taken
      cases yields
      intro probe other different
      refine s.addMethod_inner name ?_ probe
      rintro rfl
      exact different rfl
  looks looking n :=
    (step_allowed taken yields).table_eq (Keyword.reaches_of_looking (looking _ rfl) n)
  first_holder removes := by
    cases command <;> cases removes
    case delete name =>
      obtain ⟨more, rfl⟩ := taken
      cases yields
      intro n other
      exact Store.table_delete (other name rfl)
  deleted removes := by
    cases command <;> cases removes
    case delete name =>
      obtain ⟨more, rfl⟩ := taken
      cases yields
      intro given said n held
      obtain rfl : name = given := Option.some.inj said
      change ((s.delete name).table n).get? name = none
      rw [Store.delete_of_holder? held, Store.table_withTable, Table.get?_erase, if_pos rfl]
  classes apart :=
    (step_allowed taken yields).table_eq (Keyword.reaches_classes (apart _ rfl))
  leaving := by
    rw [(step_allowed taken yields).leaving, Keyword.access_eq_leave]

end Command

namespace Surroundings

variable {π φ : Type} (w : Surroundings π φ)

/-- The prompt is asked by an input with a name, once, and by no other line. -/
theorem execute_prompt (before : Scene π φ) (line : String) :
    (w.execute before line).1.prompt =
      match Keyword.heading? (Text.wordsOf line), (Text.wordsOf line).tail with
      | some .input, name :: _ => (w.ask before.prompt name).1
      | _, _ => before.prompt := by
  rw [execute, answer_prompt]
  obtain ⟨absent, output, does⟩ | ⟨k, args, e, said, wrong, does⟩ |
    ⟨k, args, command, said, made, does⟩ := before.store.step_heading line
  · rw [does, absent]
  · rw [does, said, Keyword.heading?_cons]
    cases k <;> cases args <;> first | rfl | cases wrong
  · rw [does, said, Keyword.heading?_cons]
    obtain ⟨rfl, taken⟩ := Command.ofWords_eq_ok made
    cases command with
    | input name =>
      obtain ⟨more, rfl⟩ := taken
      rfl
    | _ => rfl

/-- A line leaves every namespace that its keyword does not reach. -/
theorem execute_table (before : Scene π φ) {line : String} {n : Namespace}
    (apart : ∀ k ∈ Keyword.heading? (Text.wordsOf line), k.access.reaches n = false) :
    (w.execute before line).1.store.table n = before.store.table n := by
  have yields := w.answer_yields before (before.store.step Keyword.all line)
  rw [execute]
  obtain ⟨-, output, does⟩ | ⟨k, args, e, -, -, does⟩ | ⟨k, args, command, said, made, does⟩ :=
    before.store.step_heading line
  · rw [does]
    rfl
  · rw [does]
    rfl
  · obtain ⟨rfl, taken⟩ := Command.ofWords_eq_ok made
    rw [said, Keyword.heading?_cons] at apart
    rw [does] at yields ⊢
    exact (Command.step_allowed taken yields).table_eq (apart _ rfl)

theorem execute_framed (before : Scene π φ) (line : String) :
    Framed (Keyword.heading? (Text.wordsOf line)) (Text.wordsOf line).tail before.store
      (w.execute before line).1.store := by
  have yields := w.answer_yields before (before.store.step Keyword.all line)
  rw [execute]
  obtain ⟨absent, output, does⟩ | ⟨k, args, e, said, wrong, does⟩ |
    ⟨k, args, command, said, made, does⟩ := before.store.step_heading line
  · rw [does, absent]
    exact Framed.refl (by simp) (by simp) before.store
  · -- Rejected words leave the store, so the keyword must be none that has to change it.
    obtain ⟨stays, vain⟩ := Command.ofWords_error wrong
    rw [does, said, Keyword.heading?_cons]
    exact Framed.refl (by simpa using stays) (by simpa using vain) before.store
  · obtain ⟨rfl, taken⟩ := Command.ofWords_eq_ok made
    rw [does] at yields ⊢
    rw [said, Keyword.heading?_cons]
    exact Command.step_framed taken yields

/-- One line changes at most the entry of its first argument in one namespace, apart from lines that
replace all namespaces. A `set` changes at most one key of one dictionary, a `method` at most one
method of one class, and nothing else. No line takes back the wish to leave, and it asks at most
once, and only for an input with a name. This holds whatever the prompt and the file system
answer. -/
theorem line_framed (before : Scene π φ) (line : String) :
    Framed (Keyword.heading? (Text.wordsOf line)) (Text.wordsOf line).tail before.store
        (w.execute before line).1.store ∧
      (w.execute before line).1.prompt =
        match Keyword.heading? (Text.wordsOf line), (Text.wordsOf line).tail with
        | some .input, name :: _ => (w.ask before.prompt name).1
        | _, _ => before.prompt :=
  ⟨w.execute_framed before line, w.execute_prompt before line⟩

end Surroundings

end Linewise
