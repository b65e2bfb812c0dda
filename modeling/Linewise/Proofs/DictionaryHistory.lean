import Mathlib.Data.List.Induction
import Linewise.Proofs.LineFrame
import Linewise.Proofs.WrittenNumbers

/-! What a dictionary holds is a matter of the history of its session. A key has the value of the
last line that put one there while the dictionary existed, unless some later line took it away: a
new dictionary of the same name, an emptying of all namespaces, or a deletion of the name at a
moment when no variable and no array of this name was found before the dictionary. One step decides
what becomes of a key, and the whole history follows by induction over the lines. -/
namespace Linewise

/-- The value of a key of a dictionary. -/
def Store.field? (s : Store) (name key : String) : Option Int64 :=
  (s.dictionaries.get? name).bind (·.get? key)

/-- A line that puts an integer under a key of a dictionary. The word before the integer can be any,
and words behind it are ignored. -/
def Writes (name key : String) (value : Int64) (line : String) : Prop :=
  ∃ sign word more, Text.wordsOf line = "set" :: name :: key :: sign :: word :: more ∧
    Integer.ofText? word.toList = some value

/-- A line after which the value that a key had before it is gone. -/
inductive Voids (name key : String) (s : Store) (line : String) : Prop where
  /-- The key gets a value anew. -/
  | written (value : Int64) (writes : Writes name key value line)
  /-- The dictionary is made anew. -/
  | renewed (more : List String) (said : Text.wordsOf line = "dict" :: name :: more)
  /-- All namespaces are emptied. -/
  | cleared (more : List String) (said : Text.wordsOf line = "clear" :: more)
  /-- The dictionary is the first thing of its name that a deletion finds. -/
  | deleted (more : List String) (said : Text.wordsOf line = "delete" :: name :: more)
      (noVariable : s.variables.get? name = none) (noArray : s.arrays.get? name = none)

/-! ## Lines as commands -/

/-- The line makes the command. -/
def Makes (line : String) (command : Command) : Prop :=
  ∃ k args, Text.wordsOf line = k.name :: args ∧ Command.ofWords k args = .ok command

theorem Makes.unique {line : String} {first second : Command} (one : Makes line first)
    (other : Makes line second) : first = second := by
  obtain ⟨k, args, said, made⟩ := one
  obtain ⟨l, words, saidAgain, madeAgain⟩ := other
  obtain ⟨names, rfl⟩ := List.cons.inj (said.symm.trans saidAgain)
  obtain rfl := Keyword.name_injective names
  exact Except.ok.inj (made.symm.trans madeAgain)

theorem Makes.iff {line : String} {command other : Command} (makes : Makes line command) :
    Makes line other ↔ other = command := by
  constructor
  · exact fun again => again.unique makes
  · rintro rfl
    exact makes

theorem writes_iff_makes {name key line : String} {value : Int64} :
    Writes name key value line ↔ Makes line (.set name key value) := by
  constructor
  · rintro ⟨sign, word, more, said, read⟩
    refine ⟨.set, _, said, ?_⟩
    simp only [Command.ofWords, Command.integer, read]
  · rintro ⟨k, args, said, made⟩
    obtain ⟨rfl, -⟩ := Command.ofWords_eq_ok made
    simp only [Command.keyword, Command.ofWords] at made
    split at made
    iterate 4 · cases made
    rename_i sign word more
    obtain ⟨n, read, same⟩ := Command.integer_eq_ok made
    cases same
    exact ⟨sign, word, more, said, read⟩

/-- A line that makes a command on one name is known by its first two words. -/
theorem makes_named_iff {k : Keyword} {make : String → Command} {line name : String}
    (alone : ∀ words, Command.ofWords k words = Command.named k make words)
    (own : (make name).keyword = k) (injective : ∀ other, make name = make other → name = other) :
    Makes line (make name) ↔ ∃ more, Text.wordsOf line = k.name :: name :: more := by
  constructor
  · rintro ⟨l, args, said, made⟩
    obtain ⟨rfl, -⟩ := Command.ofWords_eq_ok made
    rw [own, alone] at made
    obtain ⟨other, more, rfl, same⟩ := Command.named_eq_ok made
    obtain rfl := injective other same
    exact ⟨more, own ▸ said⟩
  · rintro ⟨more, said⟩
    exact ⟨k, name :: more, said, alone _⟩

theorem makes_clear_iff {line : String} :
    Makes line .clear ↔ ∃ more, Text.wordsOf line = "clear" :: more := by
  constructor
  · rintro ⟨k, args, said, made⟩
    obtain ⟨rfl, -⟩ := Command.ofWords_eq_ok made
    exact ⟨args, said⟩
  · rintro ⟨more, said⟩
    exact ⟨.clear, more, said, rfl⟩

/-- What becomes of a value is decided by the command of the line. -/
theorem voids_iff {name key line : String} {s : Store} :
    Voids name key s line ↔
      (∃ value, Makes line (.set name key value)) ∨ Makes line (.dict name) ∨ Makes line .clear ∨
        Makes line (.delete name) ∧ s.variables.get? name = none ∧ s.arrays.get? name = none := by
  have dict : Makes line (.dict name) ↔ ∃ more, Text.wordsOf line = "dict" :: name :: more :=
    makes_named_iff (k := .dict) (fun _ => rfl) rfl fun _ => Command.dict.inj
  have delete : Makes line (.delete name) ↔ ∃ more, Text.wordsOf line = "delete" :: name :: more :=
    makes_named_iff (k := .delete) (fun _ => rfl) rfl fun _ => Command.delete.inj
  simp only [← writes_iff_makes, dict, delete, makes_clear_iff]
  constructor
  · rintro (⟨value, writes⟩ | ⟨more, said⟩ | ⟨more, said⟩ | ⟨more, said, noVariable, noArray⟩)
    · exact .inl ⟨value, writes⟩
    · exact .inr (.inl ⟨more, said⟩)
    · exact .inr (.inr (.inl ⟨more, said⟩))
    · exact .inr (.inr (.inr ⟨⟨more, said⟩, noVariable, noArray⟩))
  · rintro (⟨value, writes⟩ | ⟨more, said⟩ | ⟨more, said⟩ | ⟨⟨more, said⟩, noVariable, noArray⟩)
    · exact .written value writes
    · exact .renewed more said
    · exact .cleared more said
    · exact .deleted more said noVariable noArray

/-! ## One line -/

namespace Store

variable (s : Store) (name key : String)

theorem field?_set (other field : String) (value : Int64) :
    (s.set other field value).store.field? name key =
      if name = other ∧ key = field ∧ (s.dictionaries.get? name).isSome then some value
      else s.field? name key := by
  unfold set field?
  cases found : s.dictionaries.get? other with
  | none =>
    rw [if_neg]
    · rfl
    · rintro ⟨rfl, -, present⟩
      simp [found] at present
  | some t =>
    by_cases same : name = other
    · subst same
      by_cases hit : key = field
      · simp [silent, found, hit]
      · simp [silent, found, hit]
    · simp [silent, same]

theorem field?_renew (other : String) :
    field? { s with dictionaries := s.dictionaries.insert other .empty } name key =
      if name = other then none else s.field? name key := by
  unfold field?
  by_cases same : name = other
  · simp [same]
  · simp [same]

theorem field?_delete (other : String) :
    (s.delete other).field? name key =
      if name = other ∧ s.variables.get? name = none ∧ s.arrays.get? name = none then none
      else s.field? name key := by
  unfold delete place? Table.contains field?
  by_cases same : name = other
  · subst same
    cases valued : s.variables.get? name with
    | some v => simp [eraseAt]
    | none =>
      cases listed : s.arrays.get? name with
      | some items => simp [eraseAt]
      | none =>
        cases mapped : s.dictionaries.get? name with
        | none => simp [mapped]
        | some t => simp [eraseAt]
  · simp only [same, false_and, if_false]
    split
    · rename_i place _
      cases place <;> simp [eraseAt, same]
    · rfl

end Store

/-- A command that does not load anything gives a key its value by putting it there, or by not
taking away the one it had. -/
theorem Command.field?_step {command : Command} {s : Store} {outcome : Outcome} {line : String}
    (makes : Makes line command) (yields : (command.step s).Yields outcome)
    (stays : command.keyword ≠ .load) (name key : String) (value : Int64) :
    outcome.store.field? name key = some value ↔
      Writes name key value line ∧ (s.dictionaries.get? name).isSome ∨
        s.field? name key = some value ∧ ¬ Voids name key s line := by
  have untouched (apart : command.keyword.access.reaches .dictionaries = false) :
      outcome.store.field? name key = s.field? name key := by
    have same := (step_allowed List.prefix_rfl yields).table_eq apart
    rw [Store.table_dictionaries, Store.table_dictionaries] at same
    rw [Store.field?, same, Store.field?]
  simp only [writes_iff_makes, voids_iff, makes.iff]
  cases command with
  | set other field v =>
    cases yields
    rw [Store.field?_set]
    by_cases here : name = other ∧ key = field
    · obtain ⟨rfl, rfl⟩ := here
      cases present : s.dictionaries.get? name with
      | none => simp [Store.field?, present]
      | some t => simp [eq_comm]
    · rw [if_neg fun both => here ⟨both.1, both.2.1⟩]
      simp_all
  | dict other =>
    cases yields
    change Store.field? { s with dictionaries := _ } name key = some value ↔ _
    rw [Store.field?_renew]
    by_cases here : name = other
    · simp [here]
    · simp [here]
  | delete other =>
    cases yields
    change (s.delete other).field? name key = some value ↔ _
    rw [Store.field?_delete]
    by_cases here : name = other
    · subst here
      split <;> simp_all
    · simp [here]
  | clear =>
    cases yields
    simp [Store.field?, Store.shows, Store.clear, Store.withNamespaces]
  | load path => exact absurd rfl stays
  | _ =>
    rw [untouched rfl]
    simp

namespace Surroundings

variable {π φ : Type} (w : Surroundings π φ)

/-- What becomes of a key on a line that does not load anything. -/
theorem field?_execute (s : Scene π φ) {line : String}
    (stays : (Text.wordsOf line).head? ≠ some "load") (name key : String) (value : Int64) :
    (w.execute s line).1.store.field? name key = some value ↔
      Writes name key value line ∧ (s.store.dictionaries.get? name).isSome ∨
        s.store.field? name key = some value ∧ ¬ Voids name key s.store line := by
  have idle (none : ∀ command, ¬ Makes line command) :
      s.store.field? name key = some value ↔
        Writes name key value line ∧ (s.store.dictionaries.get? name).isSome ∨
          s.store.field? name key = some value ∧ ¬ Voids name key s.store line := by
    simp [writes_iff_makes, voids_iff, none]
  have yields := w.answer_yields s (s.store.step Keyword.all line)
  rw [execute]
  obtain ⟨absent, output, does⟩ | ⟨k, args, e, said, wrong, does⟩ |
    ⟨k, args, command, said, made, does⟩ := s.store.step_heading line
  · rw [does]
    refine idle ?_
    rintro command ⟨k, args, said, -⟩
    rw [said, Keyword.heading?_cons] at absent
    cases absent
  · rw [does]
    refine idle ?_
    rintro command ⟨l, words, saidAgain, made⟩
    obtain ⟨names, rfl⟩ := List.cons.inj (said.symm.trans saidAgain)
    obtain rfl := Keyword.name_injective names
    cases wrong.symm.trans made
  · rw [does] at yields ⊢
    refine Command.field?_step ⟨k, args, said, made⟩ yields ?_ name key value
    obtain ⟨rfl, -⟩ := Command.ofWords_eq_ok made
    intro loads
    rw [said, loads] at stays
    exact stays rfl

/-! ## Whole histories -/

theorem run_append (s : Scene π φ) (first second : List String) :
    (w.run s (first ++ second)).1 = (w.run (w.run s first).1 second).1 := by
  induction first generalizing s with
  | nil => rfl
  | cons line more ih =>
    rw [List.cons_append, run_cons, run_cons]
    exact ih _

/-- One of the lines puts the value under the key while the dictionary exists, and none of the lines
after it takes the value away at its moment. -/
def LiveWrite (start : Scene π φ) (lines : List String) (name key : String) (value : Int64) :
    Prop :=
  ∃ before line after, lines = before ++ line :: after ∧ Writes name key value line ∧
    ((w.run start before).1.store.dictionaries.get? name).isSome ∧
    ∀ since later more, after = since ++ later :: more →
      ¬ Voids name key (w.run start (before ++ line :: since)).1.store later

/-- The ways to cut a list at one member, by its last member. -/
theorem concat_eq_cut_iff {lines before after : List String} {last line : String} :
    lines ++ [last] = before ++ line :: after ↔
      (after = [] ∧ lines = before ∧ last = line) ∨
        ∃ more, after = more ++ [last] ∧ lines = before ++ line :: more := by
  constructor
  · intro cut
    rcases after.eq_nil_or_concat with rfl | ⟨more, other, rfl⟩
    · obtain ⟨rfl, same⟩ := List.append_inj' cut rfl
      exact .inl ⟨rfl, rfl, List.singleton_inj.mp same⟩
    · rw [List.concat_eq_append, ← List.cons_append, ← List.append_assoc] at cut
      obtain ⟨rfl, same⟩ := List.append_inj' cut rfl
      obtain rfl := List.singleton_inj.mp same
      exact .inr ⟨more, List.concat_eq_append, rfl⟩
  · rintro (⟨rfl, rfl, rfl⟩ | ⟨more, rfl, rfl⟩)
    · rfl
    · rw [List.append_assoc, List.cons_append]

/-- A further line is itself the live write, or it spares the one there was. -/
theorem liveWrite_concat {start : Scene π φ} {lines : List String} {last name key : String}
    {value : Int64} :
    w.LiveWrite start (lines ++ [last]) name key value ↔
      Writes name key value last ∧
          ((w.run start lines).1.store.dictionaries.get? name).isSome ∨
        w.LiveWrite start lines name key value ∧
          ¬ Voids name key (w.run start lines).1.store last := by
  constructor
  · rintro ⟨before, line, after, cut, writes, present, spared⟩
    obtain ⟨rfl, rfl, rfl⟩ | ⟨more, rfl, rfl⟩ := concat_eq_cut_iff.mp cut
    · exact .inl ⟨writes, present⟩
    · refine .inr ⟨⟨before, line, more, rfl, writes, present, ?_⟩, spared more last [] rfl⟩
      rintro since later rest rfl
      exact spared since later (rest ++ [last]) (by simp)
  · rintro (⟨writes, present⟩ | ⟨⟨before, line, after, rfl, writes, present, spared⟩, kept⟩)
    · refine ⟨lines, last, [], rfl, writes, present, ?_⟩
      intro since later more cut
      simp at cut
    · refine ⟨before, line, after ++ [last], by simp, writes, present, ?_⟩
      intro since later more cut
      obtain ⟨rfl, rfl, rfl⟩ | ⟨rest, rfl, rfl⟩ := concat_eq_cut_iff.mp cut
      · exact kept
      · exact spared since later rest rfl

/-- After lines that load nothing, a key has the value of its live write. -/
theorem field?_run {start : Scene π φ} (empty : start.store = {}) {lines : List String}
    (unloaded : ∀ line ∈ lines, (Text.wordsOf line).head? ≠ some "load") (name key : String)
    (value : Int64) :
    (w.run start lines).1.store.field? name key = some value ↔
      w.LiveWrite start lines name key value := by
  induction lines using List.reverseRecOn with
  | nil =>
    constructor
    · intro found
      rw [run, empty] at found
      cases found
    · rintro ⟨before, line, after, cut, -⟩
      simp at cut
  | append_singleton lines last ih =>
    obtain ⟨earlier, stays⟩ := List.forall_mem_append.mp unloaded
    rw [liveWrite_concat, ← ih earlier, run_append]
    exact w.field?_execute _ (stays last List.mem_cons_self) name key value

/-- A read shows the value of a key. -/
theorem execute_get (s : Scene π φ) {line name key : String} {more : List String}
    (said : Text.wordsOf line = "get" :: name :: key :: more) :
    (w.execute s line).2 =
      some (match s.store.field? name key with
        | some value => Integer.text value
        | none => "Key not found") := by
  have does := Store.step_of_words Keyword.get.mem_all said rfl s.store
  rw [execute, does]
  show (s.store.get name key).output = _
  rw [Store.get, ← Store.field?]
  cases s.store.field? name key <;> rfl

/-- The text of an integer is never the one of a missing key. -/
theorem text_ne_missing (value : Int64) : Integer.text value ≠ "Key not found" := by
  intro same
  have read := Integer.ofText?_text value
  rw [same] at read
  cases read

/-- **Dictionary reads return the last live write.** After any lines from the empty store that load
nothing, a read shows the decimal text of a value if and only if the last live write of the key put
this value there, and without a live write it shows that the key is not found. Nothing is assumed of
the prompt and the file system. -/
theorem get_shows_last_live_write {start : Scene π φ} (empty : start.store = {})
    {lines : List String} (unloaded : ∀ line ∈ lines, (Text.wordsOf line).head? ≠ some "load")
    {line name key : String} {more : List String}
    (said : Text.wordsOf line = "get" :: name :: key :: more) :
    let shown := (w.execute (w.run start lines).1 line).2
    (∀ value, shown = some (Integer.text value) ↔ w.LiveWrite start lines name key value) ∧
      ((∀ value, ¬ w.LiveWrite start lines name key value) → shown = some "Key not found") := by
  simp only [w.execute_get _ said, ← w.field?_run empty unloaded]
  cases (w.run start lines).1.store.field? name key with
  | none =>
    refine ⟨fun value => ⟨fun same => ?_, fun found => ?_⟩, fun _ => rfl⟩
    · exact absurd (Option.some.inj same).symm (text_ne_missing value)
    · cases found
  | some held =>
    refine ⟨fun value => ⟨fun same => ?_, fun found => ?_⟩, fun absent => absurd rfl (absent held)⟩
    · exact congrArg some (Integer.text_injective (Option.some.inj same))
    · exact congrArg (some ∘ Integer.text) (Option.some.inj found)

/-- A write before there is a dictionary is dropped, a wrong integer does not count, and the first
deletion finds a variable; so the value of the third line is still there. -/
def shadowed : List String :=
  [ "set d k = 1", "dict d", "set d k = -7", "let d = 3", "set d k = 7x", "set d other = 2",
    "delete d", "array d" ]

theorem get_shows_last_live_write_shadowed :
    let start := Session.scene ({} : Session)
    start.store = {} ∧ (∀ line ∈ shadowed, (Text.wordsOf line).head? ≠ some "load") ∧
      Text.wordsOf "get d k" = ["get", "d", "k"] ∧
      (ofSession.execute (ofSession.run start shadowed).1 "get d k").2 = some "-7" ∧
      ofSession.LiveWrite start shadowed "d" "k" (-7) := by
  have unloaded : ∀ line ∈ shadowed, (Text.wordsOf line).head? ≠ some "load" := by decide +kernel
  have said : Text.wordsOf "get d k" = ["get", "d", "k"] := by decide +kernel
  have shown :
      (ofSession.execute (ofSession.run (Session.scene ({} : Session)) shadowed).1 "get d k").2 =
        some "-7" := by decide +kernel
  refine ⟨rfl, unloaded, said, shown, ?_⟩
  exact ((ofSession.get_shows_last_live_write rfl unloaded said).1 (-7)).mp shown

end Surroundings

end Linewise
