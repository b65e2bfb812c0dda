import Linewise.Session

/-! Lines in a session. A keyword is found by its name, so a line does what its command does. What a
session makes of a line is one of the outcomes of its step under all possible answers, which makes
the stores of a session reachable whatever its surroundings are. -/
namespace Linewise

theorem Keyword.name_injective {k l : Keyword} (same : k.name = l.name) : k = l := by
  cases k <;> cases l <;> first | rfl | exact absurd same (by decide)

/-- A keyword of the vocabulary is found by its name. -/
theorem Keyword.find?_name {vocabulary : List Keyword} {k : Keyword} (known : k ∈ vocabulary) :
    vocabulary.find? (fun l => l.name == k.name) = some k := by
  cases found : vocabulary.find? fun l => l.name == k.name with
  | none => exact absurd (List.find?_eq_none.mp found k known) (by simp)
  | some l =>
    have same := List.find?_some found
    simp only [beq_iff_eq] at same
    rw [Keyword.name_injective same]

theorem Keyword.find?_of_foreign {vocabulary : List Keyword} {first : String}
    (foreign : ∀ k ∈ vocabulary, k.name ≠ first) :
    vocabulary.find? (fun k => k.name == first) = none := by
  refine List.find?_eq_none.mpr ?_
  intro k member
  simpa using foreign k member

/-- A line with a known keyword does what its command does. -/
theorem Store.step_of_words {vocabulary : List Keyword} {line : String} {k : Keyword}
    {words : List String} {command : Command} (known : k ∈ vocabulary)
    (said : Text.wordsOf line = k.name :: words) (made : Command.ofWords k words = .ok command)
    (s : Store) : s.step vocabulary line = command.step s := by
  simp only [Store.step, said, Keyword.find?_name known, made]

theorem Store.step_of_foreign {vocabulary : List Keyword} {line first : String}
    {words : List String} (foreign : ∀ k ∈ vocabulary, k.name ≠ first)
    (said : Text.wordsOf line = first :: words) (s : Store) :
    s.step vocabulary line = .done (s.shows ("Unknown command: " ++ first)) := by
  simp only [Store.step, said, Keyword.find?_of_foreign foreign]

theorem Store.step_of_unknown {vocabulary : List Keyword} {line : String} {k : Keyword}
    {words : List String} (unknown : k ∉ vocabulary) (said : Text.wordsOf line = k.name :: words)
    (s : Store) : s.step vocabulary line = .done (s.shows ("Unknown command: " ++ k.name)) := by
  refine Store.step_of_foreign ?_ said s
  intro l member same
  exact unknown (Keyword.name_injective same ▸ member)

theorem Store.step_of_wrong {vocabulary : List Keyword} {line : String} {k : Keyword}
    {words : List String} {e : ArgsError} (known : k ∈ vocabulary)
    (said : Text.wordsOf line = k.name :: words) (wrong : Command.ofWords k words = .error e)
    (s : Store) : s.step vocabulary line = .done (s.fails (.args e)) := by
  simp only [Store.step, said, Keyword.find?_name known, wrong]

/-- A line is blank, or its first word is no keyword, or the words behind the keyword are wrong, or
it does what its command does. -/
theorem Store.step_cases (vocabulary : List Keyword) (s : Store) (line : String) :
    (Text.wordsOf line = [] ∧ s.step vocabulary line = .done s.silent) ∨
    (∃ first words, Text.wordsOf line = first :: words ∧ (∀ k ∈ vocabulary, k.name ≠ first) ∧
      s.step vocabulary line = .done (s.shows ("Unknown command: " ++ first))) ∨
    (∃ k words e, k ∈ vocabulary ∧ Text.wordsOf line = k.name :: words ∧
      Command.ofWords k words = .error e ∧
      s.step vocabulary line = .done (s.fails (.args e))) ∨
    (∃ k words command, k ∈ vocabulary ∧ Text.wordsOf line = k.name :: words ∧
      Command.ofWords k words = .ok command ∧ s.step vocabulary line = command.step s) := by
  cases said : Text.wordsOf line with
  | nil => exact .inl ⟨rfl, by simp only [Store.step, said]⟩
  | cons first words =>
    by_cases foreign : ∀ k ∈ vocabulary, k.name ≠ first
    · exact .inr (.inl ⟨first, words, rfl, foreign, Store.step_of_foreign foreign said s⟩)
    · obtain ⟨k, known, rfl⟩ : ∃ k ∈ vocabulary, k.name = first := by simpa using foreign
      cases made : Command.ofWords k words with
      | error e =>
        have does := Store.step_of_wrong known said made s
        exact .inr (.inr (.inl ⟨k, words, e, known, rfl, made, does⟩))
      | ok command =>
        have does := Store.step_of_words known said made s
        exact .inr (.inr (.inr ⟨k, words, command, known, rfl, made, does⟩))

namespace Store

/-! Commands that only look leave the store, also where they fail. -/

theorem onlyIf_store (s : Store) (name text : String) : (s.onlyIf name text).store = s := by
  unfold onlyIf
  split
  · rfl
  · split
    · rfl
    · split <;> rfl

theorem attempt_store (s : Store) (source : String) : (s.attempt source).store = s := by
  unfold attempt
  split <;> rfl

theorem get_store (s : Store) (name key : String) : (s.get name key).store = s := by
  unfold get
  split <;> rfl

theorem saved_store (s : Store) (path : String) (answer : Except FileError Unit) :
    (s.saved path answer).store = s := by
  unfold saved
  split <;> rfl

end Store

/-- The outcomes of a step under all answers to its request. -/
inductive Step.Yields : Step → Outcome → Prop
  | done (outcome : Outcome) : Yields (.done outcome) outcome
  | ask (name : String) (resume : Option String → Outcome) (reply : Option String) :
    Yields (.ask name resume) (resume reply)
  | read (path : String) (resume : Except FileError String → Outcome)
      (answer : Except FileError String) : Yields (.read path resume) (resume answer)
  | write (path contents : String) (resume : Except FileError Unit → Outcome)
      (answer : Except FileError Unit) : Yields (.write path contents resume) (resume answer)

/-- The stores that lines lead to from the empty one. -/
inductive Store.Reachable (vocabulary : List Keyword) : Store → Prop
  | start : Reachable vocabulary {}
  | line {s : Store} {outcome : Outcome} (before : Reachable vocabulary s) (line : String)
      (yields : (s.step vocabulary line).Yields outcome) : Reachable vocabulary outcome.store

namespace Session

variable {φ : Type} [FileSystem φ]

theorem execute_vocabulary (s : Session φ) (line : String) :
    (s.execute line).1.vocabulary = s.vocabulary := by
  unfold execute answer
  split <;> rfl

theorem executeAll_vocabulary (s : Session φ) (lines : List String) :
    (s.executeAll lines).1.vocabulary = s.vocabulary := by
  induction lines generalizing s with
  | nil => rfl
  | cons line more ih => exact (ih _).trans (execute_vocabulary s line)

/-- What a session makes of a step is one of its outcomes. -/
theorem answer_yields (s : Session φ) (step : Step) :
    ∃ outcome, step.Yields outcome ∧ (s.answer step).1.store = outcome.store := by
  cases step with
  | done outcome => exact ⟨outcome, .done outcome, rfl⟩
  | ask name resume => exact ⟨_, .ask name resume _, rfl⟩
  | read path resume => exact ⟨_, .read path resume _, rfl⟩
  | write path contents resume => exact ⟨_, .write path contents resume _, rfl⟩

theorem executeAll_reachable {s : Session φ} (reached : s.store.Reachable s.vocabulary)
    (lines : List String) : (s.executeAll lines).1.store.Reachable s.vocabulary := by
  induction lines generalizing s with
  | nil => exact reached
  | cons line more ih =>
    obtain ⟨outcome, yields, store⟩ := s.answer_yields (s.store.step s.vocabulary line)
    have next : (s.execute line).1.store.Reachable (s.execute line).1.vocabulary := by
      rw [execute_vocabulary, execute, store]
      exact .line reached line yields
    have rest := ih next
    rwa [execute_vocabulary] at rest

end Session

end Linewise
