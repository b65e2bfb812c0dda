import Mathlib.Logic.Function.Basic
import Linewise.Proofs.BlankBoundaries
import Linewise.Proofs.FailedLines

/-! Expressions inside lines. A line is cut into words, and the words of an expression are put
together again with one space between two of them. That changes the blanks of the expression, and
nothing else unless a string literal holds one: the expression has the tokens, the value and the
error of its text as it was written. -/
namespace Linewise

/-! ## Words -/

namespace Text

theorem words_cons_blank {b : Char} (blank : isBlank b = true) (rest : List Char) :
    words (b :: rest) = words rest := by
  cases rest with
  | nil => simp [words, blank]
  | cons c rest => simp [words, blank]

theorem words_cons_ne_nil {c : Char} (visible : isBlank c = false) (rest : List Char) :
    words (c :: rest) ≠ [] := by
  cases rest with
  | nil => simp [words, visible]
  | cons d rest =>
    rw [words, if_neg (by simp [visible])]
    split
    · simp
    · split <;> simp

/-- A text with a visible character has a word. -/
theorem words_ne_nil {text : List Char} (visible : ∃ c ∈ text, isBlank c = false) :
    words text ≠ [] := by
  induction text with
  | nil => simp at visible
  | cons c text ih =>
    by_cases blank : isBlank c = true
    · rw [words_cons_blank blank]
      apply ih
      obtain ⟨d, member, shown⟩ := visible
      rcases List.mem_cons.mp member with rfl | later
      · simp [blank] at shown
      · exact ⟨d, later, shown⟩
    · exact words_cons_ne_nil (Bool.eq_false_iff.mpr blank) text

/-- A blank separates words. -/
theorem words_append_blank {b : Char} (blank : isBlank b = true) (front rest : List Char) :
    words (front ++ b :: rest) = words front ++ words rest := by
  induction front with
  | nil => rw [List.nil_append, words_cons_blank blank, words, List.nil_append]
  | cons c front ih =>
    cases front with
    | nil =>
      by_cases first : isBlank c = true
      · simp [words, first, words_cons_blank blank]
      · simp [words, first, blank, words_cons_blank blank]
    | cons d front =>
      rw [List.cons_append, List.cons_append, words, words, ← List.cons_append, ih]
      split
      · rfl
      · split
        · rfl
        · rename_i visible
          -- The word that `c` joins begins with `d`, so it is in front of the blank.
          have begun := words_cons_ne_nil (Bool.eq_false_iff.mpr visible) front
          cases begins : words (d :: front) with
          | nil => exact absurd begins begun
          | cons word more => rfl

/-- A text without blanks is a word. -/
theorem words_of_visible {word : List Char} (nonempty : word ≠ [])
    (visible : BlankFree word) : words word = [word] := by
  induction word with
  | nil => exact absurd rfl nonempty
  | cons c word ih =>
    have first := visible c List.mem_cons_self
    cases word with
    | nil => simp [words, first]
    | cons d word =>
      have second := visible d (by simp)
      have later := ih (by simp) fun e member => visible e (List.mem_cons_of_mem _ member)
      simp [words, first, second, later]

end Text

/-! ## Words put together again -/

namespace Lexer

/-- The tokens of words with a space between two of them. -/
theorem scan_intercalate_cons {word : List Char} (closed : scan word ≠ .error .unterminated)
    (words : List (List Char)) :
    scan ([' '].intercalate (word :: words)) =
      followedBy (scan word) (scan ([' '].intercalate words)) := by
  cases words with
  | nil =>
    rw [List.intercalate_singleton, List.intercalate_nil, ← scan_parted parted_nil closed,
      List.append_nil]
  | cons next words =>
    have space : Text.isBlank ' ' = true := by decide
    rw [List.intercalate_cons_cons, List.append_assoc, List.singleton_append,
      scan_parted (parted_cons space _) closed, scan_blank space]

/-- A text without blanks is scanned before the words that follow it. -/
theorem scan_intercalate_visible {front : List Char} (visible : Text.BlankFree front)
    (closed : scan front ≠ .error .unterminated) (words : List (List Char)) :
    scan ([' '].intercalate (Text.words front ++ words)) =
      followedBy (scan front) (scan ([' '].intercalate words)) := by
  by_cases empty : front = []
  · subst empty
    rw [Text.words, List.nil_append, scan_nil, followedBy_nil]
  · rw [Text.words_of_visible empty visible, List.singleton_append, scan_intercalate_cons closed]

/-- The words of a tight text have its tokens, or the error that it has. -/
theorem scan_intercalate_words {text : List Char} (tight : Tight text) :
    scan ([' '].intercalate (Text.words text)) = scan text := by
  induction size : text.length using Nat.strongRecOn generalizing text with
  | ind n ih =>
    cases cut : text.find? Text.isBlank with
    | none =>
      have visible : Text.BlankFree text := by simpa [Text.BlankFree] using cut
      by_cases empty : text = []
      · subst empty
        rfl
      · rw [Text.words_of_visible empty visible, List.intercalate_singleton]
    | some b =>
      obtain ⟨blank, front, rest, rfl, before⟩ := List.find?_eq_some_iff_append.mp cut
      have visible : Text.BlankFree front := by simpa [Text.BlankFree] using before
      obtain ⟨closed, behind⟩ := tight.split blank rfl
      rw [Text.words_append_blank blank, scan_intercalate_visible visible closed,
        scan_parted (parted_cons blank rest) closed, scan_blank blank]
      apply followedBy_congr
      intro read scanned
      exact ih _ (by simp at size; omega) (behind read scanned) rfl

end Lexer

open Lexer (QuoteFree Tight)

theorem tokens_joinWords {source : String} (tight : Tight source.toList) :
    tokens (Command.joinWords (Text.wordsOf source)) = tokens source := by
  rw [tokens, Command.joinWords, String.toList_intercalate, Text.wordsOf, List.map_map]
  have same : (String.toList ∘ String.ofList) = id := funext fun _ => String.toList_ofList
  rw [same, List.map_id]
  exact Lexer.scan_intercalate_words tight

/-- Cutting an expression into words and putting these together does not change what it evaluates
to. -/
theorem evaluate_joinWords {source : String} (tight : Tight source.toList) (scope : Scope) :
    evaluate scope (Command.joinWords (Text.wordsOf source)) = evaluate scope source := by
  rw [evaluate, tokens_joinWords tight, evaluate]

/-! ## Assignments and attempts -/

/-- A text that is a word of every line in which it stands between blanks. -/
def IsWord (text : String) : Prop :=
  text ≠ "" ∧ Text.BlankFree text.toList

theorem Text.wordsOf_append_space (front rest : String) :
    wordsOf (front ++ " " ++ rest) = wordsOf front ++ wordsOf rest := by
  have spelled : (front ++ " " ++ rest).toList = front.toList ++ ' ' :: rest.toList := by simp
  rw [wordsOf, spelled, words_append_blank (by decide), List.map_append, wordsOf, wordsOf]

theorem IsWord.wordsOf_eq {text : String} (word : IsWord text) : Text.wordsOf text = [text] := by
  have nonempty : text.toList ≠ [] := by simpa using word.1
  rw [Text.wordsOf, Text.words_of_visible nonempty word.2, List.map_singleton,
    String.ofList_toList]

theorem wordsOf_assignment {name : String} (word : IsWord name) (source : String) :
    Text.wordsOf ("let " ++ name ++ " = " ++ source) =
      Keyword.assign.name :: name :: "=" :: Text.wordsOf source := by
  have spelled : "let " ++ name ++ " = " ++ source =
      "let" ++ " " ++ (name ++ " " ++ ("=" ++ " " ++ source)) := by
    apply String.toList_injective
    simp
  have sign : IsWord "=" := ⟨by decide, by decide⟩
  have keyword : IsWord "let" := ⟨by decide, by decide⟩
  rw [spelled, Text.wordsOf_append_space, Text.wordsOf_append_space, Text.wordsOf_append_space,
    keyword.wordsOf_eq, word.wordsOf_eq, sign.wordsOf_eq]
  rfl

theorem wordsOf_attempt (source : String) :
    Text.wordsOf ("try " ++ source) = Keyword.attempt.name :: Text.wordsOf source := by
  have spelled : "try " ++ source = "try" ++ " " ++ source := by
    apply String.toList_injective
    simp
  have keyword : IsWord "try" := ⟨by decide, by decide⟩
  rw [spelled, Text.wordsOf_append_space, keyword.wordsOf_eq]
  rfl

/-- The value that an assignment gives a name for the result of its expression. -/
def assignedValue : Except EvalError Value → Value
  | .ok v => v
  | .error e => .str ("Error evaluating expression: " ++ e.message)

/-- What an attempt reports of the result of its expression. -/
def attemptReport : Except EvalError Value → Option String
  | .ok _ => none
  | .error .divisionByZero => some "Caught division by zero"
  | .error e => some ("Error: " ++ e.message)

/-- One variable has a new value and everything else is as it was. -/
def Scene.Binds {π φ : Type} (before after : Scene π φ) (name : String) (v : Value) : Prop :=
  after.store.scope = Function.update before.store.scope name (some v) ∧
    after = { before with store := { before.store with «variables» := after.store.variables } }

namespace Surroundings

variable {π φ : Type} (w : Surroundings π φ) (s : Scene π φ)

theorem execute_assignment {name source : String} (word : IsWord name)
    (visible : ∃ c ∈ source.toList, Text.isBlank c = false) (tight : Tight source.toList) :
    w.execute s ("let " ++ name ++ " = " ++ source) =
      ({ s with store := s.store.bind name (assignedValue (evaluate s.store.scope source)) },
        none) := by
  have nonempty : Text.wordsOf source ≠ [] := by
    simpa [Text.wordsOf] using Text.words_ne_nil visible
  obtain ⟨first, more, cut⟩ := List.exists_cons_of_ne_nil nonempty
  have made : Command.ofWords .assign (name :: "=" :: Text.wordsOf source) =
      .ok (.assign name (Command.joinWords (Text.wordsOf source))) := by
    rw [cut]
    rfl
  rw [execute_of_words (wordsOf_assignment word source) made, Command.step, answer, Store.assign,
    evaluate_joinWords tight]
  cases evaluate s.store.scope source <;> rfl

theorem execute_attempt {source : String} (tight : Tight source.toList) :
    w.execute s ("try " ++ source) = (s, attemptReport (evaluate s.store.scope source)) := by
  rw [execute_of_words (wordsOf_attempt source) rfl, Command.step, answer, Store.attempt,
    evaluate_joinWords tight]
  cases evaluate s.store.scope source with
  | ok v => rfl
  | error e => cases e <;> rfl

end Surroundings

theorem Scene.binds_bind {π φ : Type} (s : Scene π φ) (name : String) (v : Value) :
    s.Binds { s with store := s.store.bind name v } name v := by
  refine ⟨?_, rfl⟩
  funext probe
  rw [Store.scope, Store.bind, Table.get?_insert, Function.update_apply]
  rfl

/-- **A line evaluates its expression as it is written.** Let the expression have a visible
character, and let no blank be read inside one of its string literals, as is the case without
quotes. An assignment shows nothing and binds its name to the value of the expression or to a text
with the error; an attempt changes nothing and reports nothing but the error. -/
theorem expression_lines {π φ : Type} (w : Surroundings π φ) (s : Scene π φ) {name source : String}
    (word : IsWord name) (visible : ∃ c ∈ source.toList, Text.isBlank c = false) :
    (QuoteFree source.toList → Tight source.toList) ∧
    (Tight source.toList →
      (∃ after, w.execute s ("let " ++ name ++ " = " ++ source) = (after, none) ∧
        s.Binds after name (assignedValue (evaluate s.store.scope source))) ∧
      w.execute s ("try " ++ source) = (s, attemptReport (evaluate s.store.scope source))) := by
  refine ⟨Lexer.tight_of_quoteFree, ?_⟩
  intro tight
  constructor
  · exact ⟨_, w.execute_assignment s word visible tight, s.binds_bind name _⟩
  · exact w.execute_attempt s tight

/-- A quoted text repeated, with blanks of several scripts between the tokens. -/
theorem expression_lines_repetition :
    let s : Scene Prompt Files := ⟨{ «variables» := .ofList [("y", .int 3)] }, .script {}, {}⟩
    let source := "'a'\u3000*\t\u00a0y "
    Tight source.toList ∧
      (∃ after, Surroundings.ofSession.execute s ("let " ++ "x" ++ " = " ++ source) =
          (after, none) ∧ s.Binds after "x" (.str "aaa")) ∧
      Surroundings.ofSession.execute s ("try " ++ source) = (s, none) := by
  intro s source
  have word : IsWord "x" := ⟨by decide, by decide⟩
  have visible : ∃ c ∈ source.toList, Text.isBlank c = false := ⟨'y', by decide, by decide⟩
  have tight : Tight source.toList := by
    have spelled : source.toList = '\'' :: (['a', '\''] ++ "\u3000*\t\u00a0y ".toList) := by
      decide
    have read : Lexer.lexeme '\'' (['a', '\''] ++ "\u3000*\t\u00a0y ".toList) =
        .ok (.str "a", "\u3000*\t\u00a0y ".toList) := by decide +kernel
    rw [spelled]
    exact .lexeme (by decide) read (by decide) (Lexer.tight_of_quoteFree (by decide))
  have value : evaluate s.store.scope source = .ok (.str "aaa") := by decide +kernel
  have lines := (expression_lines Surroundings.ofSession s word visible).2 tight
  rw [value] at lines
  exact ⟨tight, lines⟩

end Linewise
