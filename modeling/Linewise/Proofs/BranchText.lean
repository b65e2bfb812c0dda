import Linewise.Proofs.ExpressionLines

/-! The text of a conditional line. The words behind the condition and the word after it are put
together again, and double quotes are taken off the two ends of the text, each end for itself. That
takes off a surrounding pair, but also a quote that stands at one end only. -/
namespace Linewise

namespace Text

/-- The words of words with a space between two of them. -/
theorem wordsOf_joinWords {parts : List String} (words : ∀ part ∈ parts, IsWord part) :
    wordsOf (Command.joinWords parts) = parts := by
  induction parts with
  | nil => rfl
  | cons first rest ih =>
    obtain ⟨word, later⟩ := List.forall_mem_cons.mp words
    cases rest with
    | nil => simpa [Command.joinWords] using word.wordsOf_eq
    | cons second more =>
      have spelled : Command.joinWords (first :: second :: more) =
          first ++ " " ++ Command.joinWords (second :: more) := by
        simp [Command.joinWords]
      rw [spelled, wordsOf_append_space, word.wordsOf_eq, ih later, List.singleton_append]

/-- A text without its surrounding pair of double quotes: what stands between them if there is such
a pair, else the text as it is. -/
inductive Unwrapped : List Char → List Char → Prop
  | pair (inner : List Char) : Unwrapped ('"' :: (inner ++ ['"'])) inner
  | whole {text : List Char} (bare : ∀ inner, text ≠ '"' :: (inner ++ ['"'])) : Unwrapped text text

/-- A text without the double quotes at its ends: both, the one at the front, the one at the back,
or none, as they are there. -/
inductive Trimmed : List Char → List Char → Prop
  | both (inner : List Char) : Trimmed ('"' :: (inner ++ ['"'])) inner
  | front {inner : List Char} (last : inner.getLast? ≠ some '"') : Trimmed ('"' :: inner) inner
  | back {inner : List Char} (first : inner.head? ≠ some '"') : Trimmed (inner ++ ['"']) inner
  | neither {text : List Char} (first : text.head? ≠ some '"') (last : text.getLast? ≠ some '"') :
      Trimmed text text

/-- A text has quotes at both ends, which are not one and the same, or at none. -/
def Balanced (text : List Char) : Prop :=
  (text.head? = some '"' ↔ text.getLast? = some '"') ∧ text ≠ ['"']

instance (text : List Char) : Decidable (Balanced text) :=
  inferInstanceAs (Decidable (_ ∧ _))

/-- Taking the quotes off the ends one by one takes off a surrounding pair exactly if no quote
stands alone. -/
theorem Trimmed.unwrapped_iff {text shown : List Char} (trimmed : Trimmed text shown) :
    Unwrapped text shown ↔ Balanced text := by
  cases trimmed with
  | both =>
    refine iff_of_true (.pair shown) ⟨iff_of_true rfl ?_, by simp⟩
    rw [← List.cons_append, List.getLast?_concat]
  | front last =>
    refine iff_of_false ?_ ?_
    · generalize same : '"' :: shown = text
      intro unwrapped
      cases unwrapped <;> simpa using congrArg List.length same
    · rintro ⟨ends, several⟩
      cases shown with
      | nil => exact several rfl
      | cons c rest => exact last (ends.mp rfl)
  | back first =>
    refine iff_of_false ?_ ?_
    · generalize same : shown ++ ['"'] = text
      intro unwrapped
      cases unwrapped <;> simpa using congrArg List.length same
    · rintro ⟨ends, several⟩
      cases shown with
      | nil => exact several rfl
      | cons c rest => exact first (ends.mpr List.getLast?_concat)
  | neither first last =>
    refine iff_of_true (.whole ?_) ⟨iff_of_false first last, ?_⟩
    · rintro inner rfl
      exact first rfl
    · rintro rfl
      exact first rfl

end Text

namespace Command

/-- The end of a text loses its quote, or there is none and the text stays. -/
theorem closing_cases (body : List Char) {shown : String}
    (cut : shown = match body.reverse with
      | '"' :: rest => String.ofList rest.reverse
      | _ => String.ofList body) :
    body = shown.toList ++ ['"'] ∨ (body.getLast? ≠ some '"' ∧ shown.toList = body) := by
  split at cut
  · rename_i rest closed
    left
    rw [cut, String.toList_ofList, ← List.reverse_cons, ← closed, List.reverse_reverse]
  · rename_i unclosed
    refine .inr ⟨?_, by rw [cut, String.toList_ofList]⟩
    intro quote
    obtain ⟨rest, same⟩ := List.getLast?_eq_some_iff.mp quote
    exact unclosed rest.reverse (by simp [same])

/-- The quotes are taken off the ends. -/
theorem trimmed_stripQuotes (text : String) :
    Text.Trimmed text.toList (stripQuotes text).toList := by
  generalize stripped : stripQuotes text = shown
  unfold stripQuotes at stripped
  split at stripped
  · rename_i rest opened
    rw [opened]
    rcases closing_cases rest stripped.symm with closed | ⟨last, whole⟩
    · rw [closed]
      exact .both shown.toList
    · rw [whole]
      exact .front last
  · rename_i unopened
    have first : text.toList.head? ≠ some '"' := by
      intro quote
      obtain ⟨rest, opened⟩ := List.head?_eq_some_iff.mp quote
      exact unopened rest opened
    rcases closing_cases text.toList stripped.symm with closed | ⟨last, whole⟩
    · rw [closed] at first ⊢
      refine .back ?_
      intro quote
      exact first (by simp [quote])
    · rw [whole]
      exact .neither first last

end Command

namespace Surroundings

variable {π φ : Type} (w : Surroundings π φ) (s : Scene π φ)

/-- A conditional line shows its text if its condition is positive, and changes nothing. -/
theorem execute_onlyIf (name skipped : String) (rest : List String) {line : String} {v : Value}
    {n : Number} (held : s.store.variables.get? name = some v)
    (number : v.number? = some n) (positive : n.isPositive = true)
    (said : Text.wordsOf line = Keyword.onlyIf.name :: name :: skipped :: rest) :
    w.execute s line = (s, some (Command.stripQuotes (Command.joinWords rest))) := by
  rw [execute_of_words said rfl]
  simp [Command.step, answer, Store.onlyIf, held, number, positive, Store.shows]

/-- **A conditional line takes a surrounding pair of quotes off its text if no quote stands alone.**
Let the condition be a variable with a positive number, and let the line have the words `if`, the
condition, any word and the words of the text, as it has when they are put together with single
spaces. The line changes nothing and shows the text without a quote at its front and without one at
its back. That is the text without its surrounding pair exactly if both ends carry a quote or none
does, and the text is not a single quote. -/
theorem branch_text_unquoted (name skipped : String) (rest : List String) {v : Value} {n : Number}
    (held : s.store.variables.get? name = some v) (number : v.number? = some n)
    (positive : n.isPositive = true) (words : ∀ word ∈ name :: skipped :: rest, IsWord word) :
    let said := "if" :: name :: skipped :: rest
    let text := Command.joinWords rest
    Text.wordsOf (Command.joinWords said) = said ∧
      ∃ shown : String, (∀ line, Text.wordsOf line = said → w.execute s line = (s, some shown)) ∧
        Text.Trimmed text.toList shown.toList ∧
        (Text.Unwrapped text.toList shown.toList ↔ Text.Balanced text.toList) := by
  intro said text
  have keyword : IsWord "if" := ⟨by decide, by decide⟩
  have trimmed := Command.trimmed_stripQuotes text
  refine ⟨Text.wordsOf_joinWords (List.forall_mem_cons.mpr ⟨keyword, words⟩), _, ?_, trimmed,
    trimmed.unwrapped_iff⟩
  intro line cut
  exact w.execute_onlyIf s name skipped rest held number positive cut

end Surroundings

/-- A scene with one positive variable. -/
def Scene.positive : Scene Prompt Files :=
  ⟨{ «variables» := .ofList [("c", .int 1)] }, .script {}, {}⟩

/-- Of nested quotes in several words the outer pair is taken off. -/
theorem branch_text_unquoted_nested :
    ∃ shown, Surroundings.ofSession.execute .positive "if c then \"\"nested quotes\"\"" =
        (.positive, some shown) ∧
      Text.Unwrapped "\"\"nested quotes\"\"".toList shown.toList := by
  have words : ∀ word ∈ ["c", "then", "\"\"nested", "quotes\"\""], IsWord word := by
    simp only [List.forall_mem_cons, IsWord]
    decide
  obtain ⟨-, shown, executes, -, pair⟩ :=
    Surroundings.branch_text_unquoted .ofSession .positive "c" "then"
      ["\"\"nested", "quotes\"\""] (v := .int 1) (by decide +kernel) rfl (by decide) words
  exact ⟨shown, executes _ (by decide +kernel), pair.mpr (by decide)⟩

/-- **A quote at one end only is lost.** The text has no surrounding pair, and is yet shown without
its first character. -/
theorem single_quote_lost :
    Surroundings.ofSession.execute .positive "if c then \"hello" = (.positive, some "hello") ∧
      Text.Unwrapped "\"hello".toList "\"hello".toList ∧
      ¬ Text.Unwrapped "\"hello".toList "hello".toList := by
  have shown : Command.stripQuotes (Command.joinWords ["\"hello"]) = "hello" := by decide
  have trimmed : Text.Trimmed "\"hello".toList "hello".toList := .front (by decide)
  refine ⟨?_, .whole ?_, fun unwrapped => ?_⟩
  · rw [← shown]
    exact Surroundings.ofSession.execute_onlyIf .positive "c" "then" ["\"hello"] (v := .int 1)
      (by decide +kernel) rfl (by decide) (by decide +kernel)
  · intro inner same
    have last := congrArg List.getLast? same
    rw [← List.cons_append, List.getLast?_concat] at last
    exact absurd last (by decide)
  · exact absurd (trimmed.unwrapped_iff.mp unwrapped) (by decide)

end Linewise
