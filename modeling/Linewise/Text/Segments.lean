/-! Texts cut after a separator. Every item of the text lies in exactly one segment, so nothing is
lost between two segments; a last segment without separator counts only if it is not empty. -/
namespace Linewise.Text

/-- The segments of `items`, each ending with its first `separator`, the last one possibly
without. -/
def segments {α : Type} [BEq α] (separator : α) : List α → List (List α)
  | [] => []
  | a :: rest =>
    if a == separator then [a] :: segments separator rest
    else match segments separator rest with
      | [] => [[a]]
      | first :: more => (a :: first) :: more

theorem segments_flatten {α : Type} [BEq α] (separator : α) (items : List α) :
    (segments separator items).flatten = items := by
  induction items with
  | nil => rfl
  | cons a rest ih =>
    rw [segments]
    split
    · simp [ih]
    · cases cut : segments separator rest with
      | nil => simp_all
      | cons first more => rw [cut] at ih; simp_all

/-- A line without its line feed and one carriage return before it. A carriage return at the end
of a line that has no line feed stays. -/
def chomp (line : List Char) : List Char :=
  match line.reverse with
  | '\n' :: '\r' :: body => body.reverse
  | '\n' :: body => body.reverse
  | _ => line

/-- The lines of a script. -/
def linesOf (script : String) : List String :=
  (segments '\n' script.toList).map fun line => String.ofList (chomp line)

end Linewise.Text
