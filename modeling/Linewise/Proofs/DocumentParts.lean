import Linewise.Proofs.DocumentLiterals

/-! Parts of documents. A text is read as a value when the reader takes it for that value behind any
spaces and before anything that ends it. Members and items are read one by one, whatever spaces
stand around them, so reading an object or a list is an induction over its parts. -/
namespace Linewise.Document

/-- Nothing but spaces. -/
def Space (gap : List Char) : Prop :=
  ∀ c ∈ gap, isSpace c = true

theorem space_nil : Space [] := by
  simp [Space]

theorem space_one : Space [' '] := by
  simp [Space, isSpace]

theorem skipSpace_append {gap : List Char} (space : Space gap) (text : List Char) :
    skipSpace (gap ++ text) = skipSpace text :=
  List.dropWhile_append_of_pos space

theorem skipSpace_cons {c : Char} (solid : isSpace c = false) (rest : List Char) :
    skipSpace (c :: rest) = c :: rest := by
  simp [skipSpace, solid]

theorem skipSpace_gap {gap : List Char} (space : Space gap) {c : Char}
    (solid : isSpace c = false) (rest : List Char) : skipSpace (gap ++ c :: rest) = c :: rest := by
  rw [skipSpace_append space, skipSpace_cons solid]

/-- What stands before a member or an item: spaces, around a comma unless it is the first one. -/
inductive Lead : Bool → List Char → Prop
  | first {gap : List Char} (space : Space gap) : Lead true gap
  | later {before after : List Char} (spaceBefore : Space before) (spaceAfter : Space after) :
    Lead false (before ++ ',' :: after)

/-- A text that a string reader takes for a key up to its closing quote. -/
def Spells (body : List Char) (key : String) : Prop :=
  ∀ rest, string (body ++ rest) = .ok (key, rest)

theorem Spelled.spells {body : List Char} {key : String} (spelled : Spelled body key) :
    Spells body key := by
  intro rest
  simp [string, Contents.stringRest spelled]

theorem keyText_spells {body : List Char} {key : String} (spelled : Spells body key)
    (rest : List Char) : keyText ('"' :: (body ++ rest)) = .ok (some key, rest) := by
  simp [keyText, spelled rest]

theorem nextKey_lead {first : Bool} {gap : List Char} (lead : Lead first gap)
    {body : List Char} {key : String} (spelled : Spells body key) (rest : List Char) :
    nextKey first (gap ++ '"' :: (body ++ rest)) = .ok (some key, rest) := by
  cases lead with
  | first space =>
    simp [nextKey, skipSpace_gap space (show isSpace '"' = false by rfl), keyText_spells spelled]
  | later spaceBefore spaceAfter =>
    rw [List.append_assoc, List.cons_append, nextKey,
      skipSpace_gap spaceBefore (show isSpace ',' = false by rfl)]
    simp [skipSpace_gap spaceAfter (show isSpace '"' = false by rfl), keyText_spells spelled]

theorem nextKey_close {gap : List Char} (space : Space gap) (first : Bool) (rest : List Char) :
    nextKey first (gap ++ '\x7d' :: rest) = .ok (none, rest) := by
  simp [nextKey, skipSpace_gap space (show isSpace '\x7d' = false by rfl)]

theorem nextItem_lead {first : Bool} {gap : List Char} (lead : Lead first gap) {c : Char}
    (solid : isSpace c = false) (goesOn : c ≠ ']') (rest : List Char) :
    nextItem first (gap ++ c :: rest) = .ok (true, c :: rest) := by
  cases lead with
  | first space => simp [nextItem, skipSpace_gap space solid]
  | later spaceBefore spaceAfter =>
    rw [List.append_assoc, List.cons_append, nextItem,
      skipSpace_gap spaceBefore (show isSpace ',' = false by rfl)]
    simp [skipSpace_gap spaceAfter solid, goesOn]

theorem nextItem_close {gap : List Char} (space : Space gap) (first : Bool) (rest : List Char) :
    nextItem first (gap ++ ']' :: rest) = .ok (false, rest) := by
  simp [nextItem, skipSpace_gap space (show isSpace ']' = false by rfl)]

theorem colon_gap {gap : List Char} (space : Space gap) (rest : List Char) :
    colon (gap ++ ':' :: rest) = .ok rest := by
  simp [colon, skipSpace_gap space (show isSpace ':' = false by rfl)]

namespace Reader

variable {α : Type}

/-- A reader takes a text for a value, behind spaces and before anything that ends it. -/
structure Reads (item : Reader α) (text : List Char) (a : α) : Prop where
  /-- The text begins with a character that neither is a space nor closes a list. -/
  starts : ∃ c rest, text = c :: rest ∧ isSpace c = false ∧ c ≠ ']'
  runs : ∀ {gap rest : List Char}, Space gap → Ends rest →
    item.run (gap ++ (text ++ rest)) = .ok (a, rest)

/-- Reading one member leaves the members behind it. -/
theorem members_step {item : Reader α} {first : Bool} {sofar : List (String × α)}
    {gap body between behind value rest : List Char} {key : String} {a : α}
    (lead : Lead first gap) (spelled : Spells body key) (spaceBetween : Space between)
    (spaceBehind : Space behind) (reads : item.Reads value a) (ended : Ends rest) :
    item.members first sofar
        (gap ++ '"' :: (body ++ (between ++ ':' :: (behind ++ (value ++ rest))))) =
      item.members false ((key, a) :: sofar) rest := by
  rw [members]
  split <;> rename_i next <;> rw [nextKey_lead lead spelled] at next
  · cases next
  · cases next
  · obtain ⟨same, rfl⟩ := Prod.mk.inj (Except.ok.inj next)
    obtain rfl := Option.some.inj same
    split <;> rename_i separator <;> rw [colon_gap spaceBetween] at separator
    · cases separator
    · obtain rfl := Except.ok.inj separator
      split <;> rename_i read <;> rw [reads.runs spaceBehind ended] at read
      · cases read
      · obtain ⟨rfl, rfl⟩ := Prod.mk.inj (Except.ok.inj read)
        rfl

theorem members_close {item : Reader α} {gap : List Char} (space : Space gap) (first : Bool)
    (sofar : List (String × α)) (rest : List Char) :
    item.members first sofar (gap ++ '\x7d' :: rest) = .ok (sofar.reverse, rest) := by
  rw [members]
  split <;> rename_i next <;> rw [nextKey_close space] at next <;> cases next
  rfl

/-- Reading one item leaves the items behind it. -/
theorem items_step {item : Reader α} {first : Bool} {sofar : List α}
    {gap value rest : List Char} {a : α} (lead : Lead first gap) (reads : item.Reads value a)
    (ended : Ends rest) :
    item.items first sofar (gap ++ (value ++ rest)) = item.items false (a :: sofar) rest := by
  obtain ⟨c, more, rfl, solid, goesOn⟩ := reads.starts
  rw [items]
  split <;> rename_i next <;> rw [List.cons_append, nextItem_lead lead solid goesOn] at next
  · cases next
  · cases next
  · obtain ⟨-, rfl⟩ := Prod.mk.inj (Except.ok.inj next)
    split <;> rename_i read <;> have ran := reads.runs space_nil ended <;>
      rw [List.nil_append, List.cons_append, read] at ran
    · cases ran
    · obtain ⟨rfl, rfl⟩ := Prod.mk.inj (Except.ok.inj ran)
      rfl

theorem items_close {item : Reader α} {gap : List Char} (space : Space gap) (first : Bool)
    (sofar : List α) (rest : List Char) :
    item.items first sofar (gap ++ ']' :: rest) = .ok (sofar.reverse, rest) := by
  rw [items]
  split <;> rename_i next <;> rw [nextItem_close space] at next <;> cases next
  rfl

end Reader

end Linewise.Document
