import Linewise.Document.Skim
import Linewise.Table

/-! Readers of typed parts. A reader always consumes something, which is part of its type, so loops
over members and items end. -/
namespace Linewise.Document

/-- A reader of one part from the front of a text. -/
structure Reader (α : Type) where
  run : List Char → Read α
  /-- What is read takes at least one character. -/
  shrinks : ∀ {text : List Char} {a : α} {rest : List Char},
    run text = .ok (a, rest) → rest.length < text.length

/-- The fault of a value of the wrong kind. A scalar is read to its end first, and may be faulty
itself; the place of a list or an object is before it. -/
def mismatch (expected : Expected) (text : List Char) : Fault :=
  match text with
  | 'n' :: rest =>
    match word ['u', 'l', 'l'] rest with
    | .ok after => .before (.wrongKind .null expected) after
    | .error f => f
  | 't' :: rest =>
    match word ['r', 'u', 'e'] rest with
    | .ok after => .before (.wrongKind (.boolean true) expected) after
    | .error f => f
  | 'f' :: rest =>
    match word ['a', 'l', 's', 'e'] rest with
    | .ok after => .before (.wrongKind (.boolean false) expected) after
    | .error f => f
  | '"' :: rest =>
    match string rest with
    | .ok (s, after) => .before (.wrongKind (.text s) expected) after
    | .error f => f
  | '[' :: _ => .before (.wrongKind .sequence expected) text
  | '\x7b' :: _ => .before (.wrongKind .map expected) text
  | '-' :: rest =>
    match number false rest with
    | .ok (n, after) => .before (.wrongKind n.found expected) after
    | .error f => f
  | c :: _ =>
    if c.isDigit then
      match number true text with
      | .ok (n, after) => .before (.wrongKind n.found expected) after
      | .error f => f
    else .atByte .expectedValue text
  | [] => .before .endInValue []

/-- Reads a key without its colon. -/
def keyText (text : List Char) : Read (Option String) :=
  match text with
  | '"' :: rest =>
    match string rest with
    | .ok (key, after) => .ok (some key, after)
    | .error f => .error f
  | _ => .error (noKey .check text)

/-- Reads up to the key of the next member, or over the end of the object. Every member but the
first follows a comma. -/
def nextKey (first : Bool) (text : List Char) : Read (Option String) :=
  match skipSpace text with
  | [] => .error (.before .endInObject [])
  | '\x7d' :: rest => .ok (none, rest)
  | c :: rest =>
    if first then keyText (c :: rest)
    else if c = ',' then keyText (skipSpace rest)
    else .error (.atByte .expectedObjectEnd (c :: rest))

/-- Reads up to the next item, which there is if the result is `true`, or over the end of the list.
Every item but the first follows a comma. -/
def nextItem (first : Bool) (text : List Char) : Read Bool :=
  match skipSpace text with
  | [] => .error (.before .endInList [])
  | ']' :: rest => .ok (false, rest)
  | c :: rest =>
    if first then .ok (true, c :: rest)
    else if c = ',' then
      match skipSpace rest with
      | [] => .error (.before .endInValue [])
      | ']' :: after => .error (.atByte .trailingComma (']' :: after))
      | after => .ok (true, after)
    else .error (.atByte .expectedListEnd (c :: rest))

theorem keyText_length {text rest : List Char} {key : Option String}
    (read : keyText text = .ok (key, rest)) : rest.length < text.length := by
  unfold keyText at read
  split at read
  · split at read
    · rename_i done
      obtain ⟨_, rfl⟩ := Prod.mk.inj (Except.ok.inj read)
      exact Nat.lt_succ_of_lt (string_length done)
    · cases read
  · cases read

theorem nextKey_length {first : Bool} {text rest : List Char} {key : Option String}
    (read : nextKey first text = .ok (key, rest)) : rest.length < text.length := by
  have skipped := skipSpace_length text
  unfold nextKey at read
  split at read
  · cases read
  · rename_i closed
    obtain ⟨_, rfl⟩ := Prod.mk.inj (Except.ok.inj read)
    rw [closed, List.length_cons] at skipped
    omega
  · rename_i c more _ start
    rw [start] at skipped
    split at read
    · exact Nat.lt_of_lt_of_le (keyText_length read) skipped
    · split at read
      · have := keyText_length read
        have := skipSpace_length more
        rw [List.length_cons] at skipped
        omega
      · cases read

theorem nextItem_length {first more : Bool} {text rest : List Char}
    (read : nextItem first text = .ok (more, rest)) : rest.length ≤ text.length := by
  have skipped := skipSpace_length text
  unfold nextItem at read
  split at read
  · cases read
  · rename_i closed
    obtain ⟨_, rfl⟩ := Prod.mk.inj (Except.ok.inj read)
    rw [closed, List.length_cons] at skipped
    omega
  · rename_i c others _ start
    rw [start] at skipped
    split at read
    · obtain ⟨_, rfl⟩ := Prod.mk.inj (Except.ok.inj read)
      exact skipped
    · split at read
      · have := skipSpace_length others
        rw [List.length_cons] at skipped
        split at read
        · cases read
        · cases read
        · obtain ⟨_, rfl⟩ := Prod.mk.inj (Except.ok.inj read)
          omega
      · cases read

namespace Reader

variable {α : Type}

/-- Reads the members of an object after its opening bracket. `sofar` holds the members read, last
one first. -/
def members (item : Reader α) (first : Bool) (sofar : List (String × α)) (text : List Char) :
    Read (List (String × α)) :=
  match next : nextKey first text with
  | .error f => .error f
  | .ok (none, rest) => .ok (sofar.reverse, rest)
  | .ok (some key, rest) =>
    match separator : colon rest with
    | .error f => .error f
    | .ok value =>
      match read : item.run value with
      | .error f => .error f
      | .ok (a, after) =>
        have := nextKey_length next
        have := colon_length separator
        have := item.shrinks read
        members item false ((key, a) :: sofar) after
termination_by text.length

/-- Reads the items of a list after its opening bracket. `sofar` holds the items read, last one
first. -/
def items (item : Reader α) (first : Bool) (sofar : List α) (text : List Char) : Read (List α) :=
  match next : nextItem first text with
  | .error f => .error f
  | .ok (false, rest) => .ok (sofar.reverse, rest)
  | .ok (true, rest) =>
    match read : item.run rest with
    | .error f => .error f
    | .ok (a, after) =>
      have := nextItem_length next
      have := item.shrinks read
      items item false (a :: sofar) after
termination_by text.length

theorem members_length {item : Reader α} {first : Bool} {sofar result : List (String × α)}
    {text rest : List Char} (read : members item first sofar text = .ok (result, rest)) :
    rest.length < text.length := by
  fun_induction members item first sofar text with
  | case1 => cases read
  | case2 _ _ _ _ next =>
    obtain ⟨_, rfl⟩ := Prod.mk.inj (Except.ok.inj read)
    exact nextKey_length next
  | case3 => cases read
  | case4 => cases read
  | case5 _ _ _ _ _ _ _ _ _ _ _ _ _ _ ih =>
    have := ih read
    omega

theorem items_length {item : Reader α} {first : Bool} {sofar result : List α}
    {text rest : List Char} (read : items item first sofar text = .ok (result, rest)) :
    rest.length ≤ text.length := by
  fun_induction items item first sofar text with
  | case1 => cases read
  | case2 _ _ _ _ next =>
    obtain ⟨_, rfl⟩ := Prod.mk.inj (Except.ok.inj read)
    exact nextItem_length next
  | case3 => cases read
  | case4 _ _ _ _ _ _ _ _ _ _ ih =>
    have := ih read
    omega

/-- `deserialize_map`: reads an object as a table; of two members with one name the later counts. -/
def runMap (item : Reader α) (text : List Char) : Read (Table α) :=
  match skipSpace text with
  | [] => .error (.before .endInValue [])
  | c :: rest =>
    if c = '\x7b' then
      match item.members true [] rest with
      | .ok (entries, after) => .ok (Table.ofList entries, after)
      | .error f => .error f
    else .error (mismatch .map (c :: rest))

/-- `deserialize_seq`: reads a list. -/
def runList (item : Reader α) (text : List Char) : Read (Array α) :=
  match skipSpace text with
  | [] => .error (.before .endInValue [])
  | c :: rest =>
    if c = '[' then
      match item.items true [] rest with
      | .ok (values, after) => .ok (values.toArray, after)
      | .error f => .error f
    else .error (mismatch .sequence (c :: rest))

/-- The reader of objects as tables. -/
def map (item : Reader α) : Reader (Table α) where
  run := item.runMap
  shrinks := by
    intro text table rest read
    have skipped := skipSpace_length text
    unfold runMap at read
    split at read
    · cases read
    · rename_i c more start
      rw [start, List.length_cons] at skipped
      split at read
      · split at read
        · rename_i done
          obtain ⟨_, rfl⟩ := Prod.mk.inj (Except.ok.inj read)
          have := members_length done
          omega
        · cases read
      · cases read

/-- The reader of lists. -/
def list (item : Reader α) : Reader (Array α) where
  run := item.runList
  shrinks := by
    intro text values rest read
    have skipped := skipSpace_length text
    unfold runList at read
    split at read
    · cases read
    · rename_i c more start
      rw [start, List.length_cons] at skipped
      split at read
      · split at read
        · rename_i done
          obtain ⟨_, rfl⟩ := Prod.mk.inj (Except.ok.inj read)
          have := items_length done
          omega
        · cases read
      · cases read

end Reader

end Linewise.Document
