import Linewise.Document.Number
import Linewise.Document.Text

/-! Values that are passed over. A member with an unknown name is skimmed: only its syntax counts. A
list or an object where a scalar belongs is checked: its strings and numbers have to be readable and
the nesting is bounded. The walk keeps the open brackets in a list and always moves forward. -/
namespace Linewise.Document

/-- How carefully a value is passed over. -/
inductive Manner where
  | skim
  | check
deriving DecidableEq, Repr

/-- An open bracket. -/
inductive Bracket where
  | list
  | object
deriving DecidableEq, Repr

/-- How many brackets a checked value may open: 127 in all, of which the document and the section
take two. -/
def maxOpen : Nat := 125

/-- `parse_ident`: reads the rest of a word whose first letter is read. -/
def word : List Char → List Char → Except Fault (List Char)
  | [], rest => .ok rest
  | _ :: _, [] => .error (.before .endInValue [])
  | expected :: more, c :: rest =>
    if c = expected then word more rest else .error (.atByte .expectedWord (c :: rest))

/-- Passes over a string after its opening quote. -/
def passString (manner : Manner) (text : List Char) : Except Fault (List Char) :=
  match manner with
  | .skim => skimString text
  | .check =>
    match string text with
    | .ok (_, rest) => .ok rest
    | .error f => .error f

/-- Passes over a number after its sign. -/
def passNumber (manner : Manner) (positive : Bool) (text : List Char) : Except Fault (List Char) :=
  match manner with
  | .skim => skimNumber text
  | .check =>
    match number positive text with
    | .ok (_, rest) => .ok rest
    | .error f => .error f

/-- Passes over a scalar. -/
def passScalar (manner : Manner) (text : List Char) : Except Fault (List Char) :=
  match text with
  | 'n' :: rest => word ['u', 'l', 'l'] rest
  | 't' :: rest => word ['r', 'u', 'e'] rest
  | 'f' :: rest => word ['a', 'l', 's', 'e'] rest
  | '"' :: rest => passString manner rest
  | '-' :: rest => passNumber manner false rest
  | c :: rest =>
    if c.isDigit then passNumber manner true (c :: rest) else .error (.atByte .expectedValue text)
  | [] => .error (.before .endInValue [])

/-- `parse_object_colon`: passes over the colon after a key. -/
def colon (text : List Char) : Except Fault (List Char) :=
  match skipSpace text with
  | ':' :: rest => .ok rest
  | [] => .error (.before .endInObject [])
  | rest => .error (.atByte .expectedColon rest)

/-- The fault of a text that begins no key. After a comma only a checked object tells a missing
member from a wrong key. -/
def noKey (manner : Manner) (text : List Char) : Fault :=
  match manner, text with
  | .check, [] => .before .endInValue []
  | .skim, [] => .before .endInObject []
  | .check, '\x7d' :: _ => .atByte .trailingComma text
  | _, _ => .atByte .keyNotString text

/-- Passes over a key and its colon. -/
def passKey (manner : Manner) (text : List Char) : Except Fault (List Char) :=
  match text with
  | '"' :: rest =>
    match passString manner rest with
    | .ok after => colon after
    | .error f => .error f
  | _ => .error (noKey manner text)

theorem word_length {expected text rest : List Char} (read : word expected text = .ok rest) :
    rest.length ≤ text.length := by
  fun_induction word expected text with
  | case1 =>
    cases read
    exact Nat.le_refl _
  | case2 => cases read
  | case3 _ _ _ ih =>
    have := ih read
    simp only [List.length_cons]
    omega
  | case4 => cases read

theorem passString_length {manner : Manner} {text rest : List Char}
    (read : passString manner text = .ok rest) : rest.length < text.length := by
  unfold passString at read
  split at read
  · exact skimString_length read
  · split at read
    · rename_i done
      cases read
      exact string_length done
    · cases read

theorem passNumber_length {manner : Manner} {positive : Bool} {text rest : List Char}
    (read : passNumber manner positive text = .ok rest) : rest.length < text.length := by
  unfold passNumber at read
  split at read
  · exact skimNumber_length read
  · split at read
    · rename_i done
      cases read
      exact number_length done
    · cases read

/-- A scalar takes at least one character. -/
theorem passScalar_length {manner : Manner} {text rest : List Char}
    (read : passScalar manner text = .ok rest) : rest.length < text.length := by
  unfold passScalar at read
  split at read
  · exact Nat.lt_succ_of_le (word_length read)
  · exact Nat.lt_succ_of_le (word_length read)
  · exact Nat.lt_succ_of_le (word_length read)
  · exact Nat.lt_succ_of_lt (passString_length read)
  · exact Nat.lt_succ_of_lt (passNumber_length read)
  · split at read
    · exact passNumber_length read
    · cases read
  · cases read

theorem colon_length {text rest : List Char} (read : colon text = .ok rest) :
    rest.length < text.length := by
  have skipped := skipSpace_length text
  unfold colon at read
  split at read
  · rename_i found
    cases read
    rw [found, List.length_cons] at skipped
    omega
  · cases read
  · cases read

theorem passKey_length {manner : Manner} {text rest : List Char}
    (read : passKey manner text = .ok rest) : rest.length < text.length := by
  unfold passKey at read
  split at read
  · split at read
    · rename_i done
      have := passString_length done
      have := colon_length read
      simp only [List.length_cons]
      omega
    · cases read
  · cases read

mutual

/-- Passes over a value inside some open brackets, and over all that follows up to the end of the
outermost of them. -/
def passValue (manner : Manner) (inside : List Bracket) (text : List Char) :
    Except Fault (List Char) :=
  match start : skipSpace text with
  | [] => .error (.before .endInValue [])
  | c :: rest =>
    have shorter : rest.length < text.length := by
      have := skipSpace_length text
      rw [start, List.length_cons] at this
      omega
    if c = '[' ∨ c = '\x7b' then
      if manner = .check ∧ maxOpen ≤ inside.length then .error (.atByte .tooDeep (c :: rest))
      else
        match inner : skipSpace rest with
        | [] => .error (.before (if c = '[' then .endInList else .endInObject) [])
        | d :: after =>
          have step : after.length < rest.length := by
            have := skipSpace_length rest
            rw [inner, List.length_cons] at this
            omega
          if c = '[' then
            if d = ']' then passRest manner inside after
            else passValue manner (.list :: inside) rest
          else if d = '\x7d' then passRest manner inside after
          else
            match key : passKey manner (d :: after) with
            | .error f => .error f
            | .ok value =>
              have := passKey_length key
              have : value.length < text.length := by
                simp only [List.length_cons] at this
                omega
              passValue manner (.object :: inside) value
    else
      match done : passScalar manner (c :: rest) with
      | .error f => .error f
      | .ok after =>
        have := passScalar_length done
        have : after.length < text.length := by
          simp only [List.length_cons] at this
          omega
        passRest manner inside after
termination_by text.length

/-- Passes over what follows a value inside some open brackets. -/
def passRest (manner : Manner) (inside : List Bracket) (text : List Char) :
    Except Fault (List Char) :=
  match inside with
  | [] => .ok text
  | bracket :: outer =>
    match start : skipSpace text with
    | [] =>
      match bracket with
      | .list => .error (.before .endInList [])
      | .object => .error (.before .endInObject [])
    | c :: rest =>
      have shorter : rest.length < text.length := by
        have := skipSpace_length text
        rw [start, List.length_cons] at this
        omega
      match bracket with
      | .list =>
        if c = ']' then passRest manner outer rest
        else if c = ',' then
          if manner = .check ∧ (skipSpace rest).head? = some ']' then
            .error (.atByte .trailingComma (skipSpace rest))
          else passValue manner (.list :: outer) rest
        else .error (.atByte .expectedListEnd (c :: rest))
      | .object =>
        if c = '\x7d' then passRest manner outer rest
        else if c = ',' then
          match key : passKey manner (skipSpace rest) with
          | .error f => .error f
          | .ok value =>
            have := passKey_length key
            have := skipSpace_length rest
            have : value.length < text.length := by omega
            passValue manner (.object :: outer) value
        else .error (.atByte .expectedObjectEnd (c :: rest))
termination_by text.length

end

private theorem pass_length_below (manner : Manner) (bound : Nat) :
    (∀ inside text rest, text.length < bound → passValue manner inside text = .ok rest →
      rest.length < text.length) ∧
    (∀ inside text rest, text.length < bound → passRest manner inside text = .ok rest →
      rest.length ≤ text.length) := by
  induction bound with
  | zero =>
    constructor
    · intro _ _ _ impossible
      omega
    · intro _ _ _ impossible
      omega
  | succ bound ih =>
    obtain ⟨ihValue, ihRest⟩ := ih
    constructor
    · intro inside text rest small read
      have skipped := skipSpace_length text
      rw [passValue] at read
      split at read
      · cases read
      · rename_i c more start
        rw [start, List.length_cons] at skipped
        split at read
        · split at read
          · cases read
          · have skippedMore := skipSpace_length more
            split at read
            · cases read
            · rename_i d after inner
              rw [inner, List.length_cons] at skippedMore
              split at read
              · split at read
                · have := ihRest _ _ _ (by omega) read
                  omega
                · have := ihValue _ _ _ (by omega) read
                  omega
              · split at read
                · have := ihRest _ _ _ (by omega) read
                  omega
                · split at read
                  · cases read
                  · rename_i key
                    have := passKey_length key
                    rw [List.length_cons] at this
                    have := ihValue _ _ _ (by omega) read
                    omega
        · split at read
          · cases read
          · rename_i done
            have := passScalar_length done
            rw [List.length_cons] at this
            have := ihRest _ _ _ (by omega) read
            omega
    · intro inside text rest small read
      have skipped := skipSpace_length text
      rw [passRest.eq_def] at read
      split at read
      · cases read
        exact Nat.le_refl _
      · split at read
        · split at read <;> cases read
        · rename_i c more start
          rw [start, List.length_cons] at skipped
          have skippedMore := skipSpace_length more
          split at read
          · split at read
            · have := ihRest _ _ _ (by omega) read
              omega
            · split at read
              · split at read
                · cases read
                · have := ihValue _ _ _ (by omega) read
                  omega
              · cases read
          · split at read
            · have := ihRest _ _ _ (by omega) read
              omega
            · split at read
              · split at read
                · cases read
                · rename_i key
                  have := passKey_length key
                  have := ihValue _ _ _ (by omega) read
                  omega
              · cases read

/-- `ignore_value`, or `deserialize_any` with its value dropped: passes over one value. -/
def pass (manner : Manner) (text : List Char) : Except Fault (List Char) :=
  passValue manner [] text

/-- A value takes at least one character. -/
theorem pass_length {manner : Manner} {text rest : List Char} (read : pass manner text = .ok rest) :
    rest.length < text.length :=
  (pass_length_below manner (text.length + 1)).1 [] text rest (Nat.lt_succ_self _) read

end Linewise.Document
