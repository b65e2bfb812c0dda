import Linewise.Document.Reader
import Linewise.Store

/-! Reading a state document: an object with the four sections, in any order and each at most once,
or a list of up to four sections in their order. Absent sections are empty and other members are
skimmed. -/
namespace Linewise.Document

/-- Where a fault without a place of its own is put: behind the spaces that follow, and behind one
closing bracket of the object around it. -/
def afterClosing (text : List Char) : List Char :=
  match skipSpace text with
  | '\x7d' :: rest => rest
  | rest => rest

/-- The value of a number: an integer if it is in range, else a double. -/
def Numeric.value : Numeric → Value
  | .natural n =>
    match Integer.fit n with
    | some i => .int i
    | none => .float n.toUInt64.toFloat
  | .negative n => .int (Int64.ofInt n)
  | .double x => .float x

/-- Reads a word that stands for a value. -/
def wordValue (expected : List Char) (v : Value) (text : List Char) : Read Value :=
  match word expected text with
  | .ok rest => .ok (v, rest)
  | .error f => .error f

/-- Reads a number as a value. -/
def numberValue (positive : Bool) (text : List Char) : Read Value :=
  match number positive text with
  | .ok (n, rest) => .ok (n.value, rest)
  | .error f => .error f

/-- Passes over a value that is no scalar, which is a fault in any case. -/
def noScalar (passed : Except Fault (List Char)) : Read Value :=
  match passed with
  | .ok rest => .error (.before .noScalar (afterClosing rest))
  | .error f => .error f

/-- `Value.deserialize`: reads the value of a variable. -/
def runScalar (text : List Char) : Read Value :=
  match skipSpace text with
  | [] => .error (.before .endInValue [])
  | 't' :: rest => wordValue ['r', 'u', 'e'] (.bool true) rest
  | 'f' :: rest => wordValue ['a', 'l', 's', 'e'] (.bool false) rest
  | '"' :: rest =>
    match string rest with
    | .ok (s, after) => .ok (.str s, after)
    | .error f => .error f
  | '-' :: rest => numberValue false rest
  | c :: rest =>
    if c.isDigit then numberValue true (c :: rest)
    else if c = 'n' ∨ c = '[' ∨ c = '\x7b' then noScalar (pass .check (c :: rest))
    else .error (.atByte .expectedValue (c :: rest))

/-- An integer where one is expected; `rest` is left. -/
def Numeric.integer (rest : List Char) : Numeric → Read Int64
  | .natural n =>
    match Integer.fit n with
    | some i => .ok (i, rest)
    | none => .error (.before (.wrongInteger n) rest)
  | .negative n => .ok (Int64.ofInt n, rest)
  | .double x => .error (.before (.wrongKind (.floating x) .integer) rest)

/-- Reads an integer. -/
def runInteger (text : List Char) : Read Int64 :=
  match skipSpace text with
  | [] => .error (.before .endInValue [])
  | c :: rest =>
    if c = '-' then
      match number false rest with
      | .ok (n, after) => n.integer after
      | .error f => .error f
    else if c.isDigit then
      match number true (c :: rest) with
      | .ok (n, after) => n.integer after
      | .error f => .error f
    else .error (mismatch .integer (c :: rest))

/-- Reads a string. -/
def runText (text : List Char) : Read String :=
  match skipSpace text with
  | [] => .error (.before .endInValue [])
  | c :: rest => if c = '"' then string rest else .error (mismatch .string (c :: rest))

private theorem rest_length {text rest : List Char} {c : Char}
    (start : skipSpace text = c :: rest) : rest.length < text.length := by
  have skipped := skipSpace_length text
  rw [start, List.length_cons] at skipped
  omega

theorem wordValue_length {expected text rest : List Char} {v w : Value}
    (read : wordValue expected v text = .ok (w, rest)) : rest.length ≤ text.length := by
  unfold wordValue at read
  split at read
  · rename_i done
    obtain ⟨_, rfl⟩ := Prod.mk.inj (Except.ok.inj read)
    exact word_length done
  · cases read

theorem numberValue_length {positive : Bool} {text rest : List Char} {v : Value}
    (read : numberValue positive text = .ok (v, rest)) : rest.length < text.length := by
  unfold numberValue at read
  split at read
  · rename_i done
    obtain ⟨_, rfl⟩ := Prod.mk.inj (Except.ok.inj read)
    exact number_length done
  · cases read

theorem noScalar_ne_ok {passed : Except Fault (List Char)} {result : Value × List Char}
    (read : noScalar passed = .ok result) : False := by
  unfold noScalar at read
  split at read <;> cases read

theorem Numeric.integer_rest {n : Numeric} {text rest : List Char} {i : Int64}
    (read : n.integer text = .ok (i, rest)) : rest = text := by
  unfold Numeric.integer at read
  split at read
  · split at read
    · exact (Prod.mk.inj (Except.ok.inj read)).2.symm
    · cases read
  · exact (Prod.mk.inj (Except.ok.inj read)).2.symm
  · cases read

/-- The reader of the values of variables. -/
def scalar : Reader Value where
  run := runScalar
  shrinks := by
    intro text v rest read
    unfold runScalar at read
    split at read
    · cases read
    · rename_i start
      have := wordValue_length read
      have := rest_length start
      omega
    · rename_i start
      have := wordValue_length read
      have := rest_length start
      omega
    · rename_i start
      have := rest_length start
      split at read
      · rename_i done
        obtain ⟨_, rfl⟩ := Prod.mk.inj (Except.ok.inj read)
        have := string_length done
        omega
      · cases read
    · rename_i start
      have := numberValue_length read
      have := rest_length start
      omega
    · rename_i start
      have := rest_length start
      split at read
      · have := numberValue_length read
        rw [List.length_cons] at this
        omega
      · split at read
        · exact (noScalar_ne_ok read).elim
        · cases read

/-- The reader of integers. -/
def integer : Reader Int64 where
  run := runInteger
  shrinks := by
    intro text i rest read
    unfold runInteger at read
    split at read
    · cases read
    · rename_i start
      have := rest_length start
      split at read
      · split at read
        · rename_i done
          have := number_length done
          rw [Numeric.integer_rest read]
          omega
        · cases read
      · split at read
        · split at read
          · rename_i done
            have := number_length done
            rw [List.length_cons] at this
            rw [Numeric.integer_rest read]
            omega
          · cases read
        · cases read

/-- The reader of strings. -/
def text : Reader String where
  run := runText
  shrinks := by
    intro text s rest read
    unfold runText at read
    split at read
    · cases read
    · rename_i start
      have := rest_length start
      split at read
      · have := string_length read
        omega
      · cases read

/-- The sections read so far. -/
structure Draft where
  «variables» : Option (Table Value) := none
  arrays : Option (Table (Array Int64)) := none
  dictionaries : Option (Table (Table Int64)) := none
  classes : Option (Table (Table String)) := none

namespace Draft

/-- Whether a section is read. -/
def holds (d : Draft) : Section → Bool
  | .variables => d.variables.isSome
  | .arrays => d.arrays.isSome
  | .dictionaries => d.dictionaries.isSome
  | .classes => d.classes.isSome

/-- The store of a draft; absent sections are empty. -/
def store (d : Draft) : Store where
  «variables» := d.variables.getD .empty
  arrays := d.arrays.getD .empty
  dictionaries := d.dictionaries.getD .empty
  classes := d.classes.getD .empty

/-- Reads a part and puts it into its place. -/
def put {α : Type} (reader : Reader α) (place : α → Draft) (text : List Char) : Read Draft :=
  match reader.run text with
  | .ok (a, rest) => .ok (place a, rest)
  | .error f => .error f

/-- Reads the contents of a section. -/
def fill (d : Draft) (s : Section) (text : List Char) : Read Draft :=
  match s with
  | .variables => put scalar.map (fun t => { d with «variables» := some t }) text
  | .arrays => put integer.list.map (fun t => { d with arrays := some t }) text
  | .dictionaries => put integer.map.map (fun t => { d with dictionaries := some t }) text
  | .classes => put Document.text.map.map (fun t => { d with classes := some t }) text

theorem put_length {α : Type} {reader : Reader α} {place : α → Draft} {d : Draft}
    {text rest : List Char} (read : put reader place text = .ok (d, rest)) :
    rest.length < text.length := by
  unfold put at read
  split at read
  · rename_i done
    obtain ⟨_, rfl⟩ := Prod.mk.inj (Except.ok.inj read)
    exact reader.shrinks done
  · cases read

theorem fill_length {d e : Draft} {s : Section} {text rest : List Char}
    (read : d.fill s text = .ok (e, rest)) : rest.length < text.length := by
  cases s <;> exact put_length read

/-- Reads the member with a known key, after the key. A section that is already read is a fault
before anything else of the member is looked at. -/
def known (d : Draft) (s : Section) (text : List Char) : Read Draft :=
  if d.holds s then .error (.before (.duplicate s) (afterClosing text))
  else
    match colon text with
    | .ok rest => d.fill s rest
    | .error f => .error f

/-- Passes over the member with an unknown key, after the key. -/
def unknown (text : List Char) : Except Fault (List Char) :=
  match colon text with
  | .ok rest => pass .skim rest
  | .error f => .error f

/-- Reads one member after its key. -/
def member (d : Draft) (key : String) (text : List Char) : Read Draft :=
  match Section.ofKey? key with
  | some s => d.known s text
  | none =>
    match unknown text with
    | .ok rest => .ok (d, rest)
    | .error f => .error f

theorem member_length {d e : Draft} {key : String} {text rest : List Char}
    (read : d.member key text = .ok (e, rest)) : rest.length < text.length := by
  unfold Draft.member at read
  split at read
  · unfold known at read
    split at read
    · cases read
    · split at read
      · rename_i separator
        have := colon_length separator
        have := fill_length read
        omega
      · cases read
  · split at read
    · rename_i passed
      obtain ⟨_, rfl⟩ := Prod.mk.inj (Except.ok.inj read)
      unfold unknown at passed
      split at passed
      · rename_i separator
        have := colon_length separator
        have := pass_length passed
        omega
      · cases passed
    · cases read

/-- Reads the members of a document after its opening bracket. -/
def members (d : Draft) (first : Bool) (text : List Char) : Read Draft :=
  match next : nextKey first text with
  | .error f => .error f
  | .ok (none, rest) => .ok (d, rest)
  | .ok (some key, rest) =>
    match read : d.member key rest with
    | .error f => .error f
    | .ok (e, after) =>
      have := nextKey_length next
      have := member_length read
      members e false after
termination_by text.length

/-- Reads the end of a document in list form, after its last section. -/
def listEnd (text : List Char) : Except Fault (List Char) :=
  match skipSpace text with
  | [] => .error (.before .endInList [])
  | ']' :: rest => .ok rest
  | ',' :: rest =>
    match skipSpace rest with
    | ']' :: after => .error (.atByte .trailingComma (']' :: after))
    | after => .error (.atByte .trailingCharacters after)
  | rest => .error (.atByte .trailingCharacters rest)

/-- Reads the sections of a document in list form, in their order. -/
def sections (d : Draft) (first : Bool) : List Section → List Char → Read Draft
  | [], text =>
    match listEnd text with
    | .ok rest => .ok (d, rest)
    | .error f => .error f
  | s :: more, text =>
    match nextItem first text with
    | .error f => .error f
    | .ok (false, rest) => .ok (d, rest)
    | .ok (true, rest) =>
      match d.fill s rest with
      | .error f => .error f
      | .ok (e, after) => sections e false more after

end Draft

/-- Reads a whole document up to the spaces after it. -/
def draft (text : List Char) : Read Draft :=
  match skipSpace text with
  | [] => .error (.before .endInValue [])
  | '\x7b' :: rest => Draft.members {} true rest
  | '[' :: rest => Draft.sections {} true [.variables, .arrays, .dictionaries, .classes] rest
  | rest => .error (mismatch .state rest)

/-- `Environment.from_json`: the store that a text describes. -/
def read (text : String) : Except Fault Store :=
  match draft text.toList with
  | .error f => .error f
  | .ok (d, rest) =>
    match skipSpace rest with
    | [] => .ok d.store
    | more => .error (.atByte .trailingCharacters more)

end Linewise.Document
