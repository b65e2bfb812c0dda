import Linewise.Document.Fault
import Linewise.Store

/-! Writing a state document: two spaces of indentation for each level, one member or item on a
line, names in the order of their tables. Equal namespaces give equal texts. -/
namespace Linewise.Document

/-- The escape of a control character by its code. -/
def controlEscape (c : Char) : List Char :=
  let digits := Nat.toDigits 16 c.toNat
  ['\\', 'u'] ++ List.replicate (4 - digits.length) '0' ++ digits

/-- `CharEscape`: one character of a string literal. -/
def writeChar (c : Char) : List Char :=
  match c with
  | '"' => ['\\', '"']
  | '\\' => ['\\', '\\']
  | '\x08' => ['\\', 'b']
  | '\x0c' => ['\\', 'f']
  | '\n' => ['\\', 'n']
  | '\r' => ['\\', 'r']
  | '\t' => ['\\', 't']
  | _ => if c.toNat < 32 then controlEscape c else [c]

/-- `format_escaped_str`: a string literal. -/
def writeText (s : String) : List Char :=
  '"' :: (s.toList.flatMap writeChar ++ ['"'])

/-- An integer literal. -/
def writeInteger (n : Int64) : List Char :=
  (Integer.text n).toList

/-- The literal of a value. -/
def writeValue : Value → List Char
  | .int n => writeInteger n
  | .float x => floatText x
  | .bool true => "true".toList
  | .bool false => "false".toList
  | .str s => writeText s

/-- The start of a line at a level of nesting. -/
def newLine (level : Nat) : List Char :=
  '\n' :: List.replicate (2 * level) ' '

/-- Parts on lines of their own, with commas between them. -/
def writeLines (level : Nat) : List (List Char) → List Char
  | [] => []
  | [part] => newLine level ++ part
  | part :: more => newLine level ++ part ++ ',' :: writeLines level more

/-- Parts in brackets, which close on a line of their own unless there is no part. -/
def writeBlock (opening closing : Char) (level : Nat) (parts : List (List Char)) : List Char :=
  if parts.isEmpty then [opening, closing]
  else opening :: (writeLines (level + 1) parts ++ newLine level ++ [closing])

/-- A member of an object. -/
def writeMember (name : String) (value : List Char) : List Char :=
  writeText name ++ ':' :: ' ' :: value

/-- A table as an object. -/
def writeTable {α : Type} (level : Nat) (write : α → List Char) (t : Table α) : List Char :=
  writeBlock '\x7b' '\x7d' level (t.entries.map fun e => writeMember e.1 (write e.2))

/-- An array as a list. -/
def writeArray (level : Nat) (items : Array Int64) : List Char :=
  writeBlock '[' ']' level (items.toList.map writeInteger)

/-- `Environment.to_json`: the text of the four namespaces of a store. -/
def write (s : Store) : String :=
  String.ofList <| writeBlock '\x7b' '\x7d' 0
    [ writeMember Section.variables.key (writeTable 1 writeValue s.variables),
      writeMember Section.arrays.key (writeTable 1 (writeArray 2) s.arrays),
      writeMember Section.dictionaries.key
        (writeTable 1 (writeTable 2 writeInteger) s.dictionaries),
      writeMember Section.classes.key (writeTable 1 (writeTable 2 writeText) s.classes) ]

end Linewise.Document
