import Linewise.Decimal.Layout
import Linewise.Text.Quoted

/-! What can be wrong with a state document, and where. A fault remembers the text that was left
when it arose, so its place follows from the whole text; places are counted in UTF-8 bytes. -/
namespace Linewise.Document

/-- The sections of a state document. -/
inductive Section where
  | variables
  | arrays
  | dictionaries
  | classes
deriving DecidableEq, Repr

/-- The key of a section. -/
def Section.key : Section → String
  | .variables => "variables"
  | .arrays => "arrays"
  | .dictionaries => "dictionaries"
  | .classes => "classes"

/-- The section with a key. -/
def Section.ofKey? (key : String) : Option Section :=
  [Section.variables, .arrays, .dictionaries, .classes].find? fun s => s.key == key

/-- Doubles in documents: positional from `0.00001` up to below `10 ^ 16`. -/
def floatLayout : Decimal.Layout where
  positional := fun e => decide (-5 ≤ e) && decide (e < 16)
  plus := true
  tie := .even

/-- The text of a double in a document. Only finite doubles have one of their own. -/
def floatText (x : Float) : List Char :=
  floatLayout.text (fun _ => "null".toList) x

/-- `Unexpected`: a value found where another was expected. -/
inductive Found where
  | null
  | boolean (b : Bool)
  | integer (n : Int)
  | floating (x : Float)
  | text (s : String)
  | sequence
  | map
deriving DecidableEq

/-- How a message names a value. -/
def Found.describe : Found → String
  | .null => "null"
  | .boolean true => "boolean `true`"
  | .boolean false => "boolean `false`"
  | .integer n => "integer `" ++ toString n ++ "`"
  | .floating x => "floating point `" ++ String.ofList (floatText x) ++ "`"
  | .text s => "string " ++ Text.quoted s
  | .sequence => "sequence"
  | .map => "map"

/-- What a place in the document has to hold. -/
inductive Expected where
  | state
  | map
  | sequence
  | string
  | integer
deriving DecidableEq, Repr

/-- How a message names an expectation. -/
def Expected.describe : Expected → String
  | .state => "struct Environment"
  | .map => "a map"
  | .sequence => "a sequence"
  | .string => "a string"
  | .integer => "i64"

/-- `ErrorCode`: what is wrong. -/
inductive Cause where
  | endInList
  | endInObject
  | endInString
  | endInValue
  | expectedColon
  | expectedListEnd
  | expectedObjectEnd
  | expectedWord
  | expectedValue
  | badEscape
  | badNumber
  | outOfRange
  | controlCharacter
  | keyNotString
  | loneSurrogate
  | endOfHexEscape
  | trailingComma
  | trailingCharacters
  | tooDeep
  | noScalar
  | duplicate (s : Section)
  | wrongKind (found : Found) (expected : Expected)
  | wrongInteger (n : Nat)
deriving DecidableEq

/-- The wording of a cause. -/
def Cause.message : Cause → String
  | .endInList => "EOF while parsing a list"
  | .endInObject => "EOF while parsing an object"
  | .endInString => "EOF while parsing a string"
  | .endInValue => "EOF while parsing a value"
  | .expectedColon => "expected `:`"
  | .expectedListEnd => "expected `,` or `]`"
  | .expectedObjectEnd => "expected `,` or `\x7d`"
  | .expectedWord => "expected ident"
  | .expectedValue => "expected value"
  | .badEscape => "invalid escape"
  | .badNumber => "invalid number"
  | .outOfRange => "number out of range"
  | .controlCharacter =>
    "control character (\\u0000-\\u001F) found while parsing a string"
  | .keyNotString => "key must be a string"
  | .loneSurrogate => "lone leading surrogate in hex escape"
  | .endOfHexEscape => "unexpected end of hex escape"
  | .trailingComma => "trailing comma"
  | .trailingCharacters => "trailing characters"
  | .tooDeep => "recursion limit exceeded"
  | .noScalar => "data did not match any variant of untagged enum Value"
  | .duplicate s => "duplicate field `" ++ s.key ++ "`"
  | .wrongKind found expected =>
    "invalid type: " ++ found.describe ++ ", expected " ++ expected.describe
  | .wrongInteger n =>
    "invalid value: integer `" ++ toString n ++ "`, expected " ++ Expected.integer.describe

/-- A cause and its place: so many bytes into the text that was left. -/
structure Fault where
  cause : Cause
  rest : List Char
  bytes : Nat

/-- The fault directly before the text that is left. -/
def Fault.before (cause : Cause) (rest : List Char) : Fault :=
  ⟨cause, rest, 0⟩

/-- The fault at the first byte of the text that is left. -/
def Fault.atByte (cause : Cause) (rest : List Char) : Fault :=
  ⟨cause, rest, 1⟩

/-- The size of a text in UTF-8 bytes. -/
def byteSize (text : List Char) : Nat :=
  text.foldl (fun size c => size + c.utf8Size) 0

/-- Line and column after some bytes: lines count from one, columns count the bytes of the line. -/
def place (bytes : List UInt8) : Nat × Nat :=
  bytes.foldl
    (fun (seen : Nat × Nat) b => if b = 10 then (seen.1 + 1, 0) else (seen.1, seen.2 + 1)) (1, 0)

/-- The offset of a fault in the whole text, in bytes. It never lies behind the end. -/
def Fault.offset (text : List Char) (f : Fault) : Nat :=
  min (byteSize text) (byteSize text - byteSize f.rest + f.bytes)

/-- The wording of a fault, with its place in the whole text. -/
def Fault.message (text : String) (f : Fault) : String :=
  let (line, column) := place (text.toUTF8.toList.take (f.offset text.toList))
  f.cause.message ++ " at line " ++ toString line ++ " column " ++ toString column

/-- The outcome of reading from the front of a text: a result and the text that is left. -/
abbrev Read (α : Type) := Except Fault (α × List Char)

/-- Whether a character may stand between the parts of a document. -/
def isSpace (c : Char) : Bool :=
  c == ' ' || c == '\n' || c == '\t' || c == '\r'

/-- The text without the spaces at its front. -/
def skipSpace (text : List Char) : List Char :=
  text.dropWhile isSpace

theorem skipSpace_length (text : List Char) : (skipSpace text).length ≤ text.length :=
  (List.dropWhile_sublist _).length_le

end Linewise.Document
