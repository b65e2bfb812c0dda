import Linewise.Text.Segments

/-! Where the replies to questions come from: a terminal with lines of input, or a list of replies
that was given beforehand. No reply means that the question was cancelled. -/
namespace Linewise

/-- The question for the value of a name. -/
def question (name : String) : String :=
  "Enter value for " ++ name ++ ": "

/-- `LinePrompt`: a terminal with the bytes that are still to be read, those that were written, and
how many more can be written if there is a limit. -/
structure Terminal where
  input : List UInt8 := []
  written : ByteArray := ByteArray.empty
  room : Option Nat := none

namespace Terminal

/-- Writes a text and tells whether all of it fitted. What fits is written in any case. -/
def write (t : Terminal) (text : String) : Terminal × Bool :=
  let bytes := text.toUTF8
  match t.room with
  | none => ({ t with written := t.written ++ bytes }, true)
  | some room =>
    if bytes.size ≤ room then
      ({ t with written := t.written ++ bytes, room := some (room - bytes.size) }, true)
    else ({ t with written := t.written ++ bytes.extract 0 room, room := some 0 }, false)

/-- Whether a character belongs to the end of a line. -/
def isLineEnd (c : Char) : Bool :=
  c == '\r' || c == '\n'

/-- The reply in a line of input: its text without the ends of lines behind it, or none if it is not
UTF-8. -/
def reply? (line : List UInt8) : Option String :=
  (String.fromUTF8? ⟨line.toArray⟩).map fun text =>
    String.ofList (text.toList.reverse.dropWhile isLineEnd).reverse

/-- Takes the next line of input off, up to its line feed. -/
def nextLine : List UInt8 → List UInt8 × List UInt8
  | [] => ([], [])
  | b :: rest =>
    if b = 10 then ([b], rest)
    else
      let (line, after) := nextLine rest
      (b :: line, after)

/-- `LinePrompt.ask`: asks for the value of a name. A line that gives no reply is used up all the
same; if the question cannot be written, nothing is read. -/
def ask (t : Terminal) (name : String) : Terminal × Option String :=
  match t.write (question name) with
  | (after, false) => (after, none)
  | (after, true) =>
    match after.input with
    | [] => (after, none)
    | bytes =>
      let (line, rest) := nextLine bytes
      ({ after with input := rest }, reply? line)

/-- The text of bytes that may end inside a character, which is then replaced by U+FFFD. -/
def textOf (bytes : ByteArray) : Option String :=
  [0, 1, 2, 3].findSome? fun cut =>
    (String.fromUTF8? (bytes.extract 0 (bytes.size - cut))).map fun text =>
      if cut = 0 then text else text.push '\uFFFD'

/-- What was written, as text. -/
def transcript (t : Terminal) : String :=
  (textOf t.written).getD ""

end Terminal

/-- `ScriptedPrompt`: replies given beforehand, and the names that were asked for. -/
structure Script where
  replies : List (Option String) := []
  asked : List String := []
deriving DecidableEq

/-- `ScriptedPrompt.ask`: takes the next reply; there is none after the last. -/
def Script.ask (s : Script) (name : String) : Script × Option String :=
  ({ replies := s.replies.tail, asked := s.asked ++ [name] }, s.replies.head?.join)

/-- `Prompt`: a source of replies. -/
inductive Prompt where
  | terminal (t : Terminal)
  | script (s : Script)

namespace Prompt

/-- Asks for the value of a name. -/
def ask (p : Prompt) (name : String) : Prompt × Option String :=
  match p with
  | .terminal t => (.terminal (t.ask name).1, (t.ask name).2)
  | .script s => (.script (s.ask name).1, (s.ask name).2)

/-- Shows a text where the questions appear; a list of replies has no such place. -/
def shown (p : Prompt) (text : String) : Prompt :=
  match p with
  | .terminal t => .terminal (t.write text).1
  | .script s => .script s

end Prompt

end Linewise
