import Linewise.Text.Shown

/-! Texts in double quotes, for messages. The form is unambiguous: quotes, backslashes and
everything without a visible shape are escaped, all other characters stand for themselves. -/
namespace Linewise.Text

/-- The escape of a character by its code point: lower-case hexadecimal digits in braces. -/
def codePointEscape (c : Char) : List Char :=
  "\\u\x7b".toList ++ Nat.toDigits 16 c.toNat ++ ['\x7d']

/-- One character of a quoted text. -/
def quoteChar (c : Char) : List Char :=
  match c with
  | '\x00' => ['\\', '0']
  | '\t' => ['\\', 't']
  | '\n' => ['\\', 'n']
  | '\r' => ['\\', 'r']
  | '"' => ['\\', '"']
  | '\\' => ['\\', '\\']
  | _ => if isShown c then [c] else codePointEscape c

/-- The text in double quotes. -/
def quoted (text : String) : String :=
  String.ofList ('"' :: (text.toList.flatMap quoteChar ++ ['"']))

end Linewise.Text
