import Linewise.Decimal.Layout
import Linewise.Integer
import Linewise.Text.Quoted

/-! Tokens of expressions. -/
namespace Linewise

/-- Operators and brackets. -/
inductive Symbol where
  | plus
  | minus
  | star
  | power
  | slash
  | floorDiv
  | percent
  | eq
  | notEq
  | less
  | lessEq
  | greater
  | greaterEq
  | andAnd
  | orOr
  | bang
  | lparen
  | rparen
deriving DecidableEq, Repr

/-- The name of a symbol in messages. -/
def Symbol.name : Symbol → String
  | .plus => "Plus"
  | .minus => "Minus"
  | .star => "Star"
  | .power => "Power"
  | .slash => "Slash"
  | .floorDiv => "FloorDiv"
  | .percent => "Percent"
  | .eq => "Eq"
  | .notEq => "NotEq"
  | .less => "Less"
  | .lessEq => "LessEq"
  | .greater => "Greater"
  | .greaterEq => "GreaterEq"
  | .andAnd => "AndAnd"
  | .orOr => "OrOr"
  | .bang => "Bang"
  | .lparen => "LParen"
  | .rparen => "RParen"

/-- The characters of a symbol. -/
def Symbol.spelling : Symbol → List Char
  | .plus => ['+']
  | .minus => ['-']
  | .star => ['*']
  | .power => ['*', '*']
  | .slash => ['/']
  | .floorDiv => ['/', '/']
  | .percent => ['%']
  | .eq => ['=', '=']
  | .notEq => ['!', '=']
  | .less => ['<']
  | .lessEq => ['<', '=']
  | .greater => ['>']
  | .greaterEq => ['>', '=']
  | .andAnd => ['&', '&']
  | .orOr => ['|', '|']
  | .bang => ['!']
  | .lparen => ['(']
  | .rparen => [')']

/-- A token: a literal, a name or a symbol. Keywords are names. -/
inductive Token where
  | int (n : Int64)
  | float (x : Float)
  | str (s : String)
  | name (s : String)
  | symbol (s : Symbol)
deriving DecidableEq

namespace Token

/-- Doubles inside messages: positional from `0.0001` up to below `10 ^ 16`. -/
def floatLayout : Decimal.Layout where
  positional := fun e => decide (-5 < e) && decide (e < 16)
  plus := false
  tie := .up

/-- The token as a message names it. -/
def describe : Token → String
  | .int n => "Int(" ++ Integer.text n ++ ")"
  | .float x => "Float(" ++ String.ofList (floatLayout.text Decimal.specialName x) ++ ")"
  | .str s => "Str(" ++ Text.quoted s ++ ")"
  | .name s => "Ident(" ++ Text.quoted s ++ ")"
  | .symbol s => s.name

end Token

end Linewise
