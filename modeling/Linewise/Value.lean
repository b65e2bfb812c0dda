import Linewise.Decimal.Layout
import Linewise.Decimal.Numeral
import Linewise.Integer
import Linewise.Text.Blank

/-! Values of the language and their numeric view, in which booleans count as `0` and `1`. -/
namespace Linewise

/-- The kinds of values. -/
inductive Kind where
  | int
  | float
  | bool
  | str
deriving DecidableEq, Repr

/-- `type_name`: the name of a kind in messages. -/
def Kind.name : Kind → String
  | .int => "int"
  | .float => "float"
  | .bool => "bool"
  | .str => "str"

/-- A value. Equality of values is exact: it tells the two zeros apart. -/
inductive Value where
  | int (n : Int64)
  | float (x : Float)
  | bool (b : Bool)
  | str (s : String)
deriving DecidableEq

/-- A numeric operand. -/
inductive Number where
  | int (n : Int64)
  | float (x : Float)
deriving DecidableEq

namespace Number

/-- `as_f64`: the number as a double, correctly rounded. -/
def toDouble : Number → Float
  | .int n => Double.ofInt n.toInt
  | .float x => x

/-- `is_positive`: whether the number is above zero. -/
def isPositive : Number → Bool
  | .int n => decide (0 < n)
  | .float x => decide (0 < x)

/-- The number as a value. -/
def toValue : Number → Value
  | .int n => .int n
  | .float x => .float x

end Number

namespace Value

/-- The kind of a value. -/
def kind : Value → Kind
  | .int _ => .int
  | .float _ => .float
  | .bool _ => .bool
  | .str _ => .str

/-- `is_truthy`: whether a condition takes the value for true, which it does for numbers other than
zero, `true`, and texts that are not empty. -/
def isTruthy : Value → Bool
  | .int n => n != 0
  | .float x => !x.beq 0
  | .bool b => b
  | .str s => s != ""

/-- `as_number`: the numeric view; texts have none. -/
def number? : Value → Option Number
  | .int n => some (.int n)
  | .float x => some (.float x)
  | .bool b => some (.int (if b then 1 else 0))
  | .str _ => none

/-- `fmt`: the value as the language shows it. -/
def text : Value → String
  | .int n => Integer.text n
  | .float x => String.ofList (Decimal.display x)
  | .bool true => "True"
  | .bool false => "False"
  | .str s => s

/-- `parse_scalar`: the value of a text that a user supplies, without the blanks around it an
integer or a finite decimal, else the whole text as it is. -/
def ofInput (input : String) : Value :=
  let body := Text.trim input.toList
  match Integer.ofText? body with
  | some n => .int n
  | none =>
    match Decimal.signed? body with
    | some x => if x.isFinite then .float x else .str input
    | none => .str input

end Value

end Linewise
