import Linewise.Integer
import Linewise.Double.Rounding

/-! Written decimal numbers: digits with an optional point and an optional exponent. A numeral
denotes an exact decimal, and its double is that decimal correctly rounded. -/
namespace Linewise.Decimal

/-- An unsigned numeral: the digits before and after the point, and the exponent. -/
structure Numeral where
  whole : List Char
  fraction : List Char
  exponent : Int

/-- The exponent written after the exponent letter: an optional sign and at least one digit. -/
def exponent? : List Char → Option Int
  | '-' :: digits => (Integer.magnitude? digits).map fun n => -(n : Int)
  | '+' :: digits => (Integer.magnitude? digits).map fun n => (n : Int)
  | digits => (Integer.magnitude? digits).map fun n => (n : Int)

/-- Reads the part after the digits: nothing, or an exponent letter with its exponent. -/
def exponentPart? : List Char → Option Int
  | [] => some 0
  | c :: rest => if c = 'e' ∨ c = 'E' then exponent? rest else none

/-- Reads a whole text as a numeral. The digits may miss on one side of the point, not on both. -/
def Numeral.ofText? (text : List Char) : Option Numeral :=
  let whole := text.takeWhile Char.isDigit
  match text.dropWhile Char.isDigit with
  | '.' :: rest =>
    let fraction := rest.takeWhile Char.isDigit
    if whole.isEmpty && fraction.isEmpty then none
    else (exponentPart? (rest.dropWhile Char.isDigit)).map fun e => ⟨whole, fraction, e⟩
  | rest => if whole.isEmpty then none else (exponentPart? rest).map fun e => ⟨whole, [], e⟩

/-- The double nearest to the numeral, ties to even; a numeral too large for a finite double gives
infinity. -/
def Numeral.toDouble (n : Numeral) : Float :=
  let scale := n.exponent - n.fraction.length
  Float.ofScientific (Integer.ofDigits (n.whole ++ n.fraction)) (scale < 0) scale.natAbs

/-- The double an unsigned numeral denotes. -/
def unsigned? (text : List Char) : Option Float :=
  (Numeral.ofText? text).map Numeral.toDouble

/-- The double a numeral with an optional sign denotes. -/
def signed? : List Char → Option Float
  | '-' :: text => (unsigned? text).map fun x => -x
  | '+' :: text => unsigned? text
  | text => unsigned? text

end Linewise.Decimal
