import Linewise.Decimal.Shortest
import Linewise.Double.Rounding

/-! Texts of doubles. The digits are always the shortest ones; a layout decides which numbers are
written positionally, how an exponent is marked and where ties go. -/
namespace Linewise.Decimal

/-- The choices of one written form. -/
structure Layout where
  /-- Which exponents of the leading digit are written positionally. -/
  positional : Int → Bool
  /-- Whether a positive exponent carries a plus sign. -/
  plus : Bool
  /-- Where the middle between two shortest decimals goes. -/
  tie : Tie

/-- The digits of the coefficient. -/
def digits (d : Decimal) : List Char :=
  Nat.toDigits 10 d.coefficient

/-- The exponent of the leading digit. -/
def leading (d : Decimal) : Int :=
  d.exponent + d.digits.length - 1

/-- The number in positional form, with at least one digit on each side of the point. -/
def plain (d : Decimal) : List Char :=
  if 0 ≤ d.exponent then
    d.digits ++ List.replicate d.exponent.toNat '0' ++ ['.', '0']
  else
    let places := (-d.exponent).toNat
    if places < d.digits.length then
      d.digits.take (d.digits.length - places) ++ '.' :: d.digits.drop (d.digits.length - places)
    else '0' :: '.' :: (List.replicate (places - d.digits.length) '0' ++ d.digits)

/-- The digits of an exponent with its sign. -/
def exponentText (plus : Bool) (n : Int) : List Char :=
  let digits := Nat.toDigits 10 n.natAbs
  if n < 0 then '-' :: digits else if plus then '+' :: digits else digits

/-- The number in exponent form: one digit, a point if more digits follow, and the exponent. -/
def scientific (plus : Bool) (d : Decimal) : List Char :=
  let mantissa := match d.digits with
    | first :: second :: more => first :: '.' :: second :: more
    | single => single
  mantissa ++ 'e' :: exponentText plus d.leading

/-- The text of a positive decimal. -/
def Layout.write (layout : Layout) (d : Decimal) : List Char :=
  if layout.positional d.leading then d.plain else d.scientific layout.plus

/-- The minus sign of a negative number. -/
def signed (negative : Bool) (text : List Char) : List Char :=
  if negative then '-' :: text else text

/-- The text of a double under a layout; `special` writes what is not a finite number. -/
def Layout.text (layout : Layout) (special : Float → List Char) (x : Float) : List Char :=
  match x.toModel.unpack with
  | .zero sign => signed (sign == .negative) ['0', '.', '0']
  | .finite sign m e _ => signed (sign == .negative) (layout.write (shortest layout.tie m e))
  | _ => special x

/-- The names of the infinities and of the double that is not a number. -/
def specialName (x : Float) : List Char :=
  if x.isNaN then "NaN".toList else if x < 0 then "-inf".toList else "inf".toList

/-- Doubles as the language shows them: never an exponent, and all digits of an integral number. -/
def shown : Layout where
  positional := fun _ => true
  plus := false
  tie := .up

/-- The text of a double as the language shows it. -/
def display (x : Float) : List Char :=
  match Double.wholeAbs? x with
  | some n => signed (x.toBits >>> 63 == 1) (Nat.toDigits 10 n ++ ['.', '0'])
  | none => shown.text specialName x

end Linewise.Decimal
