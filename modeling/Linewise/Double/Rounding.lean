/-! Rounding between doubles and integers, computed from the exact value `± m * 2 ^ e` of a finite
double. A zero result keeps the sign of its argument. -/
namespace Linewise.Double

/-- The double nearest to an integer, ties to even. -/
def ofInt (n : Int) : Float :=
  Float.ofModel (Float.Model.ofInt n)

/-- Zero with the sign of a negative or of a positive number. -/
def zero (negative : Bool) : Float :=
  if negative then -0.0 else 0.0

/-- The integral double chosen by `round`, which receives the exact value as a numerator and a
positive denominator. Doubles that are integral, infinite or not a number stay as they are. -/
def roundBy (round : Int → Int → Int) (x : Float) : Float :=
  match x.toModel.unpack with
  | .finite sign mantissa exponent _ =>
    if 0 ≤ exponent then x
    else
      let whole := round (sign.apply mantissa) (Int.pow 2 (-exponent).toNat)
      if whole = 0 then zero (sign == .negative) else ofInt whole
  | _ => x

/-- The largest integral double not above `x`. -/
def floor (x : Float) : Float :=
  roundBy (fun n d => n.fdiv d) x

/-- The smallest integral double not below `x`. -/
def ceil (x : Float) : Float :=
  roundBy (fun n d => -(-n).fdiv d) x

/-- The absolute value of an integral finite double. -/
def wholeAbs? (x : Float) : Option Nat :=
  match x.toModel.unpack with
  | .zero _ => some 0
  | .finite _ mantissa exponent _ =>
    if 0 ≤ exponent then some (mantissa * Nat.pow 2 exponent.toNat)
    else
      let scale := Nat.pow 2 (-exponent).toNat
      if mantissa % scale = 0 then some (mantissa / scale) else none
  | _ => none

end Linewise.Double
