/-! Signed 64-bit integers with checked arithmetic. A sum, difference, product or power is computed
exactly and then has to fit; quotient and remainder work on words and are refused for a zero
divisor and for the one pair whose quotient does not fit. -/
namespace Linewise.Integer

/-- The word with the exact value `n`, if there is one. -/
def fit (n : Int) : Option Int64 :=
  if Int64.minValue.toInt ≤ n ∧ n ≤ Int64.maxValue.toInt then some (Int64.ofInt n) else none

/-- The exact sum, if it fits. -/
def add? (x y : Int64) : Option Int64 :=
  fit (x.toInt + y.toInt)

/-- The exact difference, if it fits. -/
def sub? (x y : Int64) : Option Int64 :=
  fit (x.toInt - y.toInt)

/-- The exact product, if it fits. -/
def mul? (x y : Int64) : Option Int64 :=
  fit (x.toInt * y.toInt)

/-- The exact opposite, if it fits. -/
def neg? (x : Int64) : Option Int64 :=
  fit (-x.toInt)

/-- Whether a machine word holds the truncated quotient of `x` by `y`. -/
def Divides (x y : Int64) : Prop :=
  y ≠ 0 ∧ ¬ (x = Int64.minValue ∧ y = -1)

instance (x y : Int64) : Decidable (Divides x y) :=
  inferInstanceAs (Decidable (_ ∧ _))

/-- `floor_div`: the quotient rounded toward negative infinity, which is the truncated quotient,
less one when the division leaves a remainder and the operands have opposite signs. -/
def floorDiv? (x y : Int64) : Option Int64 :=
  if Divides x y then
    if x % y ≠ 0 ∧ (decide (x < 0) != decide (y < 0)) then sub? (x / y) 1 else some (x / y)
  else none

/-- `floor_mod`: the remainder with the sign of the divisor, which is the truncated remainder, plus
the divisor when the two have opposite signs. It is refused whenever the truncated quotient is, so
also for the least integer and the divisor `-1`. -/
def floorMod? (x y : Int64) : Option Int64 :=
  if Divides x y then
    if x % y ≠ 0 ∧ (decide (x % y < 0) != decide (y < 0)) then some (x % y + y) else some (x % y)
  else none

/-- The largest exponent of an integer power. -/
def maxExponent : Nat := UInt32.size - 1

/-- The exact power with a natural exponent, if it fits. From exponent 64 on only the powers of
`0`, `1` and `-1` fit, and they follow from the parity of the exponent. -/
def powNat? (x : Int64) (n : Nat) : Option Int64 :=
  if n < 64 then fit (x.toInt.pow n)
  else if x = 0 ∨ x = 1 then some x
  else if x = -1 then some (if n % 2 = 0 then 1 else -1)
  else none

/-- The exact power `x ^ y` for `0 ≤ y`, if it fits. An exponent above `maxExponent` is refused
whatever the base. -/
def pow? (x y : Int64) : Option Int64 :=
  if y.toInt ≤ maxExponent then powNat? x y.toInt.toNat else none

/-- The value of a run of decimal digits. -/
def ofDigits (digits : List Char) : Nat :=
  Nat.ofDigitChars 10 digits 0

/-- The natural number written by a non-empty run of decimal digits. -/
def magnitude? (digits : List Char) : Option Nat :=
  if digits ≠ [] ∧ digits.all Char.isDigit then some (ofDigits digits) else none

/-- The integer a text denotes: an optional sign and decimal digits, in range. -/
def ofText? : List Char → Option Int64
  | '-' :: digits => (magnitude? digits).bind fun n => fit (-n)
  | '+' :: digits => (magnitude? digits).bind fun n => fit n
  | digits => (magnitude? digits).bind fun n => fit n

/-- The decimal text of an integer, with a minus sign and no plus sign. -/
def text (n : Int64) : String :=
  let digits := String.ofList (Nat.toDigits 10 n.toInt.natAbs)
  if n < 0 then "-" ++ digits else digits

end Linewise.Integer
