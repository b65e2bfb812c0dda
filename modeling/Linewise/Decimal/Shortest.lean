/-! The shortest decimal of a positive double `m * 2 ^ e`: of all decimals that round to it, those
with the fewest digits, and of these the nearest. The search walks the decimal grids from one digit
on and looks only at the two neighbours of the value on each grid, in exact arithmetic. -/
namespace Linewise

/-- The decimal `coefficient * 10 ^ exponent`. -/
structure Decimal where
  coefficient : Nat
  exponent : Int
deriving DecidableEq, Repr

namespace Decimal

/-- Where the middle between two neighbours on a grid goes. -/
inductive Tie where
  | up
  | even
deriving DecidableEq, Repr

/-- A positive value and the ends of its rounding interval, as numerators over one denominator.
`closed` tells whether the ends themselves round to the value. -/
structure Interval where
  value : Nat
  low : Nat
  high : Nat
  denominator : Nat
  closed : Bool

/-- The reals that round to `m * 2 ^ e`. Below a power of two the neighbour is only half as far
away, except below the least normal number, whose exponent is `-1074`. -/
def Interval.ofBinary (m : Nat) (e : Int) : Interval :=
  let scale := Nat.pow 2 (e - 2).toNat
  let lowGap := if m = Nat.pow 2 52 ∧ -1074 < e then 1 else 2
  { value := 4 * m * scale
    low := (4 * m - lowGap) * scale
    high := (4 * m + 2) * scale
    denominator := Nat.pow 2 (2 - e).toNat
    closed := m % 2 = 0 }

/-- The number of decimal digits of `n`. -/
def digitCount (n : Nat) : Nat :=
  (Nat.toDigits 10 n).length

/-- The exponent of the leading digit of `n / d`, for positive `n` and `d`. -/
def leadingExponent (n d : Nat) : Int :=
  if d ≤ n then digitCount (n / d) - 1
  else
    let j := digitCount (d / n)
    if d ≤ n * Nat.pow 10 (j - 1) then 1 - j else -j

/-- The member of the grid of multiples of `10 ^ k` that stands for the interval: the nearer of the
value's two neighbours, of those that lie in the interval. -/
def Interval.gridPoint? (i : Interval) (tie : Tie) (k : Int) : Option Nat :=
  let up := Nat.pow 10 (-k).toNat
  let unit := i.denominator * Nat.pow 10 k.toNat
  let below := i.value * up / unit
  let rest := i.value * up % unit
  let lowHit := if i.closed then i.low * up ≤ below * unit else i.low * up < below * unit
  let highHit :=
    if i.closed then (below + 1) * unit ≤ i.high * up else (below + 1) * unit < i.high * up
  if lowHit ∧ highHit then
    if 2 * rest < unit then some below
    else if unit < 2 * rest then some (below + 1)
    else match tie with
      | .up => some (below + 1)
      | .even => some (if below % 2 = 0 then below else below + 1)
  else if lowHit then some below
  else if highHit then some (below + 1)
  else none

/-- The first hit on the grids `10 ^ k`, `10 ^ (k - 1)`, and so on. Without a hit on any of them the
neighbour on the last grid stands in, which for doubles never happens within 17 grids. -/
def Interval.search (i : Interval) (tie : Tie) (k : Int) : Nat → Decimal
  | 0 => ⟨i.value * Nat.pow 10 (-k).toNat / (i.denominator * Nat.pow 10 k.toNat), k⟩
  | grids + 1 =>
    match i.gridPoint? tie k with
    | some d => ⟨d, k⟩
    | none => i.search tie (k - 1) grids

/-- The same number without trailing zeros in the coefficient. -/
def strip (d : Decimal) : Decimal :=
  if d.coefficient = 0 then ⟨0, 0⟩
  else if d.coefficient % 10 = 0 then strip ⟨d.coefficient / 10, d.exponent + 1⟩
  else d
termination_by d.coefficient

/-- The shortest decimal that rounds to `m * 2 ^ e`. -/
def shortest (tie : Tie) (m : Nat) (e : Int) : Decimal :=
  let interval := Interval.ofBinary m e
  (interval.search tie (leadingExponent interval.value interval.denominator) 17).strip

end Decimal

end Linewise
