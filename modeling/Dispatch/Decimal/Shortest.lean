import Dispatch.Decimal.Binary64
/-!
The decimal with the fewest digits that reads back as a given binary64 number, and of those the one
nearest to it.
-/
namespace Dispatch.Decimal

/-- The decimal `digits · 10 ^ exponent`. -/
structure Scientific where
  digits : Nat
  exponent : Int
  deriving DecidableEq, Repr

namespace Scientific

/-- A fraction with the same value. -/
def fraction (decimal : Scientific) : Nat × Nat :=
  match decimal.exponent with
  | .ofNat exponent => (decimal.digits * Nat.pow 10 exponent, 1)
  | .negSucc below => (decimal.digits, Nat.pow 10 (below + 1))

/-- Drops zeros at the end of the digits; the count bounds how many. -/
def stripZeros : Nat → Scientific → Scientific
  | 0, decimal => decimal
  | count + 1, decimal =>
    if decimal.digits ≠ 0 ∧ decimal.digits % 10 = 0 then
      stripZeros count { digits := decimal.digits / 10, exponent := decimal.exponent + 1 }
    else decimal

end Scientific

/-- The numbers that round to one binary64 number: all quarters of `2 ^ -1074`, the ends included
when the mantissa is even. -/
structure Interval where
  low : Nat
  middle : Nat
  high : Nat
  closed : Bool

namespace Interval

def around (number : Binary64) : Interval :=
  let unit := Nat.pow 2 number.power
  let below := if number.mantissa = Nat.pow 2 52 ∧ 0 < number.power then unit else 2 * unit
  let middle := 4 * number.scaled
  { low := middle - below, middle, high := middle + 2 * unit, closed := number.mantissa % 2 = 0 }

/-- Four times `2 ^ 1074`, the denominator of all three. -/
def denominator : Nat := 4 * Nat.pow 2 1074

def holds (interval : Interval) (decimal : Scientific) : Bool :=
  let (numerator, divisor) := decimal.fraction
  let value := numerator * denominator
  if interval.closed then interval.low * divisor ≤ value && value ≤ interval.high * divisor
  else interval.low * divisor < value && value < interval.high * divisor

/-- How far a decimal is from the middle, times the divisor of its fraction. -/
def distance (interval : Interval) (decimal : Scientific) : Nat :=
  let (numerator, divisor) := decimal.fraction
  let value := numerator * denominator
  let middle := interval.middle * divisor
  if value ≤ middle then middle - value else value - middle

end Interval

/-- The two neighbours of a number among the multiples of `10 ^ exponent`. -/
def neighbours (interval : Interval) (exponent : Int) : Scientific × Scientific :=
  let below :=
    match exponent with
    | .ofNat exponent => interval.middle / (Interval.denominator * Nat.pow 10 exponent)
    | .negSucc below => interval.middle * Nat.pow 10 (below + 1) / Interval.denominator
  ({ digits := below, exponent }, { digits := below + 1, exponent })

/-- The exponent of the leading decimal digit. -/
def leadingExponent (interval : Interval) : Int :=
  if Interval.denominator ≤ interval.middle then
    ((Nat.toDigits 10 (interval.middle / Interval.denominator)).length : Int) - 1
  else
    let shifted := interval.middle * Nat.pow 10 400 / Interval.denominator
    ((Nat.toDigits 10 shifted).length : Int) - 1 - 400

/-- The nearer neighbour that reads back, on a grid of the given number of digits; of two as near, the
one with the even last digit. -/
def onGrid? (interval : Interval) (leading : Int) (count : Nat) : Option Scientific :=
  let (lower, upper) := neighbours interval (leading - count + 1)
  match interval.holds lower, interval.holds upper with
  | true, true =>
    match compare (interval.distance lower) (interval.distance upper) with
    | .lt => some lower
    | .gt => some upper
    | .eq => if lower.digits % 2 = 0 then some lower else some upper
  | true, false => some lower
  | false, true => some upper
  | false, false => none

/-- Seventeen digits always suffice. -/
def shortest (number : Binary64) : Scientific :=
  let interval := Interval.around number
  let leading := leadingExponent interval
  match (List.range 17).findSome? fun count => onGrid? interval leading (count + 1) with
  | some decimal => decimal.stripZeros 17
  | none => { digits := 0, exponent := 0 }

end Dispatch.Decimal
