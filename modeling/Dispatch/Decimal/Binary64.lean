/-!
Binary64 numbers without sign, as exact fractions and as bits: rounding a fraction to the nearest
number, and scaling by a power of ten with one rounding.
-/
namespace Dispatch.Decimal

/-- The nearest integer to a fraction; a half goes to the even neighbour. -/
def roundHalfEven (numerator denominator : Nat) : Nat :=
  let quotient := numerator / denominator
  let twice := 2 * (numerator % denominator)
  if twice < denominator then quotient
  else if denominator < twice then quotient + 1
  else if quotient % 2 = 0 then quotient else quotient + 1

/-- The number `mantissa · 2 ^ (power - 1074)`. -/
structure Binary64 where
  mantissa : Nat
  power : Nat
  deriving DecidableEq, Repr

namespace Binary64

def infinityBits : Nat := 0x7FF * Nat.pow 2 52

/-- A mantissa of 2 ^ 52 or more carries into the exponent, so one sum serves both ranges. -/
def bits (number : Binary64) : Nat := number.power * Nat.pow 2 52 + number.mantissa

def ofBits (bits : Nat) : Binary64 :=
  let exponent := bits / Nat.pow 2 52
  let fraction := bits % Nat.pow 2 52
  if exponent = 0 then { mantissa := fraction, power := 0 }
  else { mantissa := fraction + Nat.pow 2 52, power := exponent - 1 }

/-- The value times `2 ^ 1074`. -/
def scaled (number : Binary64) : Nat := number.mantissa * Nat.pow 2 number.power

/-- The number nearest to a fraction, if that is below infinity. -/
def nearest? (numerator denominator : Nat) : Option Binary64 :=
  let units := numerator * Nat.pow 2 1074
  let power := Nat.log2 (units / denominator) - 52
  let number : Binary64 :=
    { mantissa := roundHalfEven units (denominator * Nat.pow 2 power), power }
  if number.bits < infinityBits then some (ofBits number.bits) else none

/-- The product with a power of ten, which is rounded first. -/
def timesPowerOfTen? (number : Binary64) (exponent : Nat) : Option Binary64 := do
  let factor ← nearest? (Nat.pow 10 exponent) 1
  nearest? (number.scaled * factor.scaled) (Nat.pow 2 1074 * Nat.pow 2 1074)

/-- The quotient by a power of ten, which is rounded first. -/
def overPowerOfTen? (number : Binary64) (exponent : Nat) : Option Binary64 := do
  let divisor ← nearest? (Nat.pow 10 exponent) 1
  nearest? number.scaled divisor.scaled

/-- Ten to this power is the largest that is a number. -/
def largestPowerOfTen : Nat := 308

/-- `significand · 10 ^ exponent`, by one product or by at most two quotients. -/
def ofScientific? (significand : Nat) (exponent : Int) : Option Binary64 := do
  let start ← nearest? significand 1
  if significand = 0 then return start
  match exponent with
  | .ofNat exponent =>
    if largestPowerOfTen < exponent then none else start.timesPowerOfTen? exponent
  | .negSucc below =>
    let exponent := below + 1
    if exponent ≤ largestPowerOfTen then start.overPowerOfTen? exponent
    else if exponent ≤ 2 * largestPowerOfTen then
      let reduced ← start.overPowerOfTen? largestPowerOfTen
      reduced.overPowerOfTen? (exponent - largestPowerOfTen)
    else return { mantissa := 0, power := 0 }

end Binary64

end Dispatch.Decimal
