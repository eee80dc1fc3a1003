import Dispatch.Json.Basic
import Dispatch.Text.Numeral
import Dispatch.Decimal.Shortest
/-!
Numbers of JSON texts: the grammar of literals, the number a literal stands for, and the text a number
is written as.
-/
namespace Dispatch.Json

/-- The parts of a literal: digits before the point, digits after it, and the exponent. -/
structure Literal where
  negative : Bool
  whole : List Char
  fraction : Option (List Char)
  exponent : Option (Bool × List Char)

namespace Literal

def digits (text : List Char) : List Char × List Char :=
  (text.takeWhile Text.isDigit, text.dropWhile Text.isDigit)

/-- A digit, and no zero in front of another digit. -/
def isWhole : List Char → Bool
  | [] => false
  | ['0'] => true
  | '0' :: _ => false
  | _ => true

def readExponent? (text : List Char) : Option (Option (Bool × List Char)) :=
  match text with
  | [] => some none
  | mark :: rest =>
    if mark = 'e' || mark = 'E' then
      let (negative, digits) :=
        match rest with
        | '-' :: digits => (true, digits)
        | '+' :: digits => (false, digits)
        | digits => (false, digits)
      if digits.isEmpty || !digits.all Text.isDigit then none else some (some (negative, digits))
    else none

def read? (text : List Char) : Option Literal := do
  let (negative, text) :=
    match text with
    | '-' :: rest => (true, rest)
    | text => (false, text)
  let (whole, text) := digits text
  guard (isWhole whole)
  match text with
  | '.' :: rest =>
    let (fraction, rest) := digits rest
    guard !fraction.isEmpty
    let exponent ← readExponent? rest
    return { negative, whole, fraction := some fraction, exponent }
  | text =>
    let exponent ← readExponent? text
    return { negative, whole, fraction := none, exponent }

def largestSignificand : Nat := UInt64.size - 1

def largestExponent : Nat := Nat.pow 2 31 - 1

/-- The whole digits as a significand of 64 bits and a power of ten: from the first digit that does
not fit on, each digit counts as a power of ten. -/
def wholePart (significand : Nat) : List Char → Nat × Nat
  | [] => (significand, 0)
  | c :: rest =>
    let next := 10 * significand + (c.toNat - '0'.toNat)
    if next ≤ largestSignificand then wholePart next rest else (significand, rest.length + 1)

/-- Digits after the point are taken up to the first that does not fit. -/
def fractionPart (significand taken : Nat) : List Char → Nat × Nat
  | [] => (significand, taken)
  | c :: rest =>
    let next := 10 * significand + (c.toNat - '0'.toNat)
    if next ≤ largestSignificand then fractionPart next (taken + 1) rest else (significand, taken)

/-- The bits of the number, unless it is beyond binary64. -/
def floatBits? (literal : Literal) : Option UInt64 := do
  let (significand, above) := wholePart 0 literal.whole
  let (significand, below) := fractionPart significand 0 (literal.fraction.getD [])
  let exponent : Int := above - below
  let magnitude ←
    match literal.exponent with
    | none => Decimal.Binary64.ofScientific? significand exponent
    | some (negative, digits) =>
      let size := Nat.ofDigitChars 10 digits 0
      if largestExponent < size then
        if significand ≠ 0 && !negative then none else Decimal.Binary64.ofScientific? 0 0
      else
        Decimal.Binary64.ofScientific? significand (if negative then exponent - size else exponent + size)
  let sign := if literal.negative then Nat.pow 2 63 else 0
  return UInt64.ofNat (sign + magnitude.bits)

/-- Integers of 64 bits stay integers; zero with a minus sign does not. -/
def number? (literal : Literal) : Option Number :=
  let value := Nat.ofDigitChars 10 literal.whole 0
  match literal.fraction, literal.exponent, literal.negative with
  | none, none, false =>
    if value < UInt64.size then some (.integer value) else literal.floatBits?.map .float
  | none, none, true =>
    if 0 < value && value ≤ Nat.pow 2 63 then some (.integer (-(value : Int))) else literal.floatBits?.map .float
  | _, _, _ => literal.floatBits?.map .float

end Literal

namespace Number

/-- No result: not a literal. An empty result: a literal beyond binary64. -/
def ofLiteral? (text : List Char) : Option (Option Number) :=
  (Literal.read? text).map Literal.number?

/-- Positional with at least one place for a leading digit at 10 ^ -5 to 10 ^ 15, else with a signed
exponent after the first digit. -/
def writeScientific (decimal : Decimal.Scientific) : List Char :=
  let digits := Nat.toDigits 10 decimal.digits
  let point : Int := digits.length + decimal.exponent
  if 0 ≤ decimal.exponent && point ≤ 16 then
    digits ++ List.replicate decimal.exponent.toNat '0' ++ ['.', '0']
  else if 0 < point && point ≤ 16 then
    digits.take point.toNat ++ '.' :: digits.drop point.toNat
  else if -5 < point && point ≤ 0 then
    '0' :: '.' :: List.replicate (-point).toNat '0' ++ digits
  else
    let size := (toString (point - 1).natAbs).toList
    let exponent := (if point ≤ 0 then '-' else '+') :: size
    match digits with
    | first :: second :: rest => first :: '.' :: second :: rest ++ 'e' :: exponent
    | digits => digits ++ 'e' :: exponent

def writeFloat (bits : UInt64) : List Char :=
  let magnitude := bits.toNat % Nat.pow 2 63
  let digits :=
    if magnitude = 0 then ['0', '.', '0']
    else writeScientific (Decimal.shortest (Decimal.Binary64.ofBits magnitude))
  if Nat.pow 2 63 ≤ bits.toNat then '-' :: digits else digits

def write : Number → List Char
  | integer value => (toString value).toList
  | float bits => writeFloat bits

end Number

end Dispatch.Json
