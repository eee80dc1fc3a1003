import Dispatch.Text.Basic
/-!
Decimal numerals: how numbers are written, and which texts are read as numbers.
-/
namespace Dispatch.Text

/-- The decimal digits of a number, with zeros in front up to the given width. -/
def padded (width number : Nat) : List Char :=
  let digits := Nat.toDigits 10 number
  List.replicate (width - digits.length) '0' ++ digits

def isDigit (c : Char) : Bool := '0' ≤ c && c ≤ '9'

/-- Why a text is not a number of the wanted range. -/
inductive NumeralError
  | empty
  | invalidDigit
  | tooLarge
  | tooSmall
  deriving DecidableEq, Repr

namespace NumeralError

def message : NumeralError → String
  | empty => "cannot parse integer from empty string"
  | invalidDigit => "invalid digit found in string"
  | tooLarge => "number too large to fit in target type"
  | tooSmall => "number too small to fit in target type"

end NumeralError

/-- Digits only, and a value of at most `limit`: reading stops at the first character that is no
digit or that takes the value past the limit. -/
def readDigitsFrom (limit value : Nat) : List Char → Except NumeralError Nat
  | [] => .ok value
  | c :: rest =>
    if !isDigit c then .error .invalidDigit
    else
      let next := 10 * value + (c.toNat - '0'.toNat)
      if limit < next then .error .tooLarge else readDigitsFrom limit next rest

/-- At least one digit. -/
def readDigits (limit : Nat) : List Char → Except NumeralError Nat
  | [] => .error .invalidDigit
  | c :: rest => readDigitsFrom limit 0 (c :: rest)

/-- A natural number of at most `limit`: an optional plus sign, then digits. -/
def readNatural (limit : Nat) : List Char → Except NumeralError Nat
  | [] => .error .empty
  | '+' :: digits => readDigits limit digits
  | digits => readDigits limit digits

/-- An integer between `-limit - 1` and `limit`: an optional sign, then digits. -/
def readInteger (limit : Nat) : List Char → Except NumeralError Int
  | [] => .error .empty
  | '-' :: digits =>
    match readDigits (limit + 1) digits with
    | .ok value => .ok (-(value : Int))
    | .error .tooLarge => .error .tooSmall
    | .error other => .error other
  | '+' :: digits => (readDigits limit digits).map Int.ofNat
  | digits => (readDigits limit digits).map Int.ofNat

def readUInt32? (text : List Char) : Option UInt32 :=
  (readNatural (UInt32.size - 1) text).toOption.map UInt32.ofNat

def readUInt64 (text : List Char) : Except NumeralError UInt64 :=
  (readNatural (UInt64.size - 1) text).map UInt64.ofNat

def readInt64? (text : List Char) : Option Int :=
  (readInteger (Nat.pow 2 63 - 1) text).toOption

end Dispatch.Text
