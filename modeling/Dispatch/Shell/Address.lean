import Dispatch.Text.Numeral
/-!
Hosts that have an address without any service that knows names: numbers of four bytes, groups of
hexadecimal digits, and the host itself.
-/
namespace Dispatch.Shell

def isHexDigit (c : Char) : Bool := Text.isDigit c || ('a' ≤ c && c ≤ 'f') || ('A' ≤ c && c ≤ 'F')

def hexValue (c : Char) : Nat :=
  if Text.isDigit c then c.toNat - '0'.toNat else c.toLower.toNat - 'a'.toNat + 10

/-- The value of digits of a base, at least one, each of them of the wanted kind. -/
def readInBase? (base : Nat) (isWanted : Char → Bool) (digits : List Char) : Option Nat :=
  if digits.isEmpty || !digits.all isWanted then none
  else some (digits.foldl (fun value c => base * value + hexValue c) 0)

/-- A number that begins with 0x is hexadecimal, any other with a leading zero octal. -/
def readPart? (part : List Char) : Option Nat :=
  match part with
  | '0' :: c :: rest =>
    if c = 'x' || c = 'X' then readInBase? 16 isHexDigit rest
    else readInBase? 8 (fun c => '0' ≤ c && c ≤ '7') (c :: rest)
  | digits => readInBase? 10 Text.isDigit digits

/-- Up to four numbers between dots. Each is a byte but the last, which fills the rest. -/
def isNumeric (host : List Char) : Bool :=
  let numbers := (Text.fields '.' host).map readPart?
  numbers.length ≤ 4 && numbers.dropLast.all (fun number => number.any (· < 256)) &&
    (numbers.getLast?.join).any fun number => number < Nat.pow 256 (5 - numbers.length)

/-- A decimal byte without leading zeros. -/
def isByte (part : List Char) : Bool :=
  part.length ≤ 3 && !(1 < part.length && part.head? = some '0') &&
    (readInBase? 10 Text.isDigit part).any (· < 256)

/-- Four decimal bytes between dots. -/
def isDotted (text : List Char) : Bool :=
  let parts := Text.fields '.' text
  parts.length = 4 && parts.all isByte

def isGroup (part : List Char) : Bool :=
  !part.isEmpty && part.length ≤ 4 && part.all isHexDigit

/-- How many groups there are between colons. Four bytes at the end of an address stand for two. -/
def groupCount? (isEnd : Bool) (text : List Char) : Option Nat :=
  if text.isEmpty then some 0
  else
    let parts := Text.fields ':' text
    let isLastDotted := isEnd && parts.getLast?.any isDotted
    let groups := if isLastDotted then parts.dropLast else parts
    if groups.all isGroup then some (groups.length + if isLastDotted then 2 else 0) else none

/-- Eight groups, of which two colons may stand for one or more. -/
def isGrouped (host : List Char) : Bool :=
  match Text.around? "::".toList host with
  | none => groupCount? true host = some 8
  | some (before, after) =>
    match groupCount? false before, groupCount? true after with
    | some lead, some trail => lead + trail ≤ 7
    | _, _ => false

/-- The number of a zone after a percent sign. -/
def isZone (text : List Char) : Bool := (Text.readDigits (UInt32.size - 1) text).toOption.isSome

def isZoned (host : List Char) : Bool :=
  match Text.cut? '%' host with
  | some (address, zone) => isGrouped address && isZone zone
  | none => isGrouped host

/-- The name that a host has for itself, in any letters. -/
def isOwnName (host : List Char) : Bool := host.map Char.toLower = "localhost".toList

def hasAddress (host : String) : Bool :=
  isOwnName host.toList || isNumeric host.toList || isZoned host.toList

end Dispatch.Shell
