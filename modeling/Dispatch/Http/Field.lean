import Dispatch.Text.Basic
/-!
The fields in the head of a message: lines with a name and a value, up to an empty line.
-/
namespace Dispatch.Http

def lineFeed : UInt8 := 10

def carriageReturn : UInt8 := 13

/-- The first line and what follows it. A line ends at a line feed, which takes one carriage return before
it along. -/
def takeLine? : List UInt8 → Option (List UInt8 × List UInt8)
  | [] => none
  | byte :: rest =>
    if byte = lineFeed then some ([], rest)
    else if byte = carriageReturn ∧ rest.head? = some lineFeed then some ([], rest.tail)
    else (takeLine? rest).map fun (line, after) => (byte :: line, after)

/-- Each byte as the character with its number. -/
def characters (bytes : List UInt8) : List Char := bytes.map fun byte => Char.ofNat byte.toNat

def isNameCharacter (c : Char) : Bool := c.isAlphanum || "!#$%&'*+-.^_`|~".toList.contains c

/-- What may stand in a value. -/
def isTextCharacter (c : Char) : Bool := c = '\t' || (' ' ≤ c && c ≠ '\x7F')

/-- What may stand in a value that is looked at. -/
def isVisible (c : Char) : Bool := c = '\t' || (' ' ≤ c && c ≤ '~')

/-- Without spaces and tabs around it. -/
def trimmed (value : List Char) : List Char :=
  let isSpace (c : Char) : Bool := c = ' ' || c = '\t'
  Text.dropEndWhile isSpace (value.dropWhile isSpace)

/-- The name is in small letters, the value without blanks around it. -/
structure Field where
  name : String
  value : List Char
  deriving DecidableEq, Repr, Inhabited

namespace Field

/-- How many fields a head may have. -/
def limit : Nat := 100

/-- A colon follows the name at once. -/
def read? (line : List Char) : Option Field := do
  let name := line.takeWhile isNameCharacter
  guard !name.isEmpty
  match line.drop name.length with
  | ':' :: value =>
    guard (value.all isTextCharacter)
    return { name := String.ofList (name.map Char.toLower), value := trimmed value }
  | _ => none

/-- The fields up to an empty line, and what follows it. -/
def readAll? : (left : Nat) → List UInt8 → Option (List Field × List UInt8)
  | 0, stream => do
    let (line, rest) ← takeLine? stream
    guard line.isEmpty
    return ([], rest)
  | left + 1, stream => do
    let (line, rest) ← takeLine? stream
    if line.isEmpty then return ([], rest)
    let field ← read? (characters line)
    let (fields, rest) ← readAll? left rest
    return (field :: fields, rest)

/-- The values of all fields with a name, in order. -/
def values (name : String) (fields : List Field) : List (List Char) :=
  (fields.filter fun field => field.name == name).map Field.value

end Field

end Dispatch.Http
