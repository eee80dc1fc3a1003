import Dispatch.Text.Basic
/-!
JSON values. Objects keep their members as written, repeated names included; `canonical?` gives the
value that a text stands for.
-/
namespace Dispatch

namespace Json

/-- An integer of 64 bits, or a binary64 number given by its bits. -/
inductive Number
  | integer (value : Int)
  | float (bits : UInt64)
  deriving DecidableEq, Repr, Inhabited

end Json

/-- `unreadable` is a well-formed text without a value: a number beyond binary64, a string with half a
surrogate pair, or an array or object inside 127 others. It does no harm where a value is skipped. -/
inductive Json
  | null
  | bool (value : Bool)
  | number (value : Json.Number)
  | string (value : String)
  | array (items : List Json)
  | object (members : List (String × Json))
  | unreadable
  deriving Repr, Inhabited, BEq

namespace Json

def int (value : Int) : Json := .number (.integer value)

def nat (value : Nat) : Json := .number (.integer value)

def ofOption (encode : α → Json) : Option α → Json
  | none => .null
  | some value => encode value

def ofList (encode : α → Json) (values : List α) : Json := .array (values.map encode)

/-- The last member of that name. -/
def lookup (name : String) : List (String × Json) → Option Json
  | [] => none
  | (other, value) :: rest =>
    match lookup name rest with
    | some later => some later
    | none => if other = name then some value else none

def get? (name : String) : Json → Option Json
  | .object members => lookup name members
  | _ => none

/-- Puts a member at its place in the order of names, instead of one of the same name. -/
def insertMember (name : String) (value : Json) : List (String × Json) → List (String × Json)
  | [] => [(name, value)]
  | (other, old) :: rest =>
    if name = other then (name, value) :: rest
    else if name < other then (name, value) :: (other, old) :: rest
    else (other, old) :: insertMember name value rest

mutual

/-- The value a text stands for, if it has one: members sorted by name, the last of equal names. -/
def canonical? : Json → Option Json
  | .null => some .null
  | .bool value => some (.bool value)
  | .number value => some (.number value)
  | .string value => some (.string value)
  | .array items => (canonicalItems? items).map .array
  | .object members => (canonicalMembers? members []).map .object
  | .unreadable => none

def canonicalItems? : List Json → Option (List Json)
  | [] => some []
  | item :: rest => do
    let item ← canonical? item
    let rest ← canonicalItems? rest
    return item :: rest

def canonicalMembers? : List (String × Json) → List (String × Json) → Option (List (String × Json))
  | [], sorted => some sorted
  | (name, value) :: rest, sorted => do
    let value ← canonical? value
    canonicalMembers? rest (insertMember name value sorted)

end

end Json

end Dispatch
