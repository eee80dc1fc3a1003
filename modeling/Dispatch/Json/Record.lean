import Dispatch.Json.Basic
import Dispatch.Instant.Rfc3339
/-!
Records in JSON. A record is an object, or an array with the fields in order; members it does not know
are skipped, and a field must not be given twice.
-/
namespace Dispatch.Json

/-- The fields found. Of an array, only fields with a default may be missing. -/
structure Row where
  positional : Bool
  cells : List (String × Json)
  deriving Repr

namespace Row

def occurrences (name : String) (members : List (String × Json)) : Nat :=
  (members.filter fun member => member.1 == name).length

def open? (names : List String) : Json → Option Row
  | .object members =>
    if names.any fun name => 1 < occurrences name members then none
    else some { positional := false, cells := members }
  | .array items =>
    if names.length < items.length then none
    else some { positional := true, cells := names.zip items }
  | _ => none

def cell? (row : Row) (name : String) : Option Json := lookup name row.cells

def required (row : Row) (name : String) (decode : Json → Option α) : Option α :=
  (row.cell? name).bind decode

def defaulted (row : Row) (name : String) (fallback : α) (decode : Json → Option α) : Option α :=
  match row.cell? name with
  | some cell => decode cell
  | none => some fallback

/-- A value or null. -/
def nullable (decode : Json → Option α) : Json → Option (Option α)
  | .null => some none
  | json => (decode json).map some

/-- Absence stands for null, save in an array. -/
def optional (row : Row) (name : String) (decode : Json → Option α) : Option (Option α) :=
  match row.cell? name with
  | some cell => nullable decode cell
  | none => if row.positional then none else some none

end Row

/-- The members of an object, with defaults for those that are missing. -/
def withDefaults (defaults : List (String × Json)) (json : Json) : Json :=
  let given :=
    match json with
    | .object members => members
    | _ => []
  .object (given ++ defaults.filter fun member => Row.occurrences member.1 given = 0)

def asString? : Json → Option String
  | .string value => some value
  | _ => none

def asBool? : Json → Option Bool
  | .bool value => some value
  | _ => none

/-- An integer between two bounds, the bounds included. -/
def asInt? (low high : Int) : Json → Option Int
  | .number (.integer value) => if low ≤ value && value ≤ high then some value else none
  | _ => none

def asUInt64? (json : Json) : Option UInt64 :=
  (asInt? 0 (Int.pow 2 64 - 1) json).map fun value => UInt64.ofNat value.toNat

def asUInt32? (json : Json) : Option UInt32 :=
  (asInt? 0 (Int.pow 2 32 - 1) json).map fun value => UInt32.ofNat value.toNat

def asUInt16? (json : Json) : Option UInt16 :=
  (asInt? 0 (Int.pow 2 16 - 1) json).map fun value => UInt16.ofNat value.toNat

def asInt32? (json : Json) : Option Int32 :=
  (asInt? (-Int.pow 2 31) (Int.pow 2 31 - 1) json).map Int32.ofInt

/-- A natural number of 64 bits. -/
def asNat? (json : Json) : Option Nat := (asInt? 0 (Int.pow 2 64 - 1) json).map Int.toNat

def asInstant? (json : Json) : Option Instant := (asString? json).bind Instant.ofTimestamp?

def asList? (decode : Json → Option α) : Json → Option (List α)
  | .array items => items.mapM decode
  | _ => none

/-- A name, alone or as the only member of an object that holds null. -/
def asName? : Json → Option String
  | .string name => some name
  | .object [(name, .null)] => some name
  | _ => none

/-- One of the given values, by its name. -/
def asOneOf? [BEq α] (values : List α) (name : α → String) (json : Json) : Option α :=
  (asName? json).bind fun given => values.find? fun value => name value == given

def ofInstant (instant : Instant) : Json := .string instant.timestamp

end Dispatch.Json
