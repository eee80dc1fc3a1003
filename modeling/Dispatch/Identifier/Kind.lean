import Dispatch.Json.Record
/-!
The kinds of objects that get generated identifiers, and the formats these are made from.
-/
namespace Dispatch.Identifier

inductive Kind
  | machine
  | user
  | job
  | fileTransfer
  | authSystem
  | work
  deriving DecidableEq, Repr, Inhabited

namespace Kind

def all : List Kind := [machine, user, job, fileTransfer, authSystem, work]

def name : Kind → String
  | machine => "Machine"
  | user => "User"
  | job => "Job"
  | fileTransfer => "FileTransfer"
  | authSystem => "AuthSystem"
  | work => "Work"

/-- What $TYPE stands for. -/
def letter : Kind → String
  | machine => "M"
  | user => "U"
  | job => "J"
  | fileTransfer => "F"
  | authSystem => "A"
  | work => "W"

def defaultFormat : Kind → String
  | machine => "$NAME"
  | user => "$NAME"
  | job => "J_$CPT"
  | fileTransfer => "TR_$CPT"
  | authSystem => "AUTH_$CPT"
  | work => "$CPT"

/-- The table that holds the objects. -/
def table : Kind → String
  | machine => "machine"
  | user => "users"
  | job => "job"
  | fileTransfer => "filetransfer"
  | authSystem => "authsystem"
  | work => "work"

theorem mem_all (kind : Kind) : kind ∈ all := by cases kind <;> decide

def ofJson? (json : Json) : Option Kind := Json.asOneOf? all name json

def toJson (kind : Kind) : Json := .string kind.name

def summary (kind : Kind) : Json :=
  .object [
    ("type", kind.toJson),
    ("letter", .string kind.letter),
    ("format", .string kind.defaultFormat),
    ("table", .string kind.table)]

end Kind

/-- Formats that replace the default of a kind. -/
structure Formats where
  override : Kind → Option String := fun _ => none

namespace Formats

def set (formats : Formats) (kind : Kind) (format : String) : Formats :=
  { override := fun other => if other = kind then some format else formats.override other }

def format (formats : Formats) (kind : Kind) : String :=
  (formats.override kind).getD kind.defaultFormat

def toJson (formats : Formats) : Json :=
  let members := Kind.all.filterMap fun kind =>
    (formats.override kind).map fun format => (kind.name, Json.string format)
  .object [("overrides", .object members)]

/-- Of equal kinds the last format stays. -/
def overrides? : List (String × Json) → Formats → Option Formats
  | [], formats => some formats
  | (name, value) :: rest, formats => do
    let kind ← Kind.ofJson? (.string name)
    let format ← Json.asString? value
    overrides? rest (formats.set kind format)

/-- Sets the format of a pair of a kind and a format. -/
def setPair? (formats : Formats) : Json → Option Formats
  | .array [kind, .string format] => (Kind.ofJson? kind).map fun kind => formats.set kind format
  | _ => none

/-- Of pairs with the same kind the last one counts. -/
def ofPairs? (pairs : List Json) : Option Formats := pairs.foldlM setPair? {}

def ofJson? (json : Json) : Option Formats := do
  let row ← Json.Row.open? ["overrides"] json
  row.defaulted "overrides" {} fun
    | .object members => overrides? members {}
    | _ => none

end Formats

end Dispatch.Identifier
