import Dispatch.Batch.Scheduler
import Dispatch.Cloud.Config
import Dispatch.Shell.Target
/-!
The machines that jobs can be sent to.
-/
namespace Dispatch

/-- The front-end of a cluster. The default user stands in for owners without a local account. -/
structure Batch.Config where
  host : String
  port : UInt16 := Shell.defaultPort
  scheduler : Batch.Scheduler
  version : String := ""
  defaultUser : String
  identity : Option String := none
  deriving DecidableEq, Repr, Inhabited

namespace Batch.Config

def members (config : Config) : List (String × Json) := [
  ("host", .string config.host),
  ("port", .nat config.port.toNat),
  ("scheduler", config.scheduler.toJson),
  ("version", .string config.version),
  ("default_user", .string config.defaultUser),
  ("identity", Json.ofOption .string config.identity)]

def toJson (config : Config) : Json := .object config.members

def ofJson? (json : Json) : Option Config := do
  let row ← Json.Row.open? ["host", "port", "scheduler", "version", "default_user", "identity"] json
  let host ← row.required "host" Json.asString?
  let port ← row.defaulted "port" Shell.defaultPort Json.asUInt16?
  let scheduler ← row.required "scheduler" Scheduler.ofJson?
  let version ← row.defaulted "version" "" Json.asString?
  let defaultUser ← row.required "default_user" Json.asString?
  let identity ← row.defaulted "identity" none (Json.Row.nullable Json.asString?)
  return { host, port, scheduler, version, defaultUser, identity }

end Batch.Config

namespace Machine

/-- Where the jobs of a machine run. -/
inductive Platform
  | batch (config : Batch.Config)
  | cloud (config : Cloud.Config)
  deriving DecidableEq, Repr, Inhabited

namespace Platform

def name : Platform → String
  | batch _ => "Batch"
  | cloud _ => "Cloud"

def tag : String := "type"

def toJson : Platform → Json
  | batch config => .object ((tag, .string "batch") :: config.members)
  | cloud config => .object ((tag, .string "cloud") :: config.members)

/-- The part of a platform that its tag selects. -/
def ofTagged? (kind : String) (body : Json) : Option Platform :=
  match kind with
  | "batch" => (Batch.Config.ofJson? body).map batch
  | "cloud" => (Cloud.Config.ofJson? body).map cloud
  | _ => none

/-- Beside a tag a name may also hold an empty object, which says as little as null. -/
def emptyAsNull : Json → Json
  | .object [(name, .object [])] => .object [(name, .null)]
  | json => json

/-- The tag is one of the members, or the first item of an array. All members are read, also those that
the selected part does not know, so each must be readable. -/
def ofJson? (json : Json) : Option Platform := do
  guard json.canonical?.isSome
  match json with
  | .object members =>
    guard (Json.Row.occurrences tag members = 1)
    let kind ← (Json.lookup tag members).bind Json.asString?
    let others := members.filter fun member => member.1 ≠ tag
    ofTagged? kind (.object (others.map fun (name, value) => (name, emptyAsNull value)))
  | .array (.string kind :: items) => ofTagged? kind (.array (items.map emptyAsNull))
  | _ => none

end Platform

end Machine

structure Machine where
  id : String
  name : String
  site : String := ""
  platform : Machine.Platform
  deriving DecidableEq, Repr, Inhabited

namespace Machine

def toJson (machine : Machine) : Json :=
  .object [
    ("machine_id", .string machine.id),
    ("name", .string machine.name),
    ("site", .string machine.site),
    ("backend", machine.platform.toJson)]

def ofJson? (json : Json) : Option Machine := do
  let row ← Json.Row.open? ["machine_id", "name", "site", "backend"] json
  let id ← row.required "machine_id" Json.asString?
  let name ← row.required "name" Json.asString?
  let site ← row.defaulted "site" "" Json.asString?
  let platform ← row.required "backend" Platform.ofJson?
  return { id, name, site, platform }

end Machine

/-- The machines by identifier. -/
structure Registry where
  machines : List Machine := []
  deriving DecidableEq, Repr, Inhabited

namespace Registry

def get? (registry : Registry) (id : String) : Option Machine :=
  registry.machines.find? fun machine => machine.id == id

def remove (registry : Registry) (id : String) : Registry :=
  { machines := registry.machines.filter fun machine => machine.id ≠ id }

/-- Takes the place of a machine with the same identifier. -/
def put (registry : Registry) (machine : Machine) : Registry :=
  { machines := (registry.remove machine.id).machines ++ [machine] }

/-- Of machines with the same identifier the last one counts. -/
def ofList (machines : List Machine) : Registry := machines.foldl put {}

/-- In order of their bytes. -/
def ids (registry : Registry) : List String :=
  (registry.machines.map Machine.id).mergeSort fun a b => decide (a ≤ b)

end Registry

end Dispatch
