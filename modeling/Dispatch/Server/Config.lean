import Dispatch.Identifier.Kind
import Dispatch.Json.Reader
import Dispatch.Machine.Config
import Dispatch.Session.Policy
/-!
The configuration of a server: read from JSON, then changed by the environment.
-/
namespace Dispatch.Server

/-- Intervals are in seconds; the staging directory receives the output of jobs. -/
structure Config where
  session : SessionDefaults := {}
  formats : Identifier.Formats := {}
  site : String := ""
  machines : List Machine := []
  monitorInterval : UInt64 := 30
  sweepInterval : UInt64 := 60
  stagingDir : Option String := none

namespace Config

def toJson (config : Config) : Json :=
  .object [
    ("session", config.session.toJson),
    ("id_formats", config.formats.toJson),
    ("site", .string config.site),
    ("machines", Json.ofList Machine.toJson config.machines),
    ("monitor_interval_secs", .nat config.monitorInterval.toNat),
    ("sweep_interval_secs", .nat config.sweepInterval.toNat),
    ("staging_dir", Json.ofOption .string config.stagingDir)]

def ofJson? (json : Json) : Option Config := do
  let row ← Json.Row.open?
    ["session", "id_formats", "site", "machines", "monitor_interval_secs", "sweep_interval_secs",
      "staging_dir"] json
  let session ← row.defaulted "session" {} SessionDefaults.ofJson?
  let formats ← row.defaulted "id_formats" {} Identifier.Formats.ofJson?
  let site ← row.defaulted "site" "" Json.asString?
  let machines ← row.defaulted "machines" [] (Json.asList? Machine.ofJson?)
  let monitorInterval ← row.defaulted "monitor_interval_secs" 30 Json.asUInt64?
  let sweepInterval ← row.defaulted "sweep_interval_secs" 60 Json.asUInt64?
  let stagingDir ← row.defaulted "staging_dir" none (Json.Row.nullable Json.asString?)
  return { session, formats, site, machines, monitorInterval, sweepInterval, stagingDir }

/-- Why a configuration cannot be used. -/
inductive Fault
  | unreadable (path : String)
  | malformed (path : String)
  | timeout (cause : Text.NumeralError)
  | policy (cause : Failure)
  | openPolicy
  deriving DecidableEq, Repr

def timeoutVariable : String := "GRID_SESSION_TIMEOUT"

def policyVariable : String := "GRID_CLOSE_POLICY"

namespace Fault

def message : Fault → String
  | unreadable path => s!"Failed to read config file {path}"
  | malformed path => s!"Failed to parse config file {path}"
  | timeout cause => s!"{timeoutVariable} must be a number of seconds: {cause.message}"
  | policy cause => s!"Invalid {policyVariable}: {cause.message}"
  | openPolicy => s!"{policyVariable} must name a concrete policy"

end Fault

def overrideTimeout (config : Config) : Option String → Except Fault Config
  | none => .ok config
  | some text =>
    match Text.readUInt64 (Text.trim text.toList) with
    | .ok timeout => .ok { config with session := { config.session with timeout } }
    | .error cause => .error (.timeout cause)

/-- A server must know what its own default is. -/
def overridePolicy (config : Config) : Option String → Except Fault Config
  | none => .ok config
  | some text =>
    match ClosePolicy.read text with
    | .error cause => .error (.policy cause)
    | .ok .default => .error .openPolicy
    | .ok policy => .ok { config with session := { config.session with policy } }

/-- The variables of the environment that replace settings, the timeout first. -/
def withEnvironment (config : Config) (lookup : String → Option String) : Except Fault Config := do
  let config ← config.overrideTimeout (lookup timeoutVariable)
  config.overridePolicy (lookup policyVariable)

/-- The configuration in the text of a file. -/
def load (path text : String) : Except Fault Config :=
  match (Json.read? text).bind ofJson? with
  | some config => .ok config
  | none => .error (.malformed path)

/-- At least a second. -/
def monitorSeconds (config : Config) : Nat := max config.monitorInterval.toNat 1

def sweepSeconds (config : Config) : Nat := max config.sweepInterval.toNat 1

def registry (config : Config) : Registry := Registry.ofList config.machines

/-- The configuration with what follows from it: the intervals as used, and the machines in order. -/
def summary (config : Config) : Json :=
  let machines := config.registry.ids.filterMap config.registry.get?
  .object [
    ("config", config.toJson),
    ("monitor_interval", .nat config.monitorSeconds),
    ("sweep_interval", .nat config.sweepSeconds),
    ("staging_dir", Json.ofOption .string config.stagingDir),
    ("machine_ids", Json.ofList .string config.registry.ids),
    ("backends", Json.ofList (fun machine => .string machine.platform.name) machines)]

/-- Sets the monitor interval from milliseconds, cut to whole seconds and at least one. -/
def withMonitorMillis (config : Config) (millis : UInt64) : Config :=
  { config with monitorInterval := max (millis / 1000) 1 }

end Config

end Dispatch.Server
