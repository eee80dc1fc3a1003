import Dispatch.Json.Record
/-!
Accounts on remote hosts, and how to prove being allowed in.
-/
namespace Dispatch.Shell

def defaultPort : UInt16 := 22

/-- An account to run commands as. The identity is a private key for this account alone. -/
structure Target where
  host : String
  port : UInt16 := defaultPort
  user : String
  identity : Option String := none
  deriving DecidableEq, Repr, Inhabited

namespace Target

def toJson (target : Target) : Json :=
  .object [
    ("host", .string target.host),
    ("port", .nat target.port.toNat),
    ("user", .string target.user),
    ("identity", Json.ofOption .string target.identity)]

def ofJson? (json : Json) : Option Target := do
  let row ← Json.Row.open? ["host", "port", "user", "identity"] json
  let host ← row.required "host" Json.asString?
  let port ← row.required "port" Json.asUInt16?
  let user ← row.required "user" Json.asString?
  let identity ← row.defaulted "identity" none (Json.Row.nullable Json.asString?)
  return { host, port, user, identity }

end Target

/-- A way to log in. -/
inductive Credential
  | agent
  | key (path : String)
  | password (text : String)
  deriving DecidableEq, Repr, Inhabited

namespace Credential

def toJson : Credential → Json
  | agent => .string "Agent"
  | key path => .object [("Key", .string path)]
  | password text => .object [("Password", .string text)]

def ofJson? : Json → Option Credential
  | .string "Agent" => some agent
  | .object [("Agent", .null)] => some agent
  | .object [("Key", .string path)] => some (key path)
  | .object [("Password", .string text)] => some (password text)
  | _ => none

end Credential

end Dispatch.Shell
