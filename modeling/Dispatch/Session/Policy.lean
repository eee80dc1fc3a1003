import Dispatch.Failure
import Dispatch.Json.Record
/-!
When sessions close on their own: the policies, the defaults of a server, and the mode of a new session.
-/
namespace Dispatch

inductive ClosePolicy
  | onTimeout
  | onDisconnect
  | default
  deriving DecidableEq, Repr, Inhabited

namespace ClosePolicy

def all : List ClosePolicy := [onTimeout, onDisconnect, default]

def name : ClosePolicy → String
  | onTimeout => "ON_TIMEOUT"
  | onDisconnect => "ON_DISCONNECT"
  | default => "DEFAULT"

def ofJson? (json : Json) : Option ClosePolicy := Json.asOneOf? all name json

def toJson (policy : ClosePolicy) : Json := .string policy.name

/-- Reads a name in letters of either case, or the number of a policy. -/
def read (text : String) : Except Failure ClosePolicy :=
  let upper := String.ofList ((Text.trim text.toList).map Char.toUpper)
  if upper = "ON_TIMEOUT" ∨ upper = "1" then .ok onTimeout
  else if upper = "ON_DISCONNECT" ∨ upper = "2" then .ok onDisconnect
  else if upper = "DEFAULT" ∨ upper = "0" then .ok default
  else .error (.invalidParameter s!"Unknown close policy '{upper}'")

end ClosePolicy

/-- What a server does for sessions that leave it the choice. -/
structure SessionDefaults where
  policy : ClosePolicy := .onDisconnect
  timeout : UInt64 := 3600
  deriving DecidableEq, Repr, Inhabited

namespace SessionDefaults

/-- The policy a session follows; a server without a concrete policy closes on disconnect. -/
def effective (defaults : SessionDefaults) : ClosePolicy → ClosePolicy
  | .default => if defaults.policy = .default then .onDisconnect else defaults.policy
  | concrete => concrete

/-- The policy and timeout stored with a new session: a session that leaves the policy open has a
timeout if the server closes on timeout, and a wanted timeout of zero stands for the default. -/
def mode (defaults : SessionDefaults) (policy : ClosePolicy) (wanted : Option UInt64) :
    ClosePolicy × Option UInt64 :=
  match policy with
  | .default =>
    (.default, if defaults.effective .default = .onTimeout then some defaults.timeout else none)
  | .onTimeout => (.onTimeout, some ((wanted.filter (0 < ·)).getD defaults.timeout))
  | .onDisconnect => (.onDisconnect, none)

def toJson (defaults : SessionDefaults) : Json :=
  .object [("close_policy", defaults.policy.toJson), ("timeout", .nat defaults.timeout.toNat)]

def ofJson? (json : Json) : Option SessionDefaults := do
  let row ← Json.Row.open? ["close_policy", "timeout"] json
  let policy ← row.required "close_policy" ClosePolicy.ofJson?
  let timeout ← row.required "timeout" Json.asUInt64?
  return { policy, timeout }

end SessionDefaults

end Dispatch
