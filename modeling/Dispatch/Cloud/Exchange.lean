import Dispatch.Backend.Fault
import Dispatch.Http.Response
import Dispatch.Http.Url
import Dispatch.Json.Printer
import Dispatch.Json.Reader
import Dispatch.Text.Bytes
/-!
Calls of the provider over HTTP: the request that is sent, and what the exchange that follows means.
-/
namespace Dispatch.Cloud

/-- The body of a request. The identifier is not looked at again. -/
def envelope (id method : String) (params : List Json) : Json :=
  .object [
    ("jsonrpc", .string "2.0"),
    ("id", .string id),
    ("method", .string method),
    ("params", .array params)]

/-- How an exchange went: what was received until the connection was closed, nothing in time, or a
connection that failed. -/
inductive Exchange
  | received (stream : List UInt8)
  | silent (millis : Nat)
  | broken (cause : String)
  deriving DecidableEq, Repr

/-- A duration in the largest unit that it fills, with a fraction where one is needed. -/
def durationText (millis : Nat) : String :=
  if millis = 0 then "0ns"
  else if millis < 1000 then s!"{millis}ms"
  else
    let fraction := Text.dropEndWhile (· = '0') (Text.padded 3 (millis % 1000))
    if fraction.isEmpty then s!"{millis / 1000}s" else s!"{millis / 1000}.{String.ofList fraction}s"

/-- The result in the body of a response. An error that is not null comes first. -/
def readBody (method : String) (body : List UInt8) : Except Backend.Fault Json :=
  match (Text.ofBytes? body).bind Json.parse? with
  | none => .error (.rpc method "Malformed response: not a JSON document")
  | some reply =>
    match (reply.get? "error").filter (· != .null) with
    | some error => .error (.rpc method error.compact)
    | none =>
      match reply.get? "result" with
      | some result => .ok result
      | none => .error (.rpc method "Response carries no result")

/-- The result in a response. The body is read first, even if the status tells of a failure. -/
def readResponse (method : String) (response : Http.Response) : Except Backend.Fault Json :=
  match response.body with
  | none => .error (.rpc method "Failed to read response: error reading a body from connection")
  | some body =>
    if response.status.isSuccess then readBody method body
    else .error (.rpc method s!"HTTP status {response.status.text}")

/-- The result of a call. -/
def Exchange.outcome (method : String) : Exchange → Except Backend.Fault Json
  | .silent millis => .error (.rpc method s!"No response within {durationText millis}")
  | .broken cause => .error (.rpc method s!"Request failed: {cause}")
  | .received stream =>
    match Http.Response.read? stream with
    | some response => readResponse method response
    | none => .error (.rpc method "Request failed: no complete response")

/-- A call to an address; nothing is sent if it is none. -/
def call (endpoint method : String) (exchange : Http.Url → Exchange) : Except Backend.Fault Json :=
  match Http.Url.read? endpoint with
  | none => .error (.rpc method "Failed to create HTTP request: invalid address")
  | some url => (exchange url).outcome method

end Dispatch.Cloud
