import Dispatch.Cloud.Exchange
import Dispatch.Shell.Address
import Dispatch.Shell.Obstacle
/-!
Servers at one address, for calls over a network that has nothing else.
-/
namespace Dispatch.Rehearsal

/-- What a server does with a request: it answers, keeps silent, closes the connection, or does not even
listen. -/
inductive Manner
  | answers (status : Http.Status) (body : String)
  | keepsSilent
  | closes
  | refuses
  deriving DecidableEq, Repr

structure Server where
  authority : String
  manner : Manner
  deriving DecidableEq, Repr

namespace Server

/-- The bytes of a response with a length. -/
def response (status : Http.Status) (body : String) : List UInt8 :=
  Text.bytes s!"HTTP/1.1 {status.code} Answer\r\nContent-Length: {body.utf8ByteSize}\r\n\r\n{body}"

/-- Whether a request to an address arrives. A caller without patience sends none. -/
def receives (server : Server) (millis : Nat) (url : Http.Url) : Bool :=
  url.authority == server.authority && server.manner ≠ .refuses &&
    !(server.manner == .keepsSilent && millis == 0)

/-- How the exchange goes for a caller that waits for some milliseconds. -/
def exchange (server : Server) (millis : Nat) (url : Http.Url) : Cloud.Exchange :=
  if url.authority ≠ server.authority then .broken "connection refused"
  else
    match server.manner with
    | .answers status body => .received (response status body)
    | .keepsSilent => .silent millis
    | .closes => .broken "connection closed"
    | .refuses => .broken "connection refused"

end Server

/-- Why there is no session with a host, if every host that has an address either closes all connections or
accepts none. -/
def obstacleTo (host : String) (closes : Bool) : Shell.Obstacle :=
  if !Shell.hasAddress host then .unresolved "unknown host"
  else if closes then .noHandshake "connection closed"
  else .unreachable "connection refused"

end Dispatch.Rehearsal
