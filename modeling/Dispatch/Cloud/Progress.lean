import Dispatch.Json.Record
import Dispatch.Text.Numeral
/-!
How far a virtual machine has come, as the document about it tells.
-/
namespace Dispatch.Cloud

structure Progress where
  state : Option UInt32
  lifecycle : Option UInt32
  address : Option String
  startTime : Option Instant
  deriving DecidableEq, Repr, Inhabited

namespace Progress

/-- The text of the first element with that tag, trimmed, and without its wrapper if it is quoted as
character data. -/
def tagText? (tag : String) (document : List Char) : Option (List Char) := do
  let (_, rest) ← Text.around? s!"<{tag}>".toList document
  let (inside, _) ← Text.around? s!"</{tag}>".toList rest
  let raw := Text.trim inside
  let inner := (Text.after? "<![CDATA[".toList raw).bind (Text.before? "]]>".toList)
  return Text.trim (inner.getD raw)

/-- Seconds since 1970 above zero. -/
def readStart? (text : List Char) : Option Instant := do
  let seconds ← Text.readInt64? text
  guard (0 < seconds)
  let instant := Instant.ofSeconds seconds
  guard instant.inRange
  return instant

def read (document : String) : Progress :=
  let document := document.toList
  { state := (tagText? "STATE" document).bind Text.readUInt32?
    lifecycle := (tagText? "LCM_STATE" document).bind Text.readUInt32?
    address := ((tagText? "IP" document).filter fun text => !text.isEmpty).map String.ofList
    startTime := (tagText? "STIME" document).bind readStart? }

/-- Active, booted, and with an address. -/
def isRunning (progress : Progress) : Bool :=
  progress.state = some 3 && progress.lifecycle = some 3 && progress.address.isSome

/-- Done or failed: it will never run. -/
def isDead (progress : Progress) : Bool := progress.state = some 6 || progress.state = some 7

def toJson (progress : Progress) : Json :=
  .object [
    ("state", Json.ofOption (fun state => .nat state.toNat) progress.state),
    ("lcm_state", Json.ofOption (fun state => .nat state.toNat) progress.lifecycle),
    ("address", Json.ofOption .string progress.address),
    ("start_time", Json.ofOption (fun instant => .string instant.timestampWithOffset) progress.startTime),
    ("running", .bool progress.isRunning),
    ("dead", .bool progress.isDead)]

end Progress

end Dispatch.Cloud
