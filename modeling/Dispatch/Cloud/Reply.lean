import Dispatch.Backend.Fault
import Dispatch.Json.Printer
/-!
Answers of the cloud provider: an array of a success flag, a value, and more that does not matter.
-/
namespace Dispatch.Cloud

/-- The text of a message: of a string the string itself, of any other value its compact text. -/
def messageText : Json → String
  | .string text => text
  | other => other.compact

/-- The value of an answer; with a false flag the value is the message of the provider. -/
def resultValue (method : String) (answer : Json) : Except Backend.Fault Json :=
  match answer with
  | .array (flag :: value :: _) =>
    match flag with
    | .bool true => .ok value
    | .bool false => .error (.rpc method (messageText value))
    | _ => .error (.rpc method "Result lacks a success flag")
  | .array _ => .error (.rpc method "Result has fewer than two elements")
  | other => .error (.rpc method s!"Unexpected result shape: {other.compact}")

end Dispatch.Cloud
