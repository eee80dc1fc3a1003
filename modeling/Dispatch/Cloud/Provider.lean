import Dispatch.Cloud.Config
import Dispatch.Cloud.Progress
import Dispatch.Cloud.Reply
import Dispatch.Plan
/-!
The calls to the provider of virtual machines.
-/
namespace Dispatch.Cloud

def allocateMethod : String := "one.vm.allocate"

def infoMethod : String := "one.vm.info"

def actionMethod : String := "one.vm.action"

namespace Config

/-- Calls a method; the session text is its first parameter. -/
def call (config : Config) (method : String) (params : List Json) : Backend.Task Json := do
  let session ← Backend.Task.ofExcept config.sessionText
  match ← Backend.Task.ask (.provider config.endpoint method (.string session :: params)) with
  | .ok answer => Backend.Task.ofExcept (resultValue method answer)
  | .error fault => throw fault

/-- A signed number of 64 bits. -/
def vmNumber? : Json → Option Int := Json.asInt? (-Int.pow 2 63) (Int.pow 2 63 - 1)

/-- Asks for a virtual machine and answers its number. -/
def allocate (config : Config) (template : String) : Backend.Task Int := do
  let allocated ← config.call allocateMethod [.string template, .bool false]
  match vmNumber? allocated with
  | some vm => return vm
  | none => throw (.rpc allocateMethod s!"Expected a VM id, got {allocated.compact}")

def progress (config : Config) (vm : Int) : Backend.Task Progress := do
  match ← config.call infoMethod [.int vm] with
  | .string document => return Progress.read document
  | other => throw (.rpc infoMethod s!"Expected an XML document, got {other.compact}")

/-- What can be done to a virtual machine. -/
inductive VmAction
  | stop
  | delete
  deriving DecidableEq, Repr

def VmAction.name : VmAction → String
  | stop => "stop"
  | delete => "delete"

def act (config : Config) (action : VmAction) (vm : Int) : Backend.Task Unit := do
  let _ ← config.call actionMethod [.string action.name, .int vm]

end Config

end Dispatch.Cloud
