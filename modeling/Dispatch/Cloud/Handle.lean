import Dispatch.Backend.Fault
import Dispatch.Json.Basic
import Dispatch.Text.Numeral
/-!
Handles of jobs in virtual machines: four parts joined by at signs.
-/
namespace Dispatch.Cloud

structure Handle where
  pid : UInt32
  vmUser : String
  vmAddress : String
  vmId : String
  deriving DecidableEq, Repr, Inhabited

namespace Handle

def text (handle : Handle) : String :=
  s!"{handle.pid}@{handle.vmUser}@{handle.vmAddress}@{handle.vmId}"

def toJson (handle : Handle) : Json :=
  .object [
    ("pid", .nat handle.pid.toNat),
    ("vm_user", .string handle.vmUser),
    ("vm_address", .string handle.vmAddress),
    ("vm_id", .string handle.vmId),
    ("display", .string handle.text)]

/-- Only the process id may be empty as far as the parts go, and it is a number. -/
def read? (text : String) : Option Handle :=
  match Text.fields '@' text.toList with
  | [pid, vmUser, vmAddress, vmId] =>
    if vmUser.isEmpty || vmAddress.isEmpty || vmId.isEmpty then none
    else (Text.readUInt32? pid).map fun pid =>
      { pid, vmUser := String.ofList vmUser, vmAddress := String.ofList vmAddress,
        vmId := String.ofList vmId }
  | _ => none

def read (text : String) : Except Backend.Fault Handle :=
  match read? text with
  | some handle => .ok handle
  | none =>
    .error (.invalidParameter s!"Bad job handle '{text}': expected pid@vmUser@vmAddress@vmId")

end Handle

/-- The number of a virtual machine. -/
def readVmId (text : String) : Except Backend.Fault Int :=
  match Text.readInt64? text.toList with
  | some id => .ok id
  | none => .error (.invalidParameter s!"Bad VM id '{text}'")

/-- The number of the virtual machine of a handle, which may be that number alone. -/
def vmIdOf (handle : String) : Except Backend.Fault Int :=
  if handle.toList.contains '@' then do
    let handle ← Handle.read handle
    readVmId handle.vmId
  else readVmId handle

end Dispatch.Cloud
