import Dispatch.Backend.Staging
import Dispatch.Cloud.Handle
import Dispatch.Cloud.Provider
import Dispatch.Cloud.Description
/-!
Launching a job in a virtual machine of its own, from the boot of the machine to the process id.
-/
namespace Dispatch.Cloud.Config

/-- An account in a virtual machine. -/
def vmTarget (config : Config) (vmUser address : String) : Shell.Target :=
  { host := address, user := vmUser
    identity := if config.vmKey.isEmpty then none else some config.vmKey }

/-- Probes until the machine runs and has an address, with a pause after every probe in vain. -/
def awaitAddress (config : Config) (vm : Int) : (left : Nat) → Backend.Task String
  | 0 => throw (.timeout s!"VM {vm} to boot" config.bootAttempts)
  | left + 1 => do
    let progress ← config.progress vm
    if progress.isDead then
      throw (.scheduler backendName s!"VM {vm} stopped before it could run the job")
    match progress.address.filter fun _ => progress.isRunning with
    | some address => return address
    | none =>
      Backend.Task.ask (.pause config.pollMillis)
      awaitAddress config vm left

/-- Whether a command that does nothing can be run. -/
def isReachable (target : Shell.Target) : Backend.Task Bool := do
  match ← Backend.Task.ask (.remote target (.execute "true" none false)) with
  | .ok (.completed exitCode _ _) => return exitCode = 0
  | .ok (.detached _) => return false
  | .error _ => return false

/-- Probes until commands can be run, with a pause after every probe in vain. -/
def awaitShell (config : Config) (target : Shell.Target) : (left : Nat) → Backend.Task Unit
  | 0 => throw (.timeout s!"SSH on {target.host}" config.bootAttempts)
  | left + 1 => do
    if ← isReachable target then return
    Backend.Task.ask (.pause config.pollMillis)
    awaitShell config target left

def mountCommand (config : Config) : String :=
  let mountPoint := Shell.quote config.nfsMountPoint
  let source := Shell.quote s!"{config.nfsServer}:{config.nfsMountPoint}"
  s!"mkdir -p {mountPoint} && sudo mount -t nfs {source} {mountPoint}"

/-- Mounts the shared directory, if there is one. -/
def mount (config : Config) (target : Shell.Target) : Backend.Task Unit := do
  if config.mountsNfs then
    let outcome ← Backend.Task.remote target (.execute config.mountCommand none false)
    match outcome.stdout config.mountCommand with
    | .ok _ => return
    | .error fault => throw (.remote fault)

/-- Runs the script with its output and its errors in files. -/
def launchCommand (script outputPath errorPath : String) : String :=
  s!"{Shell.quote script} > {Shell.quote outputPath} 2> {Shell.quote errorPath}"

/-- All that follows the allocation of a machine. Output and errors go to the working directory if the
job names no other files. -/
def launch (config : Config) (vm : Int) (script : String) (options : Job.Options) :
    Backend.Task Job.Submitted := do
  let address ← config.awaitAddress vm config.bootAttempts.toNat
  let target := config.vmTarget config.vmUser address
  config.awaitShell target config.bootAttempts.toNat
  config.mount target
  let path ← Script.upload target options.workingDir script
  let dir := options.workingDir.getD "."
  let outputPath := options.outputPath.getD s!"{dir}/stdout"
  let errorPath := options.errorPath.getD s!"{dir}/stderr"
  let command := launchCommand path outputPath errorPath
  let outcome ← Backend.Task.remote target (.execute command options.workingDir true)
  match outcome.pid? with
  | none => throw (.internal s!"Background launch of '{command}' returned no pid")
  | some pid =>
    let handle : Handle := { pid, vmUser := config.vmUser, vmAddress := address, vmId := toString vm }
    return {
      handle := handle.text
      vmId := some handle.vmId
      name := options.name.getD s!"PID_{pid}"
      outputPath := some outputPath
      errorPath := some errorPath
      status := .submitted }

/-- Allocates a machine and launches the job in it. If the launch fails the machine is deleted; whether
that succeeds does not matter to the caller. -/
def submit (config : Config) (script : String) (options : Job.Options) : Backend.Task Job.Submitted := do
  if config.vmUser.isEmpty then
    throw (.invalidConfig backendName "No virtual machine user configured")
  let description ← Backend.Task.ofExcept (describe options config)
  let text ← Script.stage script meaning
  let vm ← config.allocate description
  let launched ← Backend.Task.attempt (config.launch vm text options)
  match launched with
  | .ok submitted => return submitted
  | .error fault =>
    let _ ← Backend.Task.attempt (config.act .delete vm)
    throw fault

end Dispatch.Cloud.Config
