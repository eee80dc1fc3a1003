import Dispatch.Plan
import Dispatch.Rehearsal.Cue
/-!
Remote hosts that answer as they are told to.
-/
namespace Dispatch.Rehearsal

/-- A file as a host received it. -/
structure Upload where
  target : Shell.Target
  path : String
  mode : Int32
  content : String
  deriving DecidableEq, Repr, Inhabited

/-- The replies are for commands in the foreground, by what a command begins with. -/
structure Hosts where
  replies : Prompt (Except Shell.Fault Shell.Outcome) := []
  background : Except Shell.Fault Shell.Outcome := .ok (.detached 4711)
  files : List (String × String) := []
  down : List String := []
  uploadFault : Option Shell.Fault := none
  uploads : List Upload := []

namespace Hosts

/-- A host that is down refuses every connection. -/
def connect (hosts : Hosts) (target : Shell.Target) : Except Shell.Fault Unit :=
  if hosts.down.contains target.host then .error (.connection target.host "connection refused")
  else .ok ()

/-- A command without a reply succeeds silently. -/
def execute (hosts : Hosts) (command : String) (background : Bool) :
    Except Shell.Fault Shell.Outcome × Hosts :=
  if background then (hosts.background, hosts)
  else
    match hosts.replies.take? fun opening => Text.beginsWith opening.toList command.toList with
    | some (reply, replies) => (reply, { hosts with replies })
    | none => (.ok (.completed 0 "" ""), hosts)

def content? (hosts : Hosts) (path : String) : Option String :=
  (hosts.files.find? fun file => file.1 == path).map Prod.snd

def putFile (hosts : Hosts) (path content : String) : Hosts :=
  { hosts with files := (path, content) :: hosts.files }

/-- The content of a file. -/
def fetch (hosts : Hosts) (target : Shell.Target) (path : String) : Except Shell.Fault String := do
  hosts.connect target
  match hosts.content? path with
  | some content => .ok content
  | none => .error (.transfer path "no such file")

def receive (hosts : Hosts) (upload : Upload) : Except Shell.Fault Unit × Hosts :=
  match hosts.connect upload.target with
  | .error fault => (.error fault, hosts)
  | .ok _ =>
    match hosts.uploadFault with
    | some fault => (.error fault, hosts)
    | none => (.ok (), { hosts with uploads := hosts.uploads ++ [upload] })

end Hosts

end Dispatch.Rehearsal
