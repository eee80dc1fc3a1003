import Dispatch.Rehearsal.World
/-!
Files that go between the hosts and the disk of a rehearsal.
-/
namespace Dispatch.Rehearsal

def localFault (path : String) (obstacle : Disk.Obstacle) : Shell.Fault := .localFile path obstacle.message

namespace World

/-- Copies a file of a host to the disk and reads it back. -/
def copy (world : World) (target : Shell.Target) (remotePath localPath : String) :
    Except Shell.Fault (String × World) := do
  let content ← world.hosts.fetch target remotePath
  let written : Except Disk.Obstacle (String × World) := do
    let disk ← world.disk.write localPath (Text.bytes content)
    return (← disk.read localPath, { world with disk })
  written.mapError (localFault localPath)

/-- Writes a file with the directories that it needs. If that fails, all stays as it is. -/
def save (world : World) (path : String) (content : List UInt8) : World :=
  match world.disk.save path content with
  | .ok disk => { world with disk }
  | .error _ => world

/-- Without a content there will be no file. -/
def replace (world : World) (path : String) : (content : Option String) → World
  | some content => world.save path (Text.bytes content)
  | none => { world with disk := world.disk.remove path }

/-- The text of a file for a host. A host that is down is noticed first. -/
def textFor (world : World) (target : Shell.Target) (path : String) : Except Shell.Fault String := do
  world.hosts.connect target
  (world.disk.read path).mapError (localFault path)

end World

end Dispatch.Rehearsal
