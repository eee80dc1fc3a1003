import Dispatch.Rehearsal.Disk
import Dispatch.Text.Numeral
/-!
The staging directory that output is fetched to.
-/
namespace Dispatch.Rehearsal

/-- The directory itself may be missing. -/
structure Staging where
  isMissing : Bool := false
  files : List (String × String) := []
  lastNumber : Nat := 0
  deriving Repr

namespace Staging

/-- A new empty file, named for the job with a number that makes the name unique. -/
def create (staging : Staging) (job suffix : String) : Except Disk.Obstacle String × Staging :=
  let number := staging.lastNumber + 1
  let digits := String.ofList (Text.padded 6 number)
  let name := s!"job_output-{job}-{digits}{suffix}"
  if name.toList.contains '\x00' then (.error .badPath, staging)
  else if staging.isMissing || name.toList.contains '/' then (.error .missing, staging)
  else if Disk.nameLimit < name.utf8ByteSize then (.error .longName, staging)
  else (.ok name, { staging with files := staging.files ++ [(name, "")], lastNumber := number })

def remove (staging : Staging) (name : String) : Staging :=
  { staging with files := staging.files.filter fun file => file.1 ≠ name }

def write (staging : Staging) (name content : String) : Staging :=
  { staging with
    files := staging.files.map fun file => if file.1 = name then (name, content) else file }

def content? (staging : Staging) (name : String) : Option String :=
  (staging.files.find? fun file => file.1 == name).map Prod.snd

end Staging

end Dispatch.Rehearsal
