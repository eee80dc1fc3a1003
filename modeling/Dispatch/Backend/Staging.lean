import Dispatch.Backend.Script
import Dispatch.Plan
/-!
Staging a job script: it is read and rewritten here, then uploaded under a name of its own.
-/
namespace Dispatch.Script

/-- The text of a script, rewritten for the place where it will run. -/
def stage (path : String) (meaning : Meaning) : Backend.Task String := do
  match ← Backend.Task.ask (.readFile path) with
  | .ok script => return rewrite meaning script
  | .error cause => throw (.fileSystem s!"Failed to read script {path}: {cause}")

/-- How many numbers the name of a script is drawn from. -/
def pathNumbers : Nat := Nat.pow 2 128

/-- Uploads a script below the working directory and answers the path it has there. -/
def upload (target : Shell.Target) (workingDir : Option String) (script : String) :
    Backend.Task String := do
  let number ← Backend.Task.ask (.number pathNumbers)
  let path := remotePath workingDir number
  Backend.Task.remote target (.upload script path mode)
  return path

end Dispatch.Script
