import Dispatch.Text.Basic
/-!
Command lines for a POSIX shell: quoting, and the line that runs a command somewhere.
-/
namespace Dispatch.Shell

/-- Inside single quotes every character stands for itself; a single quote is put between double ones. -/
def quoteChars (text : List Char) : List Char :=
  '\'' :: text.flatMap (fun c => if c = '\'' then "'\"'\"'".toList else [c]) ++ ['\'']

def quote (text : String) : String := onChars quoteChars text

/-- An empty directory is none. -/
def enter (workingDir : Option String) : String :=
  match workingDir.filter fun dir => !dir.isEmpty with
  | some dir => s!"cd {quote dir} && "
  | none => ""

/-- A command in the background is detached from the connection and tells its process id. -/
def commandLine (command : String) (workingDir : Option String) (background : Bool) : String :=
  if background then
    s!"{enter workingDir}nohup sh -c {quote command} > /dev/null 2>&1 & echo $!"
  else s!"{enter workingDir}{command}"

end Dispatch.Shell
