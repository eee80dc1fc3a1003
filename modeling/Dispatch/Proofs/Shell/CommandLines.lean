import Dispatch.Cloud.Launch
import Dispatch.Proofs.Batch.CommandWords
/-!
The lines that run a command in a directory and in the background, and the line of a job in a virtual machine.
A background line hands its command to a second shell as one word; what that shell reads is again the script
and the two files, each of them whole.
-/
namespace Dispatch.Shell

/-- What follows a command in the background: its output goes nowhere, and its process id is told. -/
def launchTail : List Token :=
  [.operator ">".toList, .word "/dev/null".toList, .descriptor "2".toList, .operator ">&".toList,
    .word "1".toList, .operator "&".toList, .word "echo".toList, .expanding "$!".toList]

/-- A background line: into the directory, and there the command as one word for a shell of its own. -/
def backgroundTokens (command dir : String) : List Token :=
  [.word "cd".toList, .word dir.toList, .operator "&&".toList, .word "nohup".toList, .word "sh".toList,
    .word "-c".toList, .word command.toList] ++ launchTail

/-- A script whose output and errors go to files. -/
def redirectedTokens (script outputPath errorPath : String) : List Token :=
  [.word script.toList, .operator ">".toList, .word outputPath.toList, .descriptor "2".toList,
    .operator ">".toList, .word errorPath.toList]

/-- Into a directory, if there is one. -/
def enterTokens (workingDir : Option String) : List Token :=
  match workingDir.filter fun dir => !dir.isEmpty with
  | some dir => [.word "cd".toList, .word dir.toList, .operator "&&".toList]
  | none => []

/-- A command as one word for a shell of its own. -/
def detachedTokens (command : String) : List Token :=
  [.word "nohup".toList, .word "sh".toList, .word "-c".toList, .word command.toList] ++ launchTail

theorem split_quote (text : String) : split (quote text) = some [.word text.toList] :=
  split_of_spells (spells_quote text)

theorem spells_enter (workingDir : Option String) {line : String} {tokens : List Token}
    (spelt : Spells line.toList tokens) :
    Spells (enter workingDir ++ line).toList (enterTokens workingDir ++ tokens) := by
  cases entered : workingDir.filter fun dir => !dir.isEmpty with
  | none =>
    rw [enter, enterTokens, entered]
    simpa using spelt
  | some dir =>
    have enters : Spells "cd".toList [.word "cd".toList] := rfl
    have andThen : Spells "&&".toList [.operator "&&".toList] := rfl
    have apart : ("cd " ++ quote dir ++ " && " ++ line).toList =
        "cd".toList ++ ' ' :: ((quote dir).toList ++ ' ' :: ("&&".toList ++ ' ' :: line.toList)) := by simp
    rw [enter, enterTokens, entered]
    change Spells ("cd " ++ quote dir ++ " && " ++ line).toList _
    rw [apart]
    exact enters.append ((spells_quote dir).append (andThen.append spelt))

/-- A command in the foreground is read as it is. -/
theorem split_foreground (workingDir : Option String) {command : String} {tokens : List Token}
    (spelt : Spells command.toList tokens) :
    split (commandLine command workingDir false) = some (enterTokens workingDir ++ tokens) :=
  split_of_spells (spells_enter workingDir spelt)

theorem split_background (command : String) (workingDir : Option String) :
    split (commandLine command workingDir true) = some (enterTokens workingDir ++ detachedTokens command) := by
  have detaches : Spells "nohup sh -c".toList [.word "nohup".toList, .word "sh".toList, .word "-c".toList] := rfl
  have tail : Spells "> /dev/null 2>&1 & echo $!".toList launchTail := rfl
  have apart : ("nohup sh -c " ++ quote command ++ " > /dev/null 2>&1 & echo $!").toList =
      "nohup sh -c".toList ++ ' ' :: ((quote command).toList ++ ' ' :: "> /dev/null 2>&1 & echo $!".toList) := by
    simp
  have spelt : Spells ("nohup sh -c " ++ quote command ++ " > /dev/null 2>&1 & echo $!").toList
      (detachedTokens command) := by
    rw [apart]
    exact detaches.append ((spells_quote command).append tail)
  have line : commandLine command workingDir true =
      enter workingDir ++ ("nohup sh -c " ++ quote command ++ " > /dev/null 2>&1 & echo $!") := by
    simp [commandLine, toString, String.append_assoc]
  rw [line]
  exact split_of_spells (spells_enter workingDir spelt)

theorem split_commandLine (command dir : String) (filled : dir ≠ "") :
    split (commandLine command (some dir) true) = some (backgroundTokens command dir) := by
  have kept : (some dir).filter (fun dir => !dir.isEmpty) = some dir := by simp [Option.filter, filled]
  rw [split_background, enterTokens, kept]
  rfl

theorem split_launchCommand (script outputPath errorPath : String) :
    split (Cloud.Config.launchCommand script outputPath errorPath) =
      some (redirectedTokens script outputPath errorPath) := by
  apply split_of_spells
  have toOutput : Spells ">".toList [.operator ">".toList] := rfl
  have toErrors : Spells "2>".toList [.descriptor "2".toList, .operator ">".toList] := rfl
  have line : (Cloud.Config.launchCommand script outputPath errorPath).toList =
      (quote script).toList ++ ' ' :: (">".toList ++ ' ' :: ((quote outputPath).toList ++ ' ' ::
        ("2>".toList ++ ' ' :: (quote errorPath).toList))) := by
    simp [Cloud.Config.launchCommand, toString]
  rw [line]
  exact (spells_quote script).append (toOutput.append ((spells_quote outputPath).append
    (toErrors.append (spells_quote errorPath))))

/-- No text escapes its word. A quoted text is read as itself; a submission command as its fixed words, each
flag that is given with its value, and the script; a background line as the directory and the command between
fixed words, where the command that starts a job in a virtual machine is read again as its three texts. -/
theorem texts_stay_in_their_words :
    (∀ text : String, split (quote text) = some [.word text.toList]) ∧
    (∀ (scheduler : Batch.Scheduler) (script : String) (options : Job.Options),
      split (scheduler.submitCommand script options) =
        some (Batch.Scheduler.tokens (scheduler.submitWords options ++ [script]))) ∧
    (∀ command dir : String, dir ≠ "" →
      split (commandLine command (some dir) true) = some (backgroundTokens command dir)) ∧
    (∀ script outputPath errorPath : String,
      split (Cloud.Config.launchCommand script outputPath errorPath) =
        some (redirectedTokens script outputPath errorPath)) :=
  ⟨split_quote, Batch.Scheduler.split_submitCommand, split_commandLine, split_launchCommand⟩

theorem background_line_in_quoted_dir :
    split (commandLine "rm $HOME" (some "it's; here") true) =
      some (backgroundTokens "rm $HOME" "it's; here") :=
  texts_stay_in_their_words.2.2.1 "rm $HOME" "it's; here" (by decide)

end Dispatch.Shell
