import Dispatch.Job.Record
import Dispatch.Rehearsal.World
import Dispatch.Shell.Address
/-!
Transcripts of a rehearsal: the events as records, and masks over everything that cannot be foreseen, so
that two transcripts can be compared.
-/
namespace Dispatch.Rehearsal

namespace Event

/-- The account of a remote event, and its identity if it has one. -/
def place (target : Shell.Target) : List (String × Json) :=
  ("target", .string s!"{target.user}@{target.host}:{target.port}") ::
    (target.identity.map fun path => ("identity", Json.string path)).toList

def remoteJson? : Event → Option Json
  | remote target (.execute command workingDir background) =>
    let cwd := (workingDir.map fun dir => ("cwd", Json.string dir)).toList
    some (.object ([("exec", .string command), ("background", .bool background)] ++ cwd ++ place target))
  | remote target (.fetch remotePath _) => some (.object (("copy", .string remotePath) :: place target))
  | remote target (.upload content path mode) =>
    some (.object ([("upload", .string path), ("mode", .int mode.toInt), ("content", .string content)] ++
      place target))
  | _ => none

def providerJson? : Event → Option Json
  | provider endpoint method params => some (.object
      [("endpoint", .string endpoint), ("method", .string method), ("params", .array params)])
  | _ => none

def verifiedJson? : Event → Option Json
  | verified system login => some (.array [.string system, .string login])
  | _ => none

/-- The events of each sort that there are. -/
def members (events : List Event) : List (String × Json) :=
  [("shell", events.filterMap remoteJson?), ("rpc", events.filterMap providerJson?),
    ("verify", events.filterMap verifiedJson?)].filterMap fun (name, values) =>
      if values.isEmpty then none else some (name, .array values)

end Event

/-- The account and the command of an execution, and whether it was in the background. -/
def Event.execution? : Event → Option (Shell.Target × String × Bool)
  | remote target (.execute command _ background) => some (target, command, background)
  | _ => none

/-- The method and the parameters of a call of the provider. -/
def Event.call? : Event → Option (String × List Json)
  | provider _ method params => some (method, params)
  | _ => none

def Upload.toJson (upload : Upload) : Json :=
  .object [
    ("target", upload.target.toJson),
    ("path", .string upload.path),
    ("mode", .int upload.mode.toInt),
    ("content", .string upload.content)]

/-- All that the hosts and the provider have seen so far. -/
def World.seen (world : World) : Json :=
  let executed := world.events.filterMap Event.execution?
  let background := executed.filter fun (_, _, background) => background
  .object [
    ("commands", Json.ofList (fun (_, command, _) => .string command) executed),
    ("background", Json.ofList (fun (_, command, _) => .string command) background),
    ("targets", Json.ofList (fun (target, _, _) => target.toJson) executed),
    ("uploads", Json.ofList Upload.toJson world.hosts.uploads),
    ("calls", Json.ofList (fun (method, params) => .array [.string method, .array params])
      (world.events.filterMap Event.call?))]

/-- The parameters of every call of a method. -/
def World.callsTo (world : World) (method : String) : List (List Json) :=
  ((world.events.filterMap Event.call?).filter fun (other, _) => other == method).map Prod.snd

/-- Fetched output: the files with their contents, the random parts of their names as a star. -/
def Staging.outputJson (staging : Staging) (output : Job.Output) : Json :=
  let file (suffix path : String) : Json := .object [
    ("name", .string s!"job_output-{output.job}-*{suffix}"),
    ("content", .string ((staging.content? path).getD ""))]
  .object [
    ("job_id", .string output.job),
    ("output", file ".out" output.outputPath),
    ("error", file ".err" output.errorPath)]

/-- A name for a session in transcripts. -/
structure Alias where
  name : String
  key : String
  id : String
  deriving Repr

namespace Alias

def hide (text : List Char) (entry : Alias) : List Char :=
  Text.replace entry.id.toList s!"<id:{entry.name}>".toList
    (Text.replace entry.key.toList s!"<key:{entry.name}>".toList text)

end Alias

def scriptStart : List Char := "gridplane-".toList

def scriptEnd : List Char := ".sh".toList

/-- Whether a text begins with the name of an uploaded script. -/
def beginsWithScript (text : List Char) : Bool :=
  match Text.after? scriptStart text with
  | some rest =>
    (rest.take 32).length = 32 && (rest.take 32).all Shell.isHexDigit && Text.beginsWith scriptEnd (rest.drop 32)
  | none => false

/-- The first `skip` characters belong to a name that has been replaced. -/
def hideScriptsFrom : (skip : Nat) → List Char → List Char
  | _, [] => []
  | skip + 1, _ :: rest => hideScriptsFrom skip rest
  | 0, c :: rest =>
    if beginsWithScript (c :: rest) then
      scriptStart ++ "UUID".toList ++ hideScriptsFrom (scriptStart.length + 31) rest
    else c :: hideScriptsFrom 0 rest

/-- Drops what follows the first occurrence of a phrase. -/
def cutAfter (phrase : String) (text : List Char) : List Char :=
  match Text.around? phrase.toList text with
  | some (before, _) => before ++ phrase.toList
  | none => text

/-- A failure whose message ends with the first of the phrases that it holds. -/
def cutMessage (phrases : List String) : Json → Json
  | .object [error, ("message", .string text)] =>
    let cut := phrases.foldl (fun text phrase => cutAfter phrase text) text.toList
    .object [error, ("message", .string (String.ofList cut))]
  | other => other

/-- Whether a session has a key and an identifier of the usual form. -/
def isWellFormed (session : Session) : Bool :=
  let key := session.key.toList
  let lead := (Session.newId session.user session.createdAt 0).toList.dropLast
  let tail := (Text.after? lead session.id.toList).getD []
  key.length = 70 && (key.take 64).all (fun c => Shell.isHexDigit c && !c.isUpper) &&
    (key.drop 64).all Text.isDigit && !tail.isEmpty && tail.length ≤ 5 && tail.all Text.isDigit

def hideScripts (text : String) : String := onChars (hideScriptsFrom 0) text

/-- The cause of a staging file that cannot be made depends on the disk. -/
def hideSecrets (aliases : List Alias) (text : String) : String :=
  let hidden := hideScriptsFrom 0 (aliases.foldl Alias.hide text.toList)
  String.ofList (cutAfter "Failed to create staging file" hidden)

/-- Where the clock of a rehearsal starts. -/
def clockStart : Instant := { second := 1795091696, nano := 271828183 }

/-- Readings of the clock lie within an hour, and whole microseconds after the start. -/
def isReading (instant : Instant) : Bool :=
  clockStart.isBefore instant && instant.second < clockStart.second + 3600 &&
    instant.nano % 1000 = clockStart.nano % 1000

def instantFields : List String :=
  ["created_at", "last_activity_at", "closed_at", "submitted_at", "started_at", "finished_at", "ended_at",
    "start_time"]

/-- A text in a scenario, as the value of a member if it is one. -/
def hideInScenario (aliases : List Alias) (name : Option String) (text : String) : String :=
  if name.any instantFields.contains && (Instant.ofTimestamp? text).any isReading then "now"
  else hideSecrets aliases text

mutual

/-- Changes all texts in a value; those of members are changed with the name of the member. -/
def changeTexts (change : Option String → String → String) (name : Option String) : Json → Json
  | .string text => .string (change name text)
  | .array items => .array (changeItems change items)
  | .object members => .object (changeMembers change members)
  | other => other

def changeItems (change : Option String → String → String) : List Json → List Json
  | [] => []
  | item :: rest => changeTexts change none item :: changeItems change rest

def changeMembers (change : Option String → String → String) : List (String × Json) → List (String × Json)
  | [] => []
  | (name, value) :: rest => (name, changeTexts change (some name) value) :: changeMembers change rest

end

/-- A value as a transcript shows it. -/
def mask (change : Option String → String → String) (json : Json) : Json := changeTexts change none json

end Dispatch.Rehearsal
