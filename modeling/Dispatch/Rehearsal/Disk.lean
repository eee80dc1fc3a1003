import Dispatch.Text.Basic
import Dispatch.Text.Bytes
/-!
A disk: directories and files, and the paths that lead to them from the root or from the present directory.
-/
namespace Dispatch.Rehearsal

/-- What there can be at a path. A sink is an empty file that stays empty whatever is written to it. -/
inductive Entry
  | directory
  | file (content : List UInt8)
  | sink
  deriving DecidableEq, Repr

/-- The names from the root to a place. -/
abbrev Place : Type := List String

structure Disk where
  entries : List (Place × Entry) := []
  here : Place := []
  deriving Repr

namespace Disk

/-- Why nothing comes of a path. -/
inductive Obstacle
  | missing
  | notDirectory
  | isDirectory
  | longName
  | badPath
  | badText
  deriving DecidableEq, Repr

namespace Obstacle

def message : Obstacle → String
  | missing => "No such file or directory (os error 2)"
  | notDirectory => "Not a directory (os error 20)"
  | isDirectory => "Is a directory (os error 21)"
  | longName => "File name too long (os error 36)"
  | badPath => "file name contained an unexpected NUL byte"
  | badText => "stream did not contain valid UTF-8"

end Obstacle

/-- In bytes. -/
def nameLimit : Nat := 255

def pathLimit : Nat := 4095

/-- The root is always there. -/
def entry? (disk : Disk) (place : Place) : Option Entry :=
  if place.isEmpty then some .directory
  else (disk.entries.find? fun (other, _) => other == place).map Prod.snd

def put (disk : Disk) (place : Place) (entry : Entry) : Disk :=
  { disk with entries := (place, entry) :: disk.entries.filter fun (other, _) => other ≠ place }

def isDirectory (disk : Disk) (place : Place) : Bool := disk.entry? place = some .directory

/-- Where a name leads from a place, whether or not there is anything. An empty name stays. -/
def enter (place : Place) (name : String) : Place :=
  if name.isEmpty ∨ name = "." then place
  else if name = ".." then place.dropLast
  else place ++ [name]

/-- Follows names, each of them in a directory. -/
def follow (disk : Disk) (place : Place) : List String → Except Obstacle Place
  | [] => .ok place
  | name :: rest =>
    if !disk.isDirectory place then .error .notDirectory
    else if nameLimit < name.utf8ByteSize then .error .longName
    else if (disk.entry? (enter place name)).isNone then .error .missing
    else follow disk (enter place name) rest

/-- The place a path starts at, and its names. -/
def start (disk : Disk) (path : String) : Except Obstacle (Place × List String) :=
  if path.toList.contains '\x00' then .error .badPath
  else if path.isEmpty then .error .missing
  else if pathLimit < path.utf8ByteSize then .error .longName
  else
    let names := (Text.fields '/' path.toList).map String.ofList
    .ok (if Text.beginsWith ['/'] path.toList then [] else disk.here, names)

/-- What there is at a path. -/
def find (disk : Disk) (path : String) : Except Obstacle Entry := do
  let (place, names) ← disk.start path
  let found ← disk.follow place names
  return (disk.entry? found).getD .directory

def reason? (disk : Disk) (path : String) : Option String :=
  match disk.find path with
  | .ok _ => none
  | .error obstacle => some obstacle.message

/-- The text of a file. -/
def read (disk : Disk) (path : String) : Except Obstacle String := do
  match ← disk.find path with
  | .directory => .error .isDirectory
  | .sink => return ""
  | .file content => (Text.ofBytes? content).elim (.error .badText) .ok

/-- Writes to the file with a name in a place, which need not be there yet. -/
def writeIn (disk : Disk) (place : Place) (name : String) (content : List UInt8) : Except Obstacle Disk :=
  if !disk.isDirectory place then .error .notDirectory
  else if nameLimit < name.utf8ByteSize then .error .longName
  else
    match disk.entry? (enter place name) with
    | some .directory => .error .isDirectory
    | some .sink => .ok disk
    | _ => .ok (disk.put (enter place name) (.file content))

/-- Writes a file into a directory that is there. A path that ends in a slash is no file. -/
def write (disk : Disk) (path : String) (content : List UInt8) : Except Obstacle Disk := do
  let (place, names) ← disk.start path
  let filled := (names.reverse.dropWhile String.isEmpty).reverse
  let found ← disk.follow place filled.dropLast
  match filled.getLast? with
  | some name => if filled.length < names.length then .error .isDirectory else disk.writeIn found name content
  | none => .error .isDirectory

/-- Makes the directories that are missing on the way along some names. -/
def makeWay (disk : Disk) (place : Place) : List String → Disk
  | [] => disk
  | name :: rest =>
    let next := enter place name
    makeWay (if (disk.entry? next).isNone then disk.put next .directory else disk) next rest

/-- The names of the directories above a file, whose own name is the last that leads anywhere. -/
def above (names : List String) : List String :=
  (names.reverse.dropWhile fun name => name.isEmpty || name = ".").tail.reverse

/-- Writes a file and the directories that it needs. -/
def save (disk : Disk) (path : String) (content : List UInt8) : Except Obstacle Disk := do
  let (place, names) ← disk.start path
  (disk.makeWay place (above names)).write path content

/-- Removes a file, if it is there. -/
def remove (disk : Disk) (path : String) : Disk :=
  match disk.start path with
  | .ok (place, names) => { disk with
      entries := disk.entries.filter fun (other, _) => other ≠ names.foldl enter place }
  | .error _ => disk

/-- The directories of every system. -/
def systemDirectories : List String :=
  ["bin", "boot", "dev", "etc", "home", "lib", "media", "mnt", "opt", "proc", "root", "run", "sbin", "srv",
    "sys", "tmp", "usr", "var"]

/-- Devices that can be read without an end. Only their names matter. -/
def endlessDevices : List String := ["full", "random", "urandom", "zero"]

/-- Files of every system. Their content does not matter. -/
def systemFiles : List Place := [["bin", "sh"], ["etc", "hosts"], ["etc", "passwd"]]

/-- An empty directory in a system with the usual directories, devices and files. -/
def initial : Disk :=
  { entries :=
      systemDirectories.map (fun name => ([name], .directory)) ++
        ("null" :: endlessDevices).map (fun name => (["dev", name], .sink)) ++
        systemFiles.map (fun place => (place, .file [])) ++
        [(["proc", "self"], .directory), (["tmp", "rehearsal"], .directory)]
    here := ["tmp", "rehearsal"] }

end Disk

end Dispatch.Rehearsal
