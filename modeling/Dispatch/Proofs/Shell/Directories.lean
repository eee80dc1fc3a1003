import Dispatch.Proofs.Shell.CommandLines
import Dispatch.Proofs.Text.Numeral
import Mathlib.Data.List.DropRight
/-!
The directories of a host, and where paths lead in them. A relative path leads somewhere else once a line has changed
the directory; an absolute one, and one that stays where it is, do not.
-/
namespace Dispatch.Shell

/-- The directories of a host, with what a name leads to if it leads to a directory: to one below, to the one above, or
wherever a link points. -/
structure FileTree (Dir : Type) where
  root : Dir
  enter? : Dir → List Char → Option Dir

/-- A file by the directory that it is in. -/
structure File (Dir : Type) where
  directory : Dir
  name : List Char
  deriving DecidableEq

namespace FileTree

variable {Dir : Type} (tree : FileTree Dir) {home place : Dir}

/-- Nothing, and a dot, lead to where one is. -/
def step? (place : Dir) (name : List Char) : Option Dir :=
  if name = [] ∨ name = ['.'] then some place else tree.enter? place name

/-- Name after name. -/
def walk? (place : Dir) (names : List (List Char)) : Option Dir := names.foldlM tree.step? place

/-- Absolute paths begin at the root, all others where one is. -/
def origin (home : Dir) (path : List Char) : Dir := if path.head? = some '/' then tree.root else home

/-- The directory that a path leads to. -/
def directory? (home : Dir) (path : List Char) : Option Dir :=
  tree.walk? (tree.origin home path) (Text.fields '/' path)

/-- The file that a path leads to: what stands behind the last slash is its name. -/
def file? (home : Dir) (path : List Char) : Option (File Dir) :=
  (tree.walk? (tree.origin home path) (Text.fields '/' path).dropLast).map fun directory =>
    { directory, name := (Text.fields '/' path).getLastD [] }

/-- Where a line is run that begins in a directory, and what is left of it: a change of directory comes first. -/
def goes? (home : Dir) : List Token → Option (Dir × List Token)
  | .word ['c', 'd'] :: .word path :: .operator ['&', '&'] :: rest =>
    (tree.directory? home path).map fun place => (place, rest)
  | tokens => some (home, tokens)

/-- Where the commands for a working directory are run. -/
def enters? (home : Dir) (workingDir : Option String) : Option Dir :=
  match workingDir.filter fun dir => !dir.isEmpty with
  | some dir => tree.directory? home dir.toList
  | none => some home

/-- A line that begins by entering a directory goes where that leads. -/
theorem goes?_enterTokens (home : Dir) (workingDir : Option String) {rest : List Token}
    (other : rest.head? ≠ some (.word "cd".toList)) :
    tree.goes? home (enterTokens workingDir ++ rest) =
      (tree.enters? home workingDir).map fun place => (place, rest) := by
  cases entered : workingDir.filter fun dir => !dir.isEmpty with
  | none =>
    rw [enterTokens, enters?, entered, List.nil_append]
    unfold goes?
    split
    next => exact absurd rfl other
    next => rfl
  | some dir =>
    rw [enterTokens, enters?, entered]
    rfl

theorem walk?_append (place : Dir) (names others : List (List Char)) :
    tree.walk? place (names ++ others) = (tree.walk? place names).bind fun next => tree.walk? next others := by
  rw [walk?, List.foldlM_append]
  rfl

/-- Slashes alone lead nowhere. -/
theorem walk?_slashes {slashes : List Char} (only : ∀ c ∈ slashes, c = '/') (place : Dir) :
    tree.walk? place (Text.fields '/' slashes) = some place := by
  induction slashes with
  | nil => rfl
  | cons c rest ih =>
    obtain rfl := only c List.mem_cons_self
    have later := ih fun other member => only other (List.mem_cons_of_mem _ member)
    exact later

/-- Slashes at the end of a path make no difference. -/
theorem directory?_append_slashes {path slashes : List Char} (filled : path ≠ []) (only : ∀ c ∈ slashes, c = '/') :
    tree.directory? home (path ++ slashes) = tree.directory? home path := by
  cases slashes with
  | nil => rw [List.append_nil]
  | cons c rest =>
    obtain rfl := only c List.mem_cons_self
    have same : tree.origin home (path ++ '/' :: rest) = tree.origin home path := by
      rw [origin, origin, List.head?_append_of_ne_nil _ filled]
    have blank (next : Dir) : tree.walk? next (Text.fields '/' rest) = some next :=
      tree.walk?_slashes (fun other member => only other (List.mem_cons_of_mem _ member)) next
    rw [directory?, directory?, same, Text.fields_append_separator, walk?_append]
    cases tree.walk? (tree.origin home path) (Text.fields '/' path) with
    | none => rfl
    | some next => exact blank next

/-- A file in a directory is what the path of the directory leads to, and the name in it. -/
theorem file?_in_directory {path name : List Char} (filled : path ≠ []) (plain : '/' ∉ name) :
    tree.file? home (path ++ '/' :: name) =
      (tree.directory? home path).map fun directory => { directory, name } := by
  have same : tree.origin home (path ++ '/' :: name) = tree.origin home path := by
    rw [origin, origin, List.head?_append_of_ne_nil _ filled]
  rw [file?, directory?, same, Text.fields_append_separator, Text.fields_of_absent plain]
  simp

theorem directory?_dot (home : Dir) : tree.directory? home ['.'] = some home := rfl

theorem head?_of_slashes {slashes : List Char} (filled : slashes ≠ []) (only : ∀ c ∈ slashes, c = '/') :
    slashes.head? = some '/' := by
  cases slashes with
  | nil => exact absurd rfl filled
  | cons c rest => exact congrArg some (only c List.mem_cons_self)

/-- Slashes by themselves lead to the root. -/
theorem directory?_slashes {slashes : List Char} (filled : slashes ≠ []) (only : ∀ c ∈ slashes, c = '/') :
    tree.directory? home slashes = some tree.root := by
  rw [directory?, origin, if_pos (head?_of_slashes filled only), tree.walk?_slashes only]

/-- An absolute path leads to one directory from everywhere. -/
theorem directory?_absolute {path : List Char} (fromRoot : path.head? = some '/') (home other : Dir) :
    tree.directory? home path = tree.directory? other path := by
  rw [directory?, directory?, origin, origin, if_pos fromRoot, if_pos fromRoot]

end FileTree

end Dispatch.Shell
