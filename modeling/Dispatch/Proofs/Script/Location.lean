import Dispatch.Backend.Place
import Dispatch.Proofs.Shell.Directories
/-!
Whether the script that is uploaded is the one that is run. The path of a script is made from its working directory and
is read twice: from the home of the account when the script is uploaded, and from the working directory when it is
run.
-/
namespace Dispatch

namespace Script

open Shell

/-- The name of an uploaded script. -/
def fileName (number : Nat) : List Char := "gridplane-".toList ++ ((hex32 number).toList ++ ".sh".toList)

theorem toList_remotePath (workingDir : Option String) (number : Nat) :
    (remotePath workingDir number).toList = (directory workingDir).toList ++ '/' :: fileName number := by
  unfold remotePath fileName
  generalize hex32 number = digits
  simp [toString]

theorem slash_not_mem_fileName (number : Nat) : '/' ∉ fileName number := by
  have digits := Text.slash_not_mem_toDigits (number % Nat.pow 2 128)
  unfold fileName hex32
  generalize Nat.toDigits 16 (number % Nat.pow 2 128) = tail at digits
  rw [String.toList_ofList]
  simp [digits]

def isSlash (c : Char) : Bool := c = '/'

/-- The directory without the slashes at its end. -/
def trimmed (dir : String) : List Char := dir.toList.rdropWhile isSlash

theorem trimmed_eq_nil {dir : String} : trimmed dir = [] ↔ ∀ c ∈ dir.toList, c = '/' := by
  rw [trimmed, List.rdropWhile_eq_nil_iff]
  exact forall₂_congr fun c _ => decide_eq_true_iff

theorem trimmed_append_slashes (dir : String) :
    ∃ slashes : List Char, (∀ c ∈ slashes, c = '/') ∧ trimmed dir ++ slashes = dir.toList := by
  refine ⟨dir.toList.rtakeWhile isSlash, fun c member => ?_, List.rdropWhile_append_rtakeWhile⟩
  have slash : isSlash c = true := List.mem_rtakeWhile_imp member
  exact of_decide_eq_true slash

/-- Paths are put together with the directory without the slashes at its end; of nothing but slashes a dot is left. -/
theorem toList_directory (dir : String) :
    (directory (some dir)).toList = if trimmed dir = [] then ['.'] else trimmed dir := by
  have cut : onChars (Text.dropEndWhile (· = '/')) dir = String.ofList (trimmed dir) := rfl
  unfold directory
  rw [Option.map_some, cut]
  by_cases nothing : trimmed dir = []
  · rw [if_pos nothing, nothing]
    rfl
  · have filled : (!(String.ofList (trimmed dir)).isEmpty) = true := by simpa using nothing
    rw [if_neg nothing, Option.filter_some, if_pos filled]
    exact String.toList_ofList

variable {Dir : Type} (tree : FileTree Dir) {home place : Dir}

/-- Where the path of a script leads: into its directory. -/
theorem file?_remotePath (home : Dir) (workingDir : Option String) (number : Nat) :
    tree.file? home (remotePath workingDir number).toList =
      (tree.directory? home (directory workingDir).toList).map fun directory =>
        { directory, name := fileName number } := by
  have filled : (directory workingDir).toList ≠ [] := by
    cases workingDir with
    | none => decide
    | some dir =>
      rw [toList_directory]
      split
      next => simp
      next filled => exact filled
  rw [toList_remotePath]
  exact tree.file?_in_directory filled (slash_not_mem_fileName number)

/-- A directory that is more than slashes is the same without those at its end. -/
theorem directory?_directory {dir : String} (filled : trimmed dir ≠ []) (home : Dir) :
    tree.directory? home (directory (some dir)).toList = tree.directory? home dir.toList := by
  obtain ⟨slashes, only, same⟩ := trimmed_append_slashes dir
  rw [toList_directory, if_neg filled, ← same]
  exact (tree.directory?_append_slashes filled only).symm

end Script

namespace Shell.FileTree

variable {Dir : Type}

/-- The working directories below which a script is found again by the path that it was uploaded to, from the home of
the account. -/
inductive Finds (tree : FileTree Dir) (home : Dir) : Option String → Prop
  /-- The home itself, where nothing is entered. -/
  | here {workingDir : Option String} (absent : workingDir.filter (fun dir => !dir.isEmpty) = none) :
      Finds tree home workingDir
  | absolute {dir : String} (fromRoot : dir.toList.head? = some '/') (named : ∃ c ∈ dir.toList, c ≠ '/') :
      Finds tree home (some dir)
  /-- Of the root no more is left than of the home. -/
  | root {dir : String} (slashes : ∀ c ∈ dir.toList, c = '/') (atHome : home = tree.root) : Finds tree home (some dir)
  /-- The directory leads from itself to itself, as a dot does, or a link to it that is in it. -/
  | again {dir : String} {place : Dir} (relative : dir.toList.head? ≠ some '/')
      (entered : tree.directory? home dir.toList = some place)
      (stays : tree.directory? place dir.toList = some place) : Finds tree home (some dir)

end Shell.FileTree

namespace Script

open Shell

variable {Dir : Type} {tree : FileTree Dir} {home place : Dir}

theorem file?_of_slashes {dir : String} (slashes : trimmed dir = []) (home : Dir) (number : Nat) :
    tree.file? home (remotePath (some dir) number).toList = some { directory := home, name := fileName number } := by
  rw [file?_remotePath, toList_directory, if_pos slashes, tree.directory?_dot]
  rfl

theorem file?_of_absent {workingDir : Option String} (absent : workingDir.filter (fun dir => !dir.isEmpty) = none)
    (home : Dir) (number : Nat) :
    tree.file? home (remotePath workingDir number).toList =
      some { directory := home, name := fileName number } := by
  cases workingDir with
  | none =>
    rw [file?_remotePath]
    rfl
  | some dir =>
    obtain rfl : dir = "" := by simpa using absent
    exact file?_of_slashes rfl home number

/-- The directory of the root is entered at the root, but the path of the script says nothing of it. -/
theorem finds_iff_of_slashes {dir : String} (filled : dir ≠ "") (slashes : trimmed dir = []) :
    tree.Finds home (some dir) ↔ home = tree.root := by
  have only := trimmed_eq_nil.mp slashes
  constructor
  · intro finds
    cases finds with
    | here absent => exact absurd (by simpa using absent) filled
    | absolute fromRoot named =>
      obtain ⟨c, member, other⟩ := named
      exact absurd (only c member) other
    | root _ atHome => exact atHome
    | again relative => exact absurd (FileTree.head?_of_slashes (by simpa using filled) only) relative
  · exact fun atHome => .root only atHome

theorem finds_iff_of_filled {dir : String} (filled : trimmed dir ≠ [])
    (entered : tree.directory? home dir.toList = some place) :
    tree.Finds home (some dir) ↔ tree.directory? place dir.toList = some place := by
  have named : ∃ c ∈ dir.toList, c ≠ '/' := by
    by_contra none
    exact filled (trimmed_eq_nil.mpr fun c member => by_contra fun other => none ⟨c, member, other⟩)
  constructor
  · intro finds
    cases finds with
    | here absent =>
      obtain rfl : dir = "" := by simpa using absent
      exact absurd rfl filled
    | absolute fromRoot _ => rw [tree.directory?_absolute fromRoot place home, entered]
    | root slashes => exact absurd (trimmed_eq_nil.mpr slashes) filled
    | again _ other stays =>
      rw [entered] at other
      cases other
      exact stays
  · intro stays
    by_cases fromRoot : dir.toList.head? = some '/'
    · exact .absolute fromRoot named
    · exact .again fromRoot entered stays

/-- Wherever a working directory leads: the script is found from there by the path that it was uploaded to from the
home just if the directory is one that finds it. -/
theorem found_iff {workingDir : Option String} (entered : tree.enters? home workingDir = some place) (number : Nat) :
    ∃ file, tree.file? home (remotePath workingDir number).toList = some file ∧
      (tree.file? place (remotePath workingDir number).toList = some file ↔ tree.Finds home workingDir) := by
  cases wanted : workingDir.filter fun dir => !dir.isEmpty with
  | none =>
    rw [FileTree.enters?, wanted] at entered
    obtain rfl := Option.some.inj entered
    exact ⟨_, file?_of_absent wanted home number, iff_of_true (file?_of_absent wanted home number) (.here wanted)⟩
  | some dir =>
    obtain ⟨rfl, nonempty⟩ := Option.filter_eq_some_iff.mp wanted
    have filled : dir ≠ "" := by simpa using nonempty
    have entered : tree.directory? home dir.toList = some place := by rwa [FileTree.enters?, wanted] at entered
    by_cases slashes : trimmed dir = []
    · rw [tree.directory?_slashes (by simpa using filled) (trimmed_eq_nil.mp slashes)] at entered
      obtain rfl := Option.some.inj entered
      refine ⟨_, file?_of_slashes slashes home number, ?_⟩
      rw [file?_of_slashes slashes, finds_iff_of_slashes filled slashes]
      simp [eq_comm]
    · refine ⟨{ directory := place, name := fileName number }, ?_, ?_⟩
      · rw [file?_remotePath, directory?_directory tree slashes, entered]
        rfl
      · rw [file?_remotePath, directory?_directory tree slashes, finds_iff_of_filled slashes entered]
        cases tree.directory? place dir.toList with
        | none => simp
        | some other => simp

end Script

end Dispatch
