import Dispatch.Job.Retrieval
import Dispatch.Proofs.Batch.Streams
import Dispatch.Proofs.Text.Search
import Mathlib.Algebra.GroupWithZero.Nat
/-!
Whether a file that is written is found again. The path of a stream is made from the working directory and the
identifier of the job; it is read from the working directory when the stream is written, and without a host in front
from the home of the account when it is fetched.
-/
namespace Dispatch

open Shell

namespace Text

/-- What stands before the first separator can be put in front of the first piece. -/
theorem fields_prepend {separator : Char} {front rest first : List Char} {others : List (List Char)}
    (absent : separator ∉ front) (parts : fields separator rest = first :: others) :
    fields separator (front ++ rest) = (front ++ first) :: others := by
  induction front with
  | nil => exact parts
  | cons c front ih =>
    simp only [List.mem_cons, not_or] at absent
    rw [List.cons_append, fields, if_neg (Ne.symm absent.1), ih absent.2]
    rfl

end Text

namespace Shell.FileTree

variable {Dir : Type} (tree : FileTree Dir)

/-- A name that leads nowhere. -/
def IsStill (name : List Char) : Prop := name = [] ∨ name = ['.']

instance (name : List Char) : Decidable (IsStill name) := inferInstanceAs (Decidable (name = [] ∨ name = ['.']))

theorem walk?_still {names : List (List Char)} (still : ∀ name ∈ names, IsStill name) (place : Dir) :
    tree.walk? place names = some place := by
  induction names with
  | nil => rfl
  | cons name names ih =>
    have here : tree.step? place name = some place := if_pos (still name List.mem_cons_self)
    rw [walk?, List.foldlM_cons, here]
    exact ih fun other member => still other (List.mem_cons_of_mem name member)

/-- An absolute path leads to one file from everywhere. -/
theorem file?_absolute {path : List Char} (fromRoot : path.head? = some '/') (home other : Dir) :
    tree.file? home path = tree.file? other path := by
  rw [file?, file?, origin, origin, if_pos fromRoot, if_pos fromRoot]

end Shell.FileTree

namespace Job

/-- What stands before the first colon and after it, if the former looks like a host. -/
def qualified? (path : List Char) : Option (List Char × List Char) :=
  match Text.cut? ':' path with
  | some (host, rest) => if host = [] ∨ '/' ∈ host then none else some (host, rest)
  | none => none

theorem toList_withoutHost (path : String) :
    (withoutHost path).toList = ((qualified? path.toList).map Prod.snd).getD path.toList := by
  unfold withoutHost qualified?
  cases Text.cut? ':' path.toList with
  | none => rfl
  | some parts =>
    obtain ⟨host, rest⟩ := parts
    by_cases plain : host = [] ∨ '/' ∈ host <;> simp [plain]

/-- What is put behind a path comes after its host. -/
theorem qualified?_append {more : List Char} (absent : ':' ∉ more) (path : List Char) :
    qualified? (path ++ more) = (qualified? path).map fun (host, rest) => (host, rest ++ more) := by
  unfold qualified?
  rw [Text.cut?_append absent]
  cases Text.cut? ':' path with
  | none => rfl
  | some parts =>
    obtain ⟨host, rest⟩ := parts
    by_cases plain : host = [] ∨ '/' ∈ host <;> simp [plain]

theorem qualified?_eq_some {path host rest : List Char} (found : qualified? path = some (host, rest)) :
    host ≠ [] ∧ '/' ∉ host ∧ path = host ++ ':' :: rest := by
  unfold qualified? at found
  split at found
  next other after cut =>
    obtain ⟨plain, same⟩ := Option.ite_none_left_eq_some.mp found
    cases same
    rw [not_or] at plain
    exact ⟨plain.1, plain.2, (Text.cut?_eq_some.mp cut).1⟩
  next => cases found

/-- Nothing is left out of a path just if it has no host. -/
theorem withoutHost_eq_iff (path : String) : withoutHost path = path ↔ qualified? path.toList = none := by
  rw [← String.toList_inj, toList_withoutHost]
  cases found : qualified? path.toList with
  | none => simp
  | some parts =>
    obtain ⟨-, -, same⟩ := qualified?_eq_some found
    have shorter : parts.2 ≠ path.toList := by
      intro equal
      have lengths := congrArg List.length same
      rw [equal, List.length_append, List.length_cons] at lengths
      omega
    simpa using shorter

/-- A host is in the first name of a path. -/
theorem qualified?_eq_none {path first : List Char} (begins : (Text.fields '/' path).head? = some first)
    (plain : ':' ∉ first) : qualified? path = none := by
  rw [Option.eq_none_iff_forall_not_mem]
  rintro ⟨host, rest⟩ found
  obtain ⟨-, unslashed, same⟩ := qualified?_eq_some found
  cases parts : Text.fields '/' rest with
  | nil => exact Text.fields_ne_nil _ _ parts
  | cons head others =>
    have front : '/' ∉ host ++ [':'] := by simp [unslashed]
    have split := Text.fields_prepend front parts
    rw [List.append_assoc, List.singleton_append, ← same] at split
    rw [split] at begins
    obtain rfl := Option.some.inj begins
    exact plain (by simp)

section Measure

/-- A host whose directories are told by the length of the names that lead there. -/
def measured : FileTree Nat where
  root := 0
  enter? place name := some (place + name.length)

/-- How far a name leads. -/
def span (name : List Char) : Nat := if FileTree.IsStill name then 0 else name.length

/-- How far a path leads, with the name of the file. -/
def reach (path : List Char) : Nat :=
  ((Text.fields '/' path).dropLast.map span).sum + ((Text.fields '/' path).getLastD []).length

def weight (file : File Nat) : Nat := file.directory + file.name.length

theorem walk?_measured (names : List (List Char)) (place : Nat) :
    measured.walk? place names = some (place + (names.map span).sum) := by
  induction names generalizing place with
  | nil => rfl
  | cons name names ih =>
    have here : measured.step? place name = some (place + span name) := by
      unfold FileTree.step? span
      by_cases still : FileTree.IsStill name
      · exact (if_pos still).trans (congrArg some (by rw [if_pos still, Nat.add_zero]))
      · exact (if_neg still).trans (congrArg some (by rw [if_neg still]))
    have later := ih (place + span name)
    rw [FileTree.walk?] at later ⊢
    rw [List.foldlM_cons, here]
    refine later.trans (congrArg some ?_)
    rw [List.map_cons, List.sum_cons, Nat.add_assoc]

theorem weight_file? (home : Nat) (path : List Char) :
    (measured.file? home path).map weight = some (measured.origin home path + reach path) := by
  rw [FileTree.file?, walk?_measured]
  simp [weight, reach, Nat.add_assoc]

theorem span_le (name : List Char) : span name ≤ name.length := by
  unfold span
  split
  · exact Nat.zero_le _
  · exact Nat.le_refl _

/-- Without its host a path does not lead as far. -/
theorem reach_lt {path host rest : List Char} (found : qualified? path = some (host, rest)) :
    reach rest < reach path := by
  obtain ⟨-, unslashed, same⟩ := qualified?_eq_some found
  cases parts : Text.fields '/' rest with
  | nil => exact absurd parts (Text.fields_ne_nil _ _)
  | cons first others =>
    have front : '/' ∉ host ++ [':'] := by simp [unslashed]
    have split := Text.fields_prepend front parts
    rw [List.append_assoc, List.singleton_append, ← same] at split
    have moves : ¬FileTree.IsStill (host ++ [':'] ++ first) := by
      rintro (empty | dot)
      · simp at empty
      · have colon : ':' ∈ ['.'] := dot ▸ by simp
        simp at colon
    have far : span (host ++ [':'] ++ first) = (host ++ [':'] ++ first).length := if_neg moves
    have near := span_le first
    unfold reach
    rw [parts, split]
    cases others with
    | nil => simp; omega
    | cons second others =>
      simp only [List.dropLast_cons_cons, List.map_cons, List.sum_cons, far, List.getLastD_cons]
      simp only [List.length_append, List.length_cons, List.length_nil]
      omega

theorem reach_withoutHost (path : String) : reach (withoutHost path).toList ≤ reach path.toList := by
  rw [toList_withoutHost]
  cases found : qualified? path.toList with
  | none => exact Nat.le_refl _
  | some parts => exact Nat.le_of_lt (reach_lt found)

end Measure

/-- The path of a stream in a directory: a slash comes behind what is left of the directory. -/
theorem toList_path (stream : Stream) (dir id : String) :
    (stream.path (some dir) id).toList = Script.trimmed dir ++ '/' :: (id ++ stream.suffix).toList := by
  have cut : onChars (Text.dropEndWhile (· = '/')) dir = String.ofList (Script.trimmed dir) := rfl
  rw [Stream.path, fileIn, cut]
  simp

theorem path_none (stream : Stream) (id : String) : stream.path none id = id ++ stream.suffix := rfl

/-- It begins with the name that the directory begins with. -/
theorem head?_fields_path (stream : Stream) (dir id : String) :
    (Text.fields '/' (stream.path (some dir) id).toList).head? = (Text.fields '/' dir.toList).head? := by
  obtain ⟨slashes, only, same⟩ := Script.trimmed_append_slashes dir
  have filled := Text.fields_ne_nil '/' (Script.trimmed dir)
  rw [toList_path, Text.fields_append_separator, List.head?_append_of_ne_nil _ filled, ← same]
  cases slashes with
  | nil => rw [List.append_nil]
  | cons c rest =>
    obtain rfl := only c List.mem_cons_self
    rw [Text.fields_append_separator, List.head?_append_of_ne_nil _ filled]

/-- Nothing but a directory of slashes makes an absolute path of a relative one. -/
theorem head?_path (stream : Stream) {dir : String} (id : String) (filled : dir ≠ "") :
    (stream.path (some dir) id).toList.head? = some '/' ↔ dir.toList.head? = some '/' := by
  obtain ⟨slashes, only, same⟩ := Script.trimmed_append_slashes dir
  rw [toList_path]
  by_cases nothing : Script.trimmed dir = []
  · have slashed : dir.toList.head? = some '/' :=
      FileTree.head?_of_slashes (by simpa using filled) (Script.trimmed_eq_nil.mp nothing)
    rw [nothing, slashed]
    simp
  · rw [List.head?_append_of_ne_nil _ nothing, ← same, List.head?_append_of_ne_nil _ nothing]

/-- The working directories from which a file that a job has written is found again: none, if the identifier of the
job does not look like a path with a host; an absolute one; and one that leads nowhere. -/
inductive ComesBack (id : String) : Option String → Prop
  | home (plain : withoutHost id = id) : ComesBack id none
  | absolute {dir : String} (fromRoot : dir.toList.head? = some '/') : ComesBack id (some dir)
  | still {dir : String} (still : ∀ name ∈ Text.fields '/' dir.toList, FileTree.IsStill name) : ComesBack id (some dir)

theorem colon_not_mem_suffix (stream : Stream) : ':' ∉ stream.suffix.toList := by
  cases stream with
  | output | error => decide

/-- What is found again loses no host. -/
theorem ComesBack.withoutHost_path {id : String} {workingDir : Option String} (comes : ComesBack id workingDir)
    (stream : Stream) : withoutHost (stream.path workingDir id) = stream.path workingDir id := by
  rw [withoutHost_eq_iff]
  have unqualified {dir : String} {first : List Char} (begins : (Text.fields '/' dir.toList).head? = some first)
      (plain : FileTree.IsStill first) : qualified? (stream.path (some dir) id).toList = none := by
    have first := (head?_fields_path stream dir id).trans begins
    apply qualified?_eq_none first
    rcases plain with rfl | rfl
    · simp
    · simp
  cases comes with
  | home plain =>
    rw [path_none, String.toList_append, qualified?_append (colon_not_mem_suffix stream),
      (withoutHost_eq_iff id).mp plain]
    rfl
  | @absolute dir fromRoot =>
    cases chars : dir.toList with
    | nil => simp [chars] at fromRoot
    | cons c rest =>
      obtain rfl : c = '/' := by simpa [chars] using fromRoot
      refine unqualified ?_ (.inl rfl)
      rw [chars]
      rfl
  | @still dir still =>
    cases parts : Text.fields '/' dir.toList with
    | nil => exact absurd parts (Text.fields_ne_nil _ _)
    | cons first others => exact unqualified (by rw [parts]; rfl) (still first (parts ▸ List.mem_cons_self))

section Found

variable {Dir : Type} {tree : FileTree Dir} {home place : Dir} {id : String} {workingDir : Option String}

/-- The path of a stream leads to the file from the home that it leads to from the working directory. -/
def IsFound (tree : FileTree Dir) (home place : Dir) (id : String) (workingDir : Option String) (stream : Stream) :
    Prop :=
  tree.file? home (withoutHost (stream.path workingDir id)).toList =
    tree.file? place (stream.path workingDir id).toList

theorem ComesBack.isFound (comes : ComesBack id workingDir) (entered : tree.enters? home workingDir = some place)
    (stream : Stream) : IsFound tree home place id workingDir stream := by
  rw [IsFound, comes.withoutHost_path]
  by_cases fromRoot : (stream.path workingDir id).toList.head? = some '/'
  · exact tree.file?_absolute fromRoot home place
  · -- A relative path is followed from the same directory.
    have stays : tree.enters? home workingDir = some home := by
      cases comes with
      | home => rfl
      | @absolute dir slashed =>
        have filled : dir ≠ "" := by
          rintro rfl
          simp at slashed
        exact absurd ((head?_path stream id filled).mpr slashed) fromRoot
      | @still dir still =>
        by_cases filled : dir = ""
        · subst filled
          rfl
        · have relative : dir.toList.head? ≠ some '/' := fun slashed =>
            fromRoot ((head?_path stream id filled).mpr slashed)
          have kept : (some dir).filter (fun dir => !dir.isEmpty) = some dir := by simp [Option.filter, filled]
          rw [FileTree.enters?, kept]
          change tree.directory? home dir.toList = some home
          rw [FileTree.directory?, FileTree.origin, if_neg relative, tree.walk?_still still]
    rw [Option.some.inj (entered.symm.trans stays)]

/-- A name that leads somewhere leads away. -/
theorem sum_span_pos {names : List (List Char)} (moves : ¬∀ name ∈ names, FileTree.IsStill name) :
    0 < (names.map span).sum := by
  obtain ⟨name, member, moves⟩ : ∃ name ∈ names, ¬FileTree.IsStill name := by simpa using moves
  have far : span name = name.length := if_neg moves
  have filled : 0 < name.length := List.length_pos_iff.mpr fun empty => moves (.inl empty)
  obtain ⟨front, back, rfl⟩ := List.append_of_mem member
  rw [List.map_append, List.sum_append, List.map_cons, List.sum_cons]
  omega

/-- Where each name leads further away, nothing else is found again. -/
theorem comesBack_of_isFound
    (found : ∀ place, measured.enters? 0 workingDir = some place → IsFound measured 0 place id workingDir .output) :
    ComesBack id workingDir := by
  let stream := Stream.output
  have weighs {place : Nat} (same : IsFound measured 0 place id workingDir stream) :
      reach (withoutHost (stream.path workingDir id)).toList =
        measured.origin place (stream.path workingDir id).toList + reach (stream.path workingDir id).toList := by
    have weights := congrArg (Option.map weight) same
    rw [weight_file?, weight_file?] at weights
    have root (path : List Char) : measured.origin 0 path = 0 := by
      unfold FileTree.origin
      split <;> rfl
    rw [root, Nat.zero_add] at weights
    exact Option.some.inj weights
  cases workingDir with
  | none =>
    by_contra foreign
    have same := weighs (found 0 rfl)
    have qualified : qualified? id.toList ≠ none := fun none => foreign (.home ((withoutHost_eq_iff id).mpr none))
    obtain ⟨⟨host, rest⟩, known⟩ := Option.ne_none_iff_exists'.mp qualified
    have longer : qualified? (stream.path none id).toList = some (host, rest ++ stream.suffix.toList) := by
      rw [path_none, String.toList_append, qualified?_append (colon_not_mem_suffix stream), known]
      rfl
    have shorter := reach_lt longer
    rw [toList_withoutHost, longer] at same
    simp only [Option.map_some, Option.getD_some] at same
    omega
  | some dir =>
    by_cases still : ∀ name ∈ Text.fields '/' dir.toList, FileTree.IsStill name
    · exact .still still
    · by_cases slashed : dir.toList.head? = some '/'
      · exact .absolute slashed
      · exfalso
        have filled : dir ≠ "" := by
          rintro rfl
          exact still (by simp [Text.fields, FileTree.IsStill])
        have kept : (some dir).filter (fun dir => !dir.isEmpty) = some dir := by simp [Option.filter, filled]
        have entered : measured.enters? 0 (some dir) = some (0 + ((Text.fields '/' dir.toList).map span).sum) := by
          rw [FileTree.enters?, kept]
          change measured.directory? 0 dir.toList = _
          rw [FileTree.directory?, FileTree.origin, if_neg slashed, walk?_measured]
        have same := weighs (found _ entered)
        have relative := (head?_path stream id filled).not.mpr slashed
        have away := sum_span_pos still
        have shorter := reach_withoutHost (stream.path (some dir) id)
        rw [FileTree.origin, if_neg relative] at same
        omega

/-- On every host, from every home, both streams are found where they are written, just for these directories. -/
theorem comesBack_iff : ComesBack id workingDir ↔
    ∀ (Dir : Type) (tree : FileTree Dir) (home place : Dir), tree.enters? home workingDir = some place →
      ∀ stream, IsFound tree home place id workingDir stream :=
  ⟨fun comes _ _ _ _ entered stream => comes.isFound entered stream, fun found =>
    comesBack_of_isFound fun place entered => found Nat measured 0 place entered .output⟩

end Found

end Job

end Dispatch
