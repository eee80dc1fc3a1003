import Dispatch.Batch.Scheduler
import Dispatch.Proofs.Shell.Quoting
/-!
The words of the commands that submit a job. A submission command is read by the shell as its fixed words, a
flag and a value for every option that is given, and the script; none of the values is ever read as more or
less than one word.
-/
namespace Dispatch.Batch.Scheduler
open Shell

/-- A flag and its value, if there is one. -/
def flagged (flag : String) (value : Option String) : List String :=
  (value.map fun text => [flag, text]).getD []

/-- A count in digits; counts of zero or less are left to the scheduler. -/
def positive? (count : Int32) : Option String := if 0 < count then some (toString count) else none

def clock? (seconds : Option UInt64) : Option String := seconds.map fun seconds => clockText seconds.toNat

/-- The nodes that PBS is asked for, with the processors of each. -/
def pbsNodes (cpus : Int32) (nodes : UInt32) : String :=
  "nodes=" ++ toString nodes ++ ((positive? cpus).map (":ppn=" ++ ·)).getD ""

/-- The words of the submission command up to the script. -/
def submitWords (scheduler : Scheduler) (options : Job.Options) : List String :=
  match scheduler with
  | slurm =>
    ["sbatch", "--parsable"] ++ flagged "-J" options.name ++ flagged "-p" options.queue ++
      flagged "-N" (options.nodes.map toString) ++ flagged "-c" (positive? options.cpus) ++
      ((positive? options.memory).map fun count => "--mem=" ++ count ++ "M").toList ++
      flagged "-t" (clock? options.wallTime) ++ flagged "-o" options.outputPath ++
      flagged "-e" options.errorPath
  | pbs =>
    ["qsub"] ++ flagged "-N" options.name ++ flagged "-q" options.queue ++
      flagged "-l" (options.nodes.map (pbsNodes options.cpus)) ++
      flagged "-l" ((positive? options.memory).map fun count => "mem=" ++ count ++ "mb") ++
      flagged "-l" ((clock? options.wallTime).map ("walltime=" ++ ·)) ++ flagged "-o" options.outputPath ++
      flagged "-e" options.errorPath
  | sge =>
    ["qsub", "-terse", "-cwd"] ++ flagged "-N" options.name ++ flagged "-q" options.queue ++
      flagged "-l" ((clock? options.wallTime).map ("h_rt=" ++ ·)) ++
      flagged "-l" ((positive? options.memory).map fun count => "h_vmem=" ++ count ++ "M") ++
      flagged "-o" options.outputPath ++ flagged "-e" options.errorPath

/-- Words that stand for themselves. -/
def tokens (words : List String) : List Token := words.map fun word => .word word.toList

/-- A word that needs no quotes. -/
def IsPlain (text : String) : Prop := text.toList ≠ [] ∧ ∀ c ∈ text.toList, isPlain c = true

instance (text : String) : Decidable (IsPlain text) :=
  decidable_of_iff (text.toList ≠ [] ∧ text.toList.all isPlain = true) (by rw [List.all_eq_true, IsPlain])

/-- Pieces with a blank after each are read as these words. -/
def ReadAs (pieces words : List String) : Prop :=
  Scan.between.run (pieces.flatMap fun piece => piece.toList ++ [' ']) = (.between, tokens words)

theorem isPlain_of_isDigit {c : Char} (digit : c.isDigit = true) : Shell.isPlain c = true := by
  have apart : ∀ other : Char, other.isDigit = false → c ≠ other := by
    rintro other letter rfl
    rw [digit] at letter
    cases letter
  simp [isPlain, endsWord, isSeparator, isOperator, isExpanded, isSubstituted, apart]

theorem IsPlain.append {front back : String} (first : IsPlain front) (second : IsPlain back) :
    IsPlain (front ++ back) := by
  refine ⟨by simp [first.1], fun c member => ?_⟩
  rcases List.mem_append.mp (String.toList_append ▸ member) with before | after
  · exact first.2 c before
  · exact second.2 c after

theorem IsPlain.prepend {front back : String} (plain : IsPlain back) (simple : front = "" ∨ IsPlain front) :
    IsPlain (front ++ back) := by
  rcases simple with rfl | simple
  · simpa using plain
  · exact simple.append plain

theorem IsPlain.extend {front back : String} (plain : IsPlain front) (simple : back = "" ∨ IsPlain back) :
    IsPlain (front ++ back) := by
  rcases simple with rfl | simple
  · simpa using plain
  · exact plain.append simple

theorem isPlain_number (number : Nat) : IsPlain (toString number) := by
  rw [IsPlain, Nat.toString_eq_repr, Nat.toList_repr]
  exact ⟨Nat.toDigits_ne_nil, fun c member =>
    isPlain_of_isDigit (Nat.isDigit_of_mem_toDigits (by decide) (by decide) member)⟩

theorem isPlain_of_positive {count : Int32} {text : String} (positive : positive? count = some text) :
    IsPlain text := by
  unfold positive? at positive
  split at positive
  next above =>
    have natural : 0 ≤ count.toInt := Int.le_of_lt (Int32.lt_iff_toInt_lt.mp above)
    have same : toString count = toString count.toInt.toNat := by
      have digits : toString count = toString count.toInt := rfl
      rw [digits, ← Int.toNat_of_nonneg natural]
      rfl
    rw [← Option.some.inj positive, same]
    exact isPlain_number _
  next => simp at positive

theorem isPlain_of_mem_padded {width number : Nat} {c : Char} (member : c ∈ Text.padded width number) :
    isPlain c = true := by
  rcases List.mem_append.mp member with zero | digit
  · rw [List.eq_of_mem_replicate zero]
    rfl
  · exact isPlain_of_isDigit (Nat.isDigit_of_mem_toDigits (by decide) (by decide) digit)

theorem isPlain_clockText (seconds : Nat) : IsPlain (clockText seconds) := by
  rw [IsPlain, clockText, String.toList_ofList]
  refine ⟨by simp, fun c member => ?_⟩
  simp only [List.mem_append, List.mem_cons, or_assoc] at member
  rcases member with hours | rfl | minutes | rfl | rest
  · exact isPlain_of_mem_padded hours
  · rfl
  · exact isPlain_of_mem_padded minutes
  · rfl
  · exact isPlain_of_mem_padded rest

theorem readAs_nil : ReadAs [] [] := rfl

theorem ReadAs.append {pieces morePieces words moreWords : List String} (first : ReadAs pieces words)
    (second : ReadAs morePieces moreWords) : ReadAs (pieces ++ morePieces) (words ++ moreWords) := by
  rw [ReadAs] at first second ⊢
  rw [List.flatMap_append, Scan.run_append, first, second, tokens, tokens, tokens, List.map_append]

theorem readAs_of_spells {piece : String} {words : List String} (spelt : Spells piece.toList (tokens words)) :
    ReadAs [piece] words := by
  rw [ReadAs, List.flatMap_cons, List.flatMap_nil, List.append_nil]
  exact spelt

/-- A flag with a value after it. -/
theorem readAs_flag {flag value text : String} (plain : IsPlain flag)
    (spelt : Spells text.toList [.word value.toList]) : ReadAs [flag ++ " " ++ text] [flag, value] := by
  apply readAs_of_spells
  have read := (spells_plain flag.toList plain.1 plain.2).append spelt
  simpa [tokens] using read

theorem IsPlain.spells {text : String} (plain : IsPlain text) : Spells text.toList [.word text.toList] :=
  spells_plain text.toList plain.1 plain.2

theorem readAs_quotedOption {flag : String} (plain : IsPlain flag) (value : Option String) :
    ReadAs (quotedOption flag value) (flagged flag value) := by
  cases value with
  | none => exact readAs_nil
  | some text => exact readAs_flag plain (spells_quote text)

/-- A flag with a value that needs no quotes. -/
theorem readAs_flagged {flag : String} (plain : IsPlain flag) {value : Option String}
    (simple : ∀ text ∈ value, IsPlain text) :
    ReadAs (value.map (flag ++ " " ++ ·)).toList (flagged flag value) := by
  cases value with
  | none => exact readAs_nil
  | some text => exact readAs_flag plain (simple text rfl).spells

theorem countOption_eq (flag : String) (count : Int32) (unit : String) :
    countOption flag count unit = ((positive? count).map fun text => flag ++ text ++ unit).toList := by
  unfold countOption positive?
  split
  next => rfl
  next => rfl

/-- A count with a name in front and a unit behind, after a flag of its own. -/
theorem readAs_countOption (flag name unit : String) (plainFlag : IsPlain flag)
    (plainName : name = "" ∨ IsPlain name) (plainUnit : unit = "" ∨ IsPlain unit) (count : Int32) :
    ReadAs (countOption (flag ++ " " ++ name) count unit)
      (flagged flag ((positive? count).map fun text => name ++ text ++ unit)) := by
  have pieces : countOption (flag ++ " " ++ name) count unit =
      (((positive? count).map fun text => name ++ text ++ unit).map (flag ++ " " ++ ·)).toList := by
    rw [countOption_eq, Option.map_map]
    simp only [Function.comp_def, String.append_assoc]
  rw [pieces]
  refine readAs_flagged plainFlag fun text member => ?_
  obtain ⟨digits, found, rfl⟩ := Option.map_eq_some_iff.mp member
  exact ((isPlain_of_positive found).prepend plainName).extend plainUnit

/-- A count that makes one word with its flag and its unit. -/
theorem readAs_countWord (flag unit : String) (plainFlag : IsPlain flag) (plainUnit : IsPlain unit)
    (count : Int32) : ReadAs (countOption flag count unit)
      ((positive? count).map fun text => flag ++ text ++ unit).toList := by
  rw [countOption_eq]
  cases found : positive? count with
  | none => exact readAs_nil
  | some text =>
    exact readAs_of_spells ((plainFlag.append (isPlain_of_positive found)).append plainUnit).spells

theorem readAs_clockOption (flag name : String) (plainFlag : IsPlain flag)
    (plainName : name = "" ∨ IsPlain name) (seconds : Option UInt64) :
    ReadAs (clockOption (flag ++ " " ++ name) seconds) (flagged flag ((clock? seconds).map (name ++ ·))) := by
  have pieces : clockOption (flag ++ " " ++ name) seconds =
      (((clock? seconds).map (name ++ ·)).map (flag ++ " " ++ ·)).toList := by
    cases seconds with
    | none => rfl
    | some count => simp [clockOption, clock?, String.append_assoc, toString]
  rw [pieces]
  refine readAs_flagged plainFlag fun text member => ?_
  obtain ⟨digits, found, rfl⟩ := Option.map_eq_some_iff.mp member
  obtain ⟨count, _, rfl⟩ := Option.map_eq_some_iff.mp found
  exact (isPlain_clockText count.toNat).prepend plainName

theorem isPlain_pbsNodes (cpus : Int32) (nodes : UInt32) : IsPlain (pbsNodes cpus nodes) := by
  have counted : IsPlain ("nodes=" ++ toString nodes) := IsPlain.append (by decide) (isPlain_number nodes.toNat)
  rw [pbsNodes]
  cases found : positive? cpus with
  | none => simpa using counted
  | some text => exact counted.append (IsPlain.append (by decide) (isPlain_of_positive found))

theorem nodesOption_eq (nodes : Option UInt32) (cpus : Int32) :
    nodesOption nodes cpus = ((nodes.map (pbsNodes cpus)).map ("-l" ++ " " ++ ·)).toList := by
  cases nodes with
  | none => rfl
  | some count =>
    by_cases above : 0 < cpus
    · simp [nodesOption, pbsNodes, positive?, above, toString, ← String.append_assoc]
    · simp [nodesOption, pbsNodes, positive?, above, toString, ← String.append_assoc]

theorem readAs_nodesOption (nodes : Option UInt32) (cpus : Int32) :
    ReadAs (nodesOption nodes cpus) (flagged "-l" (nodes.map (pbsNodes cpus))) := by
  rw [nodesOption_eq]
  refine readAs_flagged (by decide) fun text member => ?_
  obtain ⟨count, _, rfl⟩ := Option.map_eq_some_iff.mp member
  exact isPlain_pbsNodes cpus count

theorem intercalate_blank (pieces : List String) (last : String) :
    (" ".intercalate (pieces ++ [last])).toList =
      (pieces.flatMap fun piece => piece.toList ++ [' ']) ++ last.toList := by
  induction pieces with
  | nil => simp
  | cons piece rest ih =>
    rw [List.cons_append, String.intercalate_cons_of_ne_nil (by simp)]
    simp [ih]

theorem readAs_words (flag text : String) (plainFlag : IsPlain flag) (plainText : IsPlain text) :
    ReadAs [flag ++ " " ++ text] [flag, text] := readAs_flag plainFlag plainText.spells

/-- The submission command up to the script is read as its words. -/
theorem readAs_submitPieces (scheduler : Scheduler) (options : Job.Options) :
    ReadAs (scheduler.submitPieces options) (scheduler.submitWords options) := by
  have quoted (flag : String) (plain : IsPlain flag) (value : Option String) :
      ReadAs (quotedOption flag value) (flagged flag value) := readAs_quotedOption plain value
  cases scheduler with
  | slurm =>
    have program : ReadAs ["sbatch --parsable"] ["sbatch", "--parsable"] := by
      simpa using readAs_words "sbatch" "--parsable" (by decide) (by decide)
    have nodes : ReadAs (options.nodes.map fun nodes => s!"-N {nodes}").toList
        (flagged "-N" (options.nodes.map toString)) := by
      cases options.nodes with
      | none => exact readAs_nil
      | some count => exact readAs_words "-N" (toString count) (by decide) (isPlain_number count.toNat)
    have cpus : ReadAs (countOption "-c " options.cpus "") (flagged "-c" (positive? options.cpus)) := by
      simpa using readAs_countOption "-c" "" "" (by decide) (.inl rfl) (.inl rfl) options.cpus
    have memory := readAs_countWord "--mem=" "M" (by decide) (by decide) options.memory
    have time : ReadAs (clockOption "-t " options.wallTime) (flagged "-t" (clock? options.wallTime)) := by
      simpa using readAs_clockOption "-t" "" (by decide) (.inl rfl) options.wallTime
    exact (((((((program.append (quoted "-J" (by decide) options.name)).append
      (quoted "-p" (by decide) options.queue)).append nodes).append cpus).append memory).append time).append
      (quoted "-o" (by decide) options.outputPath)).append (quoted "-e" (by decide) options.errorPath)
  | pbs =>
    have program : ReadAs ["qsub"] ["qsub"] := readAs_of_spells (IsPlain.spells (by decide))
    have nodes := readAs_nodesOption options.nodes options.cpus
    have memory : ReadAs (countOption "-l mem=" options.memory "mb")
        (flagged "-l" ((positive? options.memory).map fun count => "mem=" ++ count ++ "mb")) := by
      simpa using readAs_countOption "-l" "mem=" "mb" (by decide) (.inr (by decide)) (.inr (by decide))
        options.memory
    have time : ReadAs (clockOption "-l walltime=" options.wallTime)
        (flagged "-l" ((clock? options.wallTime).map ("walltime=" ++ ·))) := by
      simpa using readAs_clockOption "-l" "walltime=" (by decide) (.inr (by decide)) options.wallTime
    exact ((((((program.append (quoted "-N" (by decide) options.name)).append
      (quoted "-q" (by decide) options.queue)).append nodes).append memory).append time).append
      (quoted "-o" (by decide) options.outputPath)).append (quoted "-e" (by decide) options.errorPath)
  | sge =>
    have program : ReadAs ["qsub -terse -cwd"] ["qsub", "-terse", "-cwd"] := rfl
    have time : ReadAs (clockOption "-l h_rt=" options.wallTime)
        (flagged "-l" ((clock? options.wallTime).map ("h_rt=" ++ ·))) := by
      simpa using readAs_clockOption "-l" "h_rt=" (by decide) (.inr (by decide)) options.wallTime
    have memory : ReadAs (countOption "-l h_vmem=" options.memory "M")
        (flagged "-l" ((positive? options.memory).map fun count => "h_vmem=" ++ count ++ "M")) := by
      simpa using readAs_countOption "-l" "h_vmem=" "M" (by decide) (.inr (by decide)) (.inr (by decide))
        options.memory
    exact (((((program.append (quoted "-N" (by decide) options.name)).append
      (quoted "-q" (by decide) options.queue)).append time).append memory).append
      (quoted "-o" (by decide) options.outputPath)).append (quoted "-e" (by decide) options.errorPath)

theorem spells_submitCommand (scheduler : Scheduler) (script : String) (options : Job.Options) :
    Spells (scheduler.submitCommand script options).toList (tokens (scheduler.submitWords options ++ [script])) := by
  have pieces : ReadAs (scheduler.submitPieces options) (scheduler.submitWords options) :=
    readAs_submitPieces scheduler options
  have last : Spells (quote script).toList [.word script.toList] := spells_quote script
  rw [ReadAs] at pieces
  rw [Spells] at last ⊢
  rw [submitCommand, intercalate_blank, List.append_assoc, Scan.run_append, pieces, last]
  simp [tokens]

theorem split_submitCommand (scheduler : Scheduler) (script : String) (options : Job.Options) :
    split (scheduler.submitCommand script options) =
      some (tokens (scheduler.submitWords options ++ [script])) :=
  split_of_spells (spells_submitCommand scheduler script options)

end Dispatch.Batch.Scheduler
