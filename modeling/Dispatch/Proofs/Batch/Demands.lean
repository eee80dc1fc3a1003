import Dispatch.Proofs.Batch.CommandWords
import Dispatch.Proofs.Text.Numeral
import Mathlib.Data.List.Forall2
/-!
What a submission command tells of the resources that a job asks for. A command is read back, word by word, up
to what its scheduler is told at all: Slurm is told of everything, PBS of processors only together with a count
of nodes, and SGE of neither nodes nor processors.
-/
namespace Dispatch

/-- What a job asks of a scheduler, whatever it asks of the backend beyond. Counts of zero or less ask for nothing. -/
structure Demand where
  name : Option String
  queue : Option String
  nodes : Option UInt32
  cpus : Option Int32
  memory : Option Int32
  wallTime : Option UInt64
  outputPath : Option String
  errorPath : Option String
  deriving DecidableEq, Repr

namespace Demand

/-- A count that asks for something. -/
def count? (count : Int32) : Option Int32 := if 0 < count then some count else none

end Demand

def Job.Options.demand (options : Job.Options) : Demand where
  name := options.name
  queue := options.queue
  nodes := options.nodes
  cpus := Demand.count? options.cpus
  memory := Demand.count? options.memory
  wallTime := options.wallTime
  outputPath := options.outputPath
  errorPath := options.errorPath

namespace Batch.Scheduler

/-- The part of a demand that a scheduler is told of. -/
def heard (scheduler : Scheduler) (demand : Demand) : Demand :=
  match scheduler with
  | slurm => demand
  | pbs => { demand with cpus := demand.nodes.bind fun _ => demand.cpus }
  | sge => { demand with nodes := none, cpus := none }

/-! ### Texts of values -/

theorem positive?_eq (count : Int32) : positive? count = (Demand.count? count).map toString := by
  unfold positive? Demand.count?
  split
  next => rfl
  next => rfl

theorem count?_eq_of_positive? {first second : Int32} (same : positive? first = positive? second) :
    Demand.count? first = Demand.count? second := by
  rw [positive?_eq, positive?_eq] at same
  exact Option.map_injective Text.toString_int32_injective same

/-- A count is read back from the word that it makes with a name and a unit. -/
theorem count?_eq_of_words {first second : Int32} (name unit : String)
    (same : (positive? first).map (fun text => name ++ text ++ unit) =
      (positive? second).map (fun text => name ++ text ++ unit)) :
    Demand.count? first = Demand.count? second := by
  refine count?_eq_of_positive? (Option.map_injective (fun _ _ words => ?_) same)
  exact String.append_right_inj name |>.mp (String.append_left_inj unit |>.mp words)

theorem colon_not_mem_padded (width number : Nat) : ':' ∉ Text.padded width number :=
  fun member => absurd (Text.isDigit_of_mem_padded member) (by decide)

theorem fields_clockText (seconds : Nat) :
    Text.fields ':' (clockText seconds).toList =
      [Text.padded 2 (seconds / 3600), Text.padded 2 (seconds % 3600 / 60), Text.padded 2 (seconds % 60)] := by
  rw [clockText, String.toList_ofList, List.append_assoc, List.cons_append,
    Text.fields_append (colon_not_mem_padded _ _), Text.fields_append (colon_not_mem_padded _ _),
    Text.fields_of_absent (colon_not_mem_padded _ _)]

theorem clockText_injective : Function.Injective clockText := by
  intro first second same
  have parts := fields_clockText first
  rw [same, fields_clockText] at parts
  simp only [List.cons.injEq, and_true] at parts
  obtain ⟨hours, minutes, seconds⟩ := parts
  have sameHours := Text.padded_injective 2 hours
  have sameMinutes := Text.padded_injective 2 minutes
  have sameSeconds := Text.padded_injective 2 seconds
  omega

theorem wallTime_eq_of_clock? {first second : Option UInt64} (same : clock? first = clock? second) :
    first = second :=
  Option.map_injective (fun _ _ texts => UInt64.toNat_inj.mp (clockText_injective texts)) same

theorem wallTime_eq_of_words {first second : Option UInt64} (name : String)
    (same : (clock? first).map (name ++ ·) = (clock? second).map (name ++ ·)) : first = second :=
  wallTime_eq_of_clock? (Option.map_injective (fun _ _ words => (String.append_right_inj name).mp words) same)

/-- The count of nodes stands before the first colon. -/
theorem head?_fields_pbsNodes (cpus : Int32) (nodes : UInt32) :
    (Text.fields ':' (pbsNodes cpus nodes).toList).head? = some ("nodes=" ++ toString nodes).toList := by
  have digits : ':' ∉ (toString nodes).toList := by
    rw [Text.toList_toString_uint32]
    exact fun member => absurd (Text.isDigit_of_mem_toDigits member) (by decide)
  have absent : ':' ∉ ("nodes=" ++ toString nodes).toList := by simpa using digits
  rw [pbsNodes]
  cases positive? cpus with
  | none => rw [Option.map_none, Option.getD_none, String.append_empty, Text.fields_of_absent absent, List.head?_cons]
  | some text =>
    have parts : ("nodes=" ++ toString nodes ++ (":ppn=" ++ text)).toList =
        ("nodes=" ++ toString nodes).toList ++ ':' :: ("ppn=" ++ text).toList := by simp
    rw [Option.map_some, Option.getD_some, parts, Text.fields_append absent, List.head?_cons]

theorem pbsNodes_inj {first second : UInt32} {cpus moreCpus : Int32} :
    pbsNodes cpus first = pbsNodes moreCpus second ↔
      first = second ∧ Demand.count? cpus = Demand.count? moreCpus := by
  constructor
  · intro same
    have fronts := head?_fields_pbsNodes cpus first
    rw [same, head?_fields_pbsNodes] at fronts
    have nodes : second = first := Text.toString_uint32_injective
      ((String.append_right_inj "nodes=").mp (String.toList_inj.mp (Option.some.inj fronts)))
    subst nodes
    have tails := (String.append_right_inj _).mp same
    refine ⟨rfl, count?_eq_of_positive? ?_⟩
    cases found : positive? cpus with
    | none =>
      cases also : positive? moreCpus with
      | none => rfl
      | some text => simp [found, also] at tails
    | some text =>
      cases also : positive? moreCpus with
      | none => simp [found, also] at tails
      | some more => simpa [found, also] using tails
  · rintro ⟨rfl, cpus⟩
    rw [pbsNodes, pbsNodes, positive?_eq, positive?_eq, cpus]

/-! ### Places in a command -/

/-- Where a value stands in a command: after its flag, if it has one, and in a word that begins in one way. -/
structure Place where
  flag : Option String
  lead : String
  deriving DecidableEq, Repr

namespace Place

/-- The words that a value makes. -/
def spell (place : Place) (value : Option String) : List String :=
  (value.map fun text => place.flag.toList ++ [text]).getD []

/-- Words in one text, with the end of each marked. -/
def joined (words : List String) : List Char := words.flatMap fun word => word.toList ++ ['\n']

/-- How the words of every value begin. -/
def opening (place : Place) : List Char := joined place.flag.toList ++ place.lead.toList

/-- No words begin as those of both places do. -/
def Apart (first second : Place) : Prop :=
  ¬ first.opening <+: second.opening ∧ ¬ second.opening <+: first.opening

instance (first second : Place) : Decidable (Apart first second) := inferInstanceAs (Decidable (_ ∧ _))

/-- The value begins as values do at this place. -/
def Fits (place : Place) (value : Option String) : Prop := ∀ text ∈ value, place.lead.toList <+: text.toList

theorem isPrefix_opening {place : Place} {text : String} (fits : place.lead.toList <+: text.toList)
    (rest : List String) : place.opening <+: joined (place.flag.toList ++ text :: rest) := by
  obtain ⟨more, shape⟩ := fits
  refine ⟨more ++ '\n' :: joined rest, ?_⟩
  simp [opening, joined, ← shape]

/-- Words that open two places open the same one. -/
theorem not_apart_of_words {first second : Place} {text other : String} {rest more : List String}
    (fits : first.lead.toList <+: text.toList) (otherFits : second.lead.toList <+: other.toList)
    (same : first.flag.toList ++ text :: rest = second.flag.toList ++ other :: more) : ¬ Apart first second := by
  rintro ⟨forward, backward⟩
  have front := isPrefix_opening fits rest
  rw [same] at front
  rcases List.prefix_or_prefix_of_prefix front (isPrefix_opening otherFits more) with shorter | longer
  · exact forward shorter
  · exact backward longer

/-- The words of a value at each place. -/
def spellAll : List Place → List (Option String) → List String
  | place :: places, value :: values => place.spell value ++ spellAll places values
  | _, _ => []

theorem spell_some (place : Place) (text : String) (rest : List String) :
    place.spell (some text) ++ rest = place.flag.toList ++ text :: rest := by
  simp [spell]

variable {places : List Place} {values others : List (Option String)}

/-- A value at one place is not taken for what stands at other places. -/
theorem spell_ne_spellAll {place : Place} {text : String} {rest : List String}
    (fits : place.lead.toList <+: text.toList) (apart : ∀ other ∈ places, place.Apart other)
    (othersFit : List.Forall₂ Fits places others) : place.spell (some text) ++ rest ≠ spellAll places others := by
  induction othersFit with
  | nil => simp [spell, spellAll]
  | @cons next value places others valueFits _ ih =>
    rw [List.forall_mem_cons] at apart
    cases value with
    | none => exact ih apart.2
    | some other =>
      rw [spellAll, spell_some, spell_some]
      exact fun same => not_apart_of_words fits (valueFits other rfl) same apart.1

/-- Values at places apart from each other are told by their words. -/
theorem eq_of_spellAll_eq (apart : places.Pairwise Apart) (fits : List.Forall₂ Fits places values)
    (othersFit : List.Forall₂ Fits places others) (same : spellAll places values = spellAll places others) :
    values = others := by
  induction fits generalizing others with
  | nil =>
    cases othersFit
    rfl
  | @cons place value places values valueFits restFits ih =>
    obtain ⟨apartFirst, apartRest⟩ := List.pairwise_cons.mp apart
    cases othersFit with
    | @cons _ other _ others otherFits restOthersFit =>
      cases value with
      | none =>
        cases other with
        | none => rw [ih apartRest restOthersFit same]
        | some text =>
          have later : place.spell (some text) ++ spellAll places others = spellAll places values := same.symm
          exact absurd later (spell_ne_spellAll (otherFits text rfl) apartFirst restFits)
      | some text =>
        cases other with
        | none =>
          have later : place.spell (some text) ++ spellAll places values = spellAll places others := same
          exact absurd later (spell_ne_spellAll (valueFits text rfl) apartFirst restOthersFit)
        | some other =>
          rw [spellAll, spellAll, spell_some, spell_some, List.append_cancel_left_eq, List.cons.injEq] at same
          rw [same.1, ih apartRest restOthersFit same.2]

end Place

/-! ### Commands -/

/-- The words that a submission command begins with. -/
def program : Scheduler → List String
  | slurm => ["sbatch", "--parsable"]
  | pbs => ["qsub"]
  | sge => ["qsub", "-terse", "-cwd"]

def places : Scheduler → List Place
  | slurm =>
    [⟨"-J", ""⟩, ⟨"-p", ""⟩, ⟨"-N", ""⟩, ⟨"-c", ""⟩, ⟨none, "--mem="⟩, ⟨"-t", ""⟩, ⟨"-o", ""⟩, ⟨"-e", ""⟩]
  | pbs =>
    [⟨"-N", ""⟩, ⟨"-q", ""⟩, ⟨"-l", "nodes="⟩, ⟨"-l", "mem="⟩, ⟨"-l", "walltime="⟩, ⟨"-o", ""⟩, ⟨"-e", ""⟩]
  | sge =>
    [⟨"-N", ""⟩, ⟨"-q", ""⟩, ⟨"-l", "h_rt="⟩, ⟨"-l", "h_vmem="⟩, ⟨"-o", ""⟩, ⟨"-e", ""⟩]

/-- What stands at the places. -/
def values (scheduler : Scheduler) (options : Job.Options) : List (Option String) :=
  match scheduler with
  | slurm =>
    [options.name, options.queue, options.nodes.map toString, positive? options.cpus,
      (positive? options.memory).map fun count => "--mem=" ++ count ++ "M", clock? options.wallTime,
      options.outputPath, options.errorPath]
  | pbs =>
    [options.name, options.queue, options.nodes.map (pbsNodes options.cpus),
      (positive? options.memory).map fun count => "mem=" ++ count ++ "mb",
      (clock? options.wallTime).map ("walltime=" ++ ·), options.outputPath, options.errorPath]
  | sge =>
    [options.name, options.queue, (clock? options.wallTime).map ("h_rt=" ++ ·),
      (positive? options.memory).map fun count => "h_vmem=" ++ count ++ "M", options.outputPath, options.errorPath]

theorem places_apart (scheduler : Scheduler) : scheduler.places.Pairwise Place.Apart := by
  cases scheduler with
  | slurm => decide
  | pbs => decide
  | sge => decide

theorem spell_bare (lead : String) (value : Option String) : Place.spell ⟨none, lead⟩ value = value.toList := by
  cases value with
  | none => rfl
  | some text => rfl

theorem submitWords_eq (scheduler : Scheduler) (options : Job.Options) :
    scheduler.submitWords options =
      scheduler.program ++ Place.spellAll scheduler.places (scheduler.values options) := by
  have spell_flagged (flag lead : String) (value : Option String) :
      Place.spell ⟨some flag, lead⟩ value = flagged flag value := rfl
  cases scheduler with
  | slurm =>
    simp only [submitWords, program, places, values, Place.spellAll, spell_flagged, spell_bare, List.append_assoc,
      List.append_nil]
  | pbs =>
    simp only [submitWords, program, places, values, Place.spellAll, spell_flagged, List.append_assoc, List.append_nil]
  | sge =>
    simp only [submitWords, program, places, values, Place.spellAll, spell_flagged, List.append_assoc, List.append_nil]

theorem fits_any (flag : Option String) (value : Option String) : Place.Fits ⟨flag, ""⟩ value :=
  fun _ _ => List.nil_prefix

theorem fits_map {α : Type} {flag : Option String} {lead : String} {write : α → String}
    (leads : ∀ value, lead.toList <+: (write value).toList) (value : Option α) :
    Place.Fits ⟨flag, lead⟩ (value.map write) := by
  intro text member
  obtain ⟨value, _, rfl⟩ := Option.map_eq_some_iff.mp member
  exact leads value

theorem isPrefix_lead (lead rest : String) : lead.toList <+: (lead ++ rest).toList := by
  rw [String.toList_append]
  exact List.prefix_append _ _

theorem isPrefix_lead_unit (lead text unit : String) : lead.toList <+: (lead ++ text ++ unit).toList := by
  rw [String.append_assoc]
  exact isPrefix_lead _ _

theorem isPrefix_lead_pbsNodes (cpus : Int32) (nodes : UInt32) : "nodes=".toList <+: (pbsNodes cpus nodes).toList :=
  isPrefix_lead_unit _ _ _

theorem values_fit (scheduler : Scheduler) (options : Job.Options) :
    List.Forall₂ Place.Fits scheduler.places (scheduler.values options) := by
  cases scheduler with
  | slurm =>
    simp only [places, values, List.forall₂_cons, List.Forall₂.nil, and_true, fits_any, true_and]
    exact fits_map (isPrefix_lead_unit _ · _) _
  | pbs =>
    simp only [places, values, List.forall₂_cons, List.Forall₂.nil, and_true, fits_any, true_and]
    exact ⟨fits_map (isPrefix_lead_pbsNodes _) _, fits_map (isPrefix_lead_unit _ · _) _, fits_map (isPrefix_lead _) _⟩
  | sge =>
    simp only [places, values, List.forall₂_cons, List.Forall₂.nil, and_true, fits_any, true_and]
    exact ⟨fits_map (isPrefix_lead _) _, fits_map (isPrefix_lead_unit _ · _) _⟩

/-- Two commands for one script are the same only if all values at their places are. -/
theorem values_eq_of_submitCommand_eq {scheduler : Scheduler} {script : String} {first second : Job.Options}
    (same : scheduler.submitCommand script first = scheduler.submitCommand script second) :
    scheduler.values first = scheduler.values second := by
  have words := split_submitCommand scheduler script first
  rw [same, split_submitCommand, Option.some.injEq] at words
  have texts : Function.Injective fun word : String => Shell.Token.word word.toList := by
    intro word other tokens
    exact String.toList_inj.mp (Shell.Token.word.inj tokens)
  have spelt := List.append_cancel_right (List.map_injective_iff.mpr texts words)
  rw [submitWords_eq, submitWords_eq] at spelt
  exact (Place.eq_of_spellAll_eq scheduler.places_apart (values_fit scheduler second) (values_fit scheduler first)
    (List.append_cancel_left spelt)).symm

theorem heard_eq_of_values_eq {scheduler : Scheduler} {first second : Job.Options}
    (same : scheduler.values first = scheduler.values second) :
    scheduler.heard first.demand = scheduler.heard second.demand := by
  cases scheduler with
  | slurm =>
    simp only [values, List.cons.injEq, and_true] at same
    obtain ⟨name, queue, nodes, cpus, memory, wallTime, output, error⟩ := same
    rw [heard, heard, Job.Options.demand, Job.Options.demand, Demand.mk.injEq]
    exact ⟨name, queue, Option.map_injective Text.toString_uint32_injective nodes, count?_eq_of_positive? cpus,
      count?_eq_of_words _ _ memory, wallTime_eq_of_clock? wallTime, output, error⟩
  | pbs =>
    simp only [values, List.cons.injEq, and_true] at same
    obtain ⟨name, queue, placed, memory, wallTime, output, error⟩ := same
    have asked : first.nodes = second.nodes ∧
        (first.nodes.bind fun _ => Demand.count? first.cpus) =
          second.nodes.bind fun _ => Demand.count? second.cpus := by
      cases nodes : first.nodes with
      | none =>
        rw [nodes, Option.map_none] at placed
        rw [Option.map_eq_none_iff.mp placed.symm, Option.bind_none, Option.bind_none]
        exact ⟨rfl, rfl⟩
      | some count =>
        rw [nodes, Option.map_some] at placed
        obtain ⟨other, also, text⟩ := Option.map_eq_some_iff.mp placed.symm
        obtain ⟨rfl, cpus⟩ := pbsNodes_inj.mp text
        rw [also]
        exact ⟨rfl, cpus.symm⟩
    rw [heard, heard, Job.Options.demand, Job.Options.demand, Demand.mk.injEq]
    exact ⟨name, queue, asked.1, asked.2, count?_eq_of_words _ _ memory, wallTime_eq_of_words _ wallTime, output,
      error⟩
  | sge =>
    simp only [values, List.cons.injEq, and_true] at same
    obtain ⟨name, queue, wallTime, memory, output, error⟩ := same
    rw [heard, heard, Job.Options.demand, Job.Options.demand, Demand.mk.injEq]
    exact ⟨name, queue, rfl, rfl, count?_eq_of_words _ _ memory, wallTime_eq_of_words _ wallTime, output, error⟩

/-- A scheduler that is told the same is sent the same command. -/
theorem submitPieces_congr {scheduler : Scheduler} {first second : Job.Options}
    (same : scheduler.heard first.demand = scheduler.heard second.demand) :
    scheduler.submitPieces first = scheduler.submitPieces second := by
  cases scheduler with
  | slurm =>
    simp only [heard, Job.Options.demand, Demand.mk.injEq] at same
    obtain ⟨name, queue, nodes, cpus, memory, wallTime, output, error⟩ := same
    simp only [submitPieces, countOption_eq, positive?_eq, name, queue, nodes, cpus, memory, wallTime, output, error]
  | pbs =>
    simp only [heard, Job.Options.demand, Demand.mk.injEq] at same
    obtain ⟨name, queue, nodes, cpus, memory, wallTime, output, error⟩ := same
    have placed : nodesOption first.nodes first.cpus = nodesOption second.nodes second.cpus := by
      rw [nodes] at cpus ⊢
      cases known : second.nodes with
      | none => rfl
      | some count =>
        rw [known] at cpus
        have words : pbsNodes first.cpus count = pbsNodes second.cpus count := pbsNodes_inj.mpr ⟨rfl, cpus⟩
        rw [nodesOption_eq, nodesOption_eq, Option.map_some, words]
        rfl
    simp only [submitPieces, placed, countOption_eq, positive?_eq, name, queue, memory, wallTime, output, error]
  | sge =>
    simp only [heard, Job.Options.demand, Demand.mk.injEq] at same
    obtain ⟨name, queue, -, -, memory, wallTime, output, error⟩ := same
    simp only [submitPieces, countOption_eq, positive?_eq, name, queue, memory, wallTime, output, error]

/-- Two commands for one script differ exactly if the demands differ in what the scheduler is told of. -/
theorem lines_tell_demands (scheduler : Scheduler) (script : String) (first second : Job.Options) :
    scheduler.submitCommand script first = scheduler.submitCommand script second ↔
      scheduler.heard first.demand = scheduler.heard second.demand := by
  constructor
  · exact fun same => heard_eq_of_values_eq (values_eq_of_submitCommand_eq same)
  · intro same
    rw [submitCommand, submitCommand, submitPieces_congr same]

/-- Processors without nodes are not passed on to PBS, and neither of the two to SGE. -/
theorem demands_dropped :
    (({ cpus := 8 } : Job.Options).demand ≠ ({} : Job.Options).demand ∧
      pbs.submitCommand "/job.sh" { cpus := 8 } = pbs.submitCommand "/job.sh" {}) ∧
      (({ nodes := some 4, cpus := 8 } : Job.Options).demand ≠ ({} : Job.Options).demand ∧
        sge.submitCommand "/job.sh" { nodes := some 4, cpus := 8 } = sge.submitCommand "/job.sh" {}) :=
  ⟨⟨by decide, rfl⟩, by decide, rfl⟩

end Batch.Scheduler

end Dispatch
