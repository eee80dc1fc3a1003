import Dispatch.Proofs.Batch.Status
import Dispatch.Proofs.Text.Numeral
import Mathlib.Data.List.TakeWhile
/-!
What a scheduler prints for a job that it has taken, and which outputs are read as such. The number of the job is read up
to the first separator, and nothing is asked of the text behind it. So every line of the documented form is read, and
lines of two other forms are: those with blanks in the text behind the separator, as a sentence has that begins with a
number, and for Slurm those with a full stop behind the number. All other outputs are refused.
-/
namespace Dispatch

namespace Batch

/-- Digits only, and at least one. -/
structure IsNumber (text : List Char) : Prop where
  filled : text ≠ []
  digits : ∀ c ∈ text, Text.isDigit c = true

theorem isNumber_iff {text : List Char} :
    IsNumber text ↔ (text.isEmpty || !text.all Text.isDigit) = false := by
  rw [Bool.or_eq_false_iff, List.isEmpty_eq_false_iff, Bool.not_eq_false', List.all_eq_true]
  exact ⟨fun number => ⟨number.filled, number.digits⟩, fun checked => ⟨checked.1, checked.2⟩⟩

instance (text : List Char) : Decidable (IsNumber text) := decidable_of_iff _ isNumber_iff.symm

/-- The first line that is not blank, without the blanks around it. -/
def IsAnswerLine (stdout : String) (line : List Char) : Prop :=
  ∃ raw, IsFirst (fun raw => Text.trim raw ≠ []) (Text.lines stdout.toList) raw ∧ Text.trim raw = line

theorem firstFilledLine?_eq_some {stdout : String} {line : List Char} :
    Text.firstFilledLine? stdout.toList = some line ↔ IsAnswerLine stdout line := by
  unfold Text.firstFilledLine? IsAnswerLine IsFirst
  rw [List.find?_map, Option.map_eq_some_iff]
  apply exists_congr
  intro raw
  rw [List.find?_eq_some_iff_append]
  simp only [Function.comp_apply, Bool.not_eq_true', List.isEmpty_eq_false_iff, Bool.not_not, List.isEmpty_iff, ne_eq,
    Decidable.not_not]
  constructor
  · intro found
    obtain ⟨⟨filled, before, after, same, blank⟩, trimmed⟩ := found
    exact ⟨⟨before, after, same, filled, blank⟩, trimmed⟩
  · intro found
    obtain ⟨⟨before, after, same, filled, blank⟩, trimmed⟩ := found
    exact ⟨⟨filled, before, after, same, blank⟩, trimmed⟩

theorem firstFilledLine?_eq_none {stdout : String} :
    Text.firstFilledLine? stdout.toList = none ↔ ∀ line, ¬IsAnswerLine stdout line := by
  rw [Option.eq_none_iff_forall_ne_some]
  exact forall_congr' fun line => not_congr firstFilledLine?_eq_some

theorem IsAnswerLine.unique {stdout : String} {line other : List Char} (first : IsAnswerLine stdout line)
    (also : IsAnswerLine stdout other) : line = other := by
  have found := firstFilledLine?_eq_some.mpr first
  rw [firstFilledLine?_eq_some.mpr also] at found
  exact (Option.some.inj found).symm

namespace Scheduler

/-- What may follow the number of a job, with more text behind it: a cluster, a server, or a range of tasks. -/
def separator : Scheduler → Char
  | slurm => ';'
  | pbs => '.'
  | sge => '.'

/-- The identifier of a job by its number and the line in which it was printed. PBS names the server along. -/
def named (scheduler : Scheduler) (number line : List Char) : List Char :=
  match scheduler with
  | slurm => number
  | pbs => line
  | sge => number

/-- A line of the form that is documented for the scheduler, and the identifier that it stands for. -/
def Announces (scheduler : Scheduler) (line id : List Char) : Prop :=
  ∃ number, IsNumber number ∧ id = scheduler.named number line ∧
    (line = number ∨ ∃ suffix, line = number ++ scheduler.separator :: suffix ∧ ∀ c ∈ suffix, Text.isBlank c = false)

/-- A line of another form, and the identifier that it is taken for. -/
inductive IsTakenFor (scheduler : Scheduler) (line : List Char) : (id : List Char) → Prop
  | spaced {number suffix : List Char} (isNumber : IsNumber number)
      (same : line = number ++ scheduler.separator :: suffix) (blank : ∃ c ∈ suffix, Text.isBlank c = true) :
      IsTakenFor scheduler line (scheduler.named number line)
  | dotted {number suffix : List Char} (isNumber : IsNumber number) (isSlurm : scheduler = slurm)
      (same : line = number ++ '.' :: suffix) :
      IsTakenFor scheduler line (number ++ '.' :: suffix.takeWhile (· ≠ ';'))

/-! ### The number of a job -/

/-- Where the number of a job ends. -/
def stops : Scheduler → Char → Bool
  | slurm, c => c = ';' || c = '.'
  | pbs, c => c = '.'
  | sge, c => c = '.'

theorem stops_separator (scheduler : Scheduler) : scheduler.stops scheduler.separator = true := by
  cases scheduler <;> rfl

theorem stops_dot (scheduler : Scheduler) : scheduler.stops '.' = true := by
  cases scheduler <;> rfl

/-- Only Slurm has two separators. -/
theorem eq_of_stops {scheduler : Scheduler} {c : Char} (stop : scheduler.stops c = true) :
    c = scheduler.separator ∨ scheduler = slurm ∧ c = '.' := by
  cases scheduler with
  | slurm => simpa [stops, separator] using stop
  | pbs => simpa [stops, separator] using stop
  | sge => simpa [stops, separator] using stop

theorem not_stops_digit (scheduler : Scheduler) {c : Char} (digit : Text.isDigit c = true) :
    scheduler.stops c = false := by
  by_contra stop
  rw [Bool.not_eq_false] at stop
  rcases eq_of_stops stop with same | ⟨-, same⟩
  · subst same
    cases scheduler <;> cases digit
  · subst same
    cases digit

/-- What is kept of a line that has a number in front. -/
def identifier (scheduler : Scheduler) (line : List Char) : List Char :=
  match scheduler with
  | slurm => firstField ';' line
  | pbs => line
  | sge => firstField '.' line

theorem firstField_eq (separator : Char) (line : List Char) :
    firstField separator line = line.takeWhile (· ≠ separator) := by
  rw [firstField, Text.head?_fields, Option.getD_some]

theorem firstField_identifier (scheduler : Scheduler) (line : List Char) :
    firstField '.' (scheduler.identifier line) = line.takeWhile fun c => !scheduler.stops c := by
  cases scheduler with
  | slurm => simp [identifier, firstField_eq, stops, List.takeWhile_takeWhile, Bool.and_comm]
  | pbs => simp [identifier, firstField_eq, stops]
  | sge => simp [identifier, firstField_eq, stops, List.takeWhile_takeWhile]

theorem readSubmission_of_line {scheduler : Scheduler} {stdout : String} {line : List Char}
    (first : IsAnswerLine stdout line) :
    scheduler.readSubmission stdout =
      if IsNumber (line.takeWhile fun c => !scheduler.stops c) then .ok (String.ofList (scheduler.identifier line))
      else .error (scheduler.fault s!"Unexpected submission output '{String.ofList line}'") := by
  rw [← firstField_identifier, readSubmission, firstFilledLine?_eq_some.mpr first]
  by_cases number : IsNumber (firstField '.' (scheduler.identifier line))
  · rw [if_pos number]
    exact if_neg (Bool.eq_false_iff.mp (isNumber_iff.mp number))
  · rw [if_neg number]
    exact if_pos (Bool.not_eq_false _ ▸ fun none => number (isNumber_iff.mpr none))

/-! ### Lines with a number in front -/

variable {scheduler : Scheduler} {line number rest : List Char}

/-- The text behind a number begins where numbers end, if there is any. -/
def EndsNumber (scheduler : Scheduler) (rest : List Char) : Prop :=
  rest = [] ∨ ∃ c more, rest = c :: more ∧ scheduler.stops c = true

theorem endsNumber_separator (scheduler : Scheduler) (suffix : List Char) :
    scheduler.EndsNumber (scheduler.separator :: suffix) :=
  .inr ⟨scheduler.separator, suffix, rfl, scheduler.stops_separator⟩

theorem takeWhile_number {runs : Char → Bool} (isNumber : IsNumber number)
    (digits : ∀ c, Text.isDigit c = true → runs c = true)
    (ends : rest = [] ∨ ∃ c more, rest = c :: more ∧ runs c = false) : (number ++ rest).takeWhile runs = number := by
  rw [List.takeWhile_append_of_pos fun c member => digits c (isNumber.digits c member)]
  rcases ends with nothing | ⟨c, more, same, stop⟩
  · rw [nothing, List.takeWhile_nil, List.append_nil]
  · rw [same, List.takeWhile_cons_of_neg (by simp [stop]), List.append_nil]

theorem EndsNumber.takeWhile (ends : scheduler.EndsNumber rest) (isNumber : IsNumber number) :
    ((number ++ rest).takeWhile fun c => !scheduler.stops c) = number := by
  apply takeWhile_number isNumber
  · intro c digit
    rw [not_stops_digit scheduler digit, Bool.not_false]
  · rcases ends with nothing | ⟨c, more, same, stop⟩
    · exact .inl nothing
    · exact .inr ⟨c, more, same, by rw [stop, Bool.not_true]⟩

/-- The line has a number in front. -/
def HasNumber (scheduler : Scheduler) (line : List Char) : Prop :=
  ∃ number rest, line = number ++ rest ∧ IsNumber number ∧ scheduler.EndsNumber rest

theorem isNumber_takeWhile_iff :
    IsNumber (line.takeWhile fun c => !scheduler.stops c) ↔ scheduler.HasNumber line := by
  constructor
  · intro isNumber
    refine ⟨_, _, List.takeWhile_append_dropWhile.symm, isNumber, ?_⟩
    have first := List.head?_dropWhile_not (fun c => !scheduler.stops c) line
    cases rest : line.dropWhile fun c => !scheduler.stops c with
    | nil => exact .inl rfl
    | cons c more =>
      rw [rest, List.head?_cons] at first
      exact .inr ⟨c, more, rfl, by simpa using first⟩
  · intro found
    obtain ⟨number, rest, same, isNumber, ends⟩ := found
    rw [same, ends.takeWhile isNumber]
    exact isNumber

/-- A line is split in one way only into a number and what follows it. -/
theorem EndsNumber.unique {other more : List Char} (ends : scheduler.EndsNumber rest) (isNumber : IsNumber number)
    (otherEnds : scheduler.EndsNumber more) (otherIsNumber : IsNumber other)
    (same : number ++ rest = other ++ more) : number = other ∧ rest = more := by
  have fronts := ends.takeWhile isNumber
  rw [same, otherEnds.takeWhile otherIsNumber] at fronts
  subst fronts
  exact ⟨rfl, List.append_cancel_left same⟩

theorem identifier_of_separator (scheduler : Scheduler) (isNumber : IsNumber number)
    (ends : rest = [] ∨ ∃ suffix, rest = scheduler.separator :: suffix) :
    scheduler.identifier (number ++ rest) = scheduler.named number (number ++ rest) := by
  have upTo (separator : Char) (other : Text.isDigit separator = false)
      (stop : rest = [] ∨ ∃ suffix, rest = separator :: suffix) : firstField separator (number ++ rest) = number := by
    rw [firstField_eq]
    apply takeWhile_number isNumber
    · intro c digit
      have differs : c ≠ separator := by
        intro same
        rw [same, other] at digit
        cases digit
      simp [differs]
    · rcases stop with nothing | ⟨suffix, same⟩
      · exact .inl nothing
      · exact .inr ⟨separator, suffix, same, by simp⟩
  cases scheduler with
  | slurm => exact upTo ';' (by decide) ends
  | pbs => rfl
  | sge => exact upTo '.' (by decide) ends

theorem identifier_of_dot (isNumber : IsNumber number) (suffix : List Char) :
    slurm.identifier (number ++ '.' :: suffix) = number ++ '.' :: suffix.takeWhile (· ≠ ';') := by
  have runs (c : Char) (member : c ∈ number) : decide (c ≠ ';') = true := by
    have digit := isNumber.digits c member
    rw [decide_eq_true_eq]
    intro same
    rw [same] at digit
    cases digit
  change firstField ';' _ = _
  rw [firstField_eq, List.takeWhile_append_of_pos runs, List.takeWhile_cons_of_pos (by decide)]

/-- A line with a number in front is of one of the forms. -/
theorem announces_or_isTakenFor_of_endsNumber (isNumber : IsNumber number) (ends : scheduler.EndsNumber rest) :
    scheduler.Announces (number ++ rest) (scheduler.identifier (number ++ rest)) ∨
      scheduler.IsTakenFor (number ++ rest) (scheduler.identifier (number ++ rest)) := by
  rcases ends with nothing | ⟨c, suffix, same, stop⟩
  · have alone := identifier_of_separator scheduler isNumber (.inl nothing)
    exact .inl ⟨number, isNumber, alone, .inl (by rw [nothing, List.append_nil])⟩
  · subst same
    rcases eq_of_stops stop with separated | ⟨isSlurm, dot⟩
    · subst separated
      have named := identifier_of_separator scheduler isNumber (.inr ⟨suffix, rfl⟩)
      by_cases blank : ∃ c ∈ suffix, Text.isBlank c = true
      · exact .inr (named ▸ .spaced isNumber rfl blank)
      · refine .inl ⟨number, isNumber, named, .inr ⟨suffix, rfl, fun c member => ?_⟩⟩
        exact Bool.eq_false_iff.mpr fun blankHere => blank ⟨c, member, blankHere⟩
    · subst isSlurm
      subst dot
      exact .inr (identifier_of_dot isNumber suffix ▸ .dotted isNumber rfl rfl)

theorem Announces.kept {id : List Char} (announced : scheduler.Announces line id) :
    scheduler.HasNumber line ∧ id = scheduler.identifier line := by
  obtain ⟨number, isNumber, named, alone | ⟨suffix, same, -⟩⟩ := announced
  · subst alone
    have whole : scheduler.identifier (line ++ []) = scheduler.named line (line ++ []) :=
      identifier_of_separator scheduler isNumber (.inl rfl)
    rw [List.append_nil] at whole
    exact ⟨⟨line, [], (List.append_nil line).symm, isNumber, .inl rfl⟩, named.trans whole.symm⟩
  · subst same
    exact ⟨⟨number, _, rfl, isNumber, scheduler.endsNumber_separator suffix⟩,
      named.trans (identifier_of_separator scheduler isNumber (.inr ⟨suffix, rfl⟩)).symm⟩

theorem IsTakenFor.kept {id : List Char} (taken : scheduler.IsTakenFor line id) :
    scheduler.HasNumber line ∧ id = scheduler.identifier line := by
  cases taken with
  | @spaced number suffix isNumber same blank =>
    subst same
    exact ⟨⟨number, _, rfl, isNumber, scheduler.endsNumber_separator suffix⟩,
      (identifier_of_separator scheduler isNumber (.inr ⟨suffix, rfl⟩)).symm⟩
  | @dotted number suffix isNumber isSlurm same =>
    subst isSlurm
    subst same
    exact ⟨⟨number, _, rfl, isNumber, .inr ⟨'.', suffix, rfl, rfl⟩⟩, (identifier_of_dot isNumber suffix).symm⟩

/-- A line is kept exactly if it is of one of the forms, as the identifier that belongs to the form. -/
theorem announces_or_isTakenFor {id : List Char} :
    IsNumber (line.takeWhile fun c => !scheduler.stops c) ∧ id = scheduler.identifier line ↔
      scheduler.Announces line id ∨ scheduler.IsTakenFor line id := by
  rw [isNumber_takeWhile_iff]
  constructor
  · intro kept
    obtain ⟨⟨number, rest, same, isNumber, ends⟩, taken⟩ := kept
    rw [taken, same]
    exact announces_or_isTakenFor_of_endsNumber isNumber ends
  · intro form
    rcases form with announced | taken
    · exact announced.kept
    · exact taken.kept

/-- No line of the documented form is of another one. -/
theorem Announces.not_isTakenFor {id other : List Char} (announced : scheduler.Announces line id) :
    ¬scheduler.IsTakenFor line other := by
  obtain ⟨number, isNumber, -, form⟩ := announced
  have documented : ∃ rest, line = number ++ rest ∧ scheduler.EndsNumber rest ∧
      (rest = [] ∨ ∃ suffix, rest = scheduler.separator :: suffix ∧ ∀ c ∈ suffix, Text.isBlank c = false) := by
    rcases form with alone | ⟨suffix, same, unspaced⟩
    · exact ⟨[], by rw [alone, List.append_nil], .inl rfl, .inl rfl⟩
    · exact ⟨_, same, scheduler.endsNumber_separator suffix, .inr ⟨suffix, rfl, unspaced⟩⟩
  obtain ⟨rest, split, ends, shape⟩ := documented
  intro taken
  cases taken with
  | @spaced otherNumber suffix otherIsNumber same blank =>
    have stop := scheduler.endsNumber_separator suffix
    obtain ⟨-, same⟩ := ends.unique isNumber stop otherIsNumber (split.symm.trans same)
    rcases shape with nothing | ⟨more, shape, unspaced⟩
    · rw [nothing] at same
      cases same
    · rw [shape] at same
      obtain ⟨-, same⟩ := List.cons.inj same
      subst same
      obtain ⟨c, member, isBlank⟩ := blank
      rw [unspaced c member] at isBlank
      cases isBlank
  | @dotted otherNumber suffix otherIsNumber isSlurm same =>
    have stop : scheduler.EndsNumber ('.' :: suffix) := .inr ⟨'.', suffix, rfl, scheduler.stops_dot⟩
    obtain ⟨-, same⟩ := ends.unique isNumber stop otherIsNumber (split.symm.trans same)
    subst isSlurm
    rcases shape with nothing | ⟨more, shape, -⟩
    · rw [nothing] at same
      cases same
    · rw [shape] at same
      cases same

/-! ### Outputs of submissions -/

theorem readSubmission_ok_iff {stdout id : String} : scheduler.readSubmission stdout = .ok id ↔
    ∃ line, IsAnswerLine stdout line ∧ (scheduler.Announces line id.toList ∨ scheduler.IsTakenFor line id.toList) := by
  simp only [← announces_or_isTakenFor]
  constructor
  · intro read
    cases found : Text.firstFilledLine? stdout.toList with
    | none =>
      rw [readSubmission, found] at read
      cases read
    | some line =>
      have first := firstFilledLine?_eq_some.mp found
      rw [readSubmission_of_line first] at read
      split at read
      next isNumber =>
        cases read
        exact ⟨line, first, isNumber, String.toList_ofList⟩
      next => cases read
  · intro found
    obtain ⟨line, first, isNumber, same⟩ := found
    rw [readSubmission_of_line first, if_pos isNumber, ← same, String.ofList_toList]

theorem readSubmission_error_iff {stdout : String} {fault : Backend.Fault} :
    scheduler.readSubmission stdout = .error fault ↔
      (∀ line, ¬IsAnswerLine stdout line) ∧ fault = scheduler.fault "Submission printed no job id" ∨
      ∃ line, IsAnswerLine stdout line ∧ (∀ id, ¬scheduler.Announces line id ∧ ¬scheduler.IsTakenFor line id) ∧
        fault = scheduler.fault s!"Unexpected submission output '{String.ofList line}'" := by
  cases found : Text.firstFilledLine? stdout.toList with
  | none =>
    have blank := firstFilledLine?_eq_none.mp found
    have read : scheduler.readSubmission stdout = .error (scheduler.fault "Submission printed no job id") := by
      rw [readSubmission, found]
    rw [read, Except.error.injEq]
    constructor
    · exact fun same => .inl ⟨blank, same.symm⟩
    · intro either
      rcases either with ⟨-, same⟩ | ⟨line, first, -⟩
      · exact same.symm
      · exact absurd first (blank line)
  | some line =>
    have first := firstFilledLine?_eq_some.mp found
    rw [readSubmission_of_line first]
    constructor
    · intro read
      split at read
      next => cases read
      next noNumber =>
        cases read
        refine .inr ⟨line, first, fun id => ?_, rfl⟩
        rw [← not_or, ← announces_or_isTakenFor]
        exact fun kept => noNumber kept.1
    · intro either
      rcases either with ⟨none, -⟩ | ⟨other, also, refused, same⟩
      · exact absurd first (none line)
      · obtain rfl := first.unique also
        have noNumber : ¬IsNumber (line.takeWhile fun c => !scheduler.stops c) := by
          intro isNumber
          have form := announces_or_isTakenFor.mp ⟨isNumber, rfl⟩
          rcases form with announced | taken
          · exact (refused _).1 announced
          · exact (refused _).2 taken
        rw [if_neg noNumber, same]

/-- An output is read exactly if its first line that is not blank is of the documented form or of one of the two other
ones, and every other output is refused for what it is. So the outputs that are read otherwise than documented are those
with a line of another form. -/
theorem submissions_are_read (scheduler : Scheduler) (stdout : String) :
    (∀ id, scheduler.readSubmission stdout = .ok id ↔ ∃ line, IsAnswerLine stdout line ∧
        (scheduler.Announces line id.toList ∨ scheduler.IsTakenFor line id.toList)) ∧
      (∀ fault, scheduler.readSubmission stdout = .error fault ↔
        (∀ line, ¬IsAnswerLine stdout line) ∧ fault = scheduler.fault "Submission printed no job id" ∨
        ∃ line, IsAnswerLine stdout line ∧ (∀ id, ¬scheduler.Announces line id ∧ ¬scheduler.IsTakenFor line id) ∧
          fault = scheduler.fault s!"Unexpected submission output '{String.ofList line}'") ∧
      ((∀ id, scheduler.readSubmission stdout = .ok id ↔
          ∃ line, IsAnswerLine stdout line ∧ scheduler.Announces line id.toList) ↔
        ¬∃ line id, IsAnswerLine stdout line ∧ scheduler.IsTakenFor line id) := by
  refine ⟨fun id => readSubmission_ok_iff, fun fault => readSubmission_error_iff, ?_⟩
  constructor
  · intro asDocumented taken
    obtain ⟨line, id, first, taken⟩ := taken
    have read : scheduler.readSubmission stdout = .ok (String.ofList id) := by
      rw [readSubmission_ok_iff]
      exact ⟨line, first, .inr (by rwa [String.toList_ofList])⟩
    obtain ⟨other, also, announced⟩ := (asDocumented _).mp read
    obtain rfl := first.unique also
    exact announced.not_isTakenFor taken
  · intro none id
    rw [readSubmission_ok_iff]
    apply exists_congr
    intro line
    constructor
    · intro read
      obtain ⟨first, announced | taken⟩ := read
      · exact ⟨first, announced⟩
      · exact absurd ⟨line, _, first, taken⟩ none
    · exact fun read => ⟨read.1, .inl read.2⟩

/-- A sentence that begins with a number is taken for the identifier of a PBS job, and for Slurm the tasks of a job are
taken along. Neither line is of the documented form. -/
theorem sentence_is_taken :
    (pbs.readSubmission "12.5% of the quota is left\n421.front\n" = .ok "12.5% of the quota is left" ∧
        ∀ id, ¬pbs.Announces "12.5% of the quota is left".toList id) ∧
      slurm.readSubmission "99.1-10:1\n" = .ok "99.1-10:1" ∧ ∀ id, ¬slurm.Announces "99.1-10:1".toList id := by
  have twelve : IsNumber "12".toList := by decide
  have ninetyNine : IsNumber "99".toList := by decide
  have sentence : pbs.IsTakenFor "12.5% of the quota is left".toList "12.5% of the quota is left".toList := by
    have written : "12.5% of the quota is left".toList = "12".toList ++ '.' :: "5% of the quota is left".toList := rfl
    exact .spaced twelve written ⟨' ', by decide, rfl⟩
  have tasks : slurm.IsTakenFor "99.1-10:1".toList "99.1-10:1".toList := by
    have written : "99.1-10:1".toList = "99".toList ++ '.' :: "1-10:1".toList := rfl
    exact .dotted ninetyNine rfl written
  exact ⟨⟨rfl, fun id announced => announced.not_isTakenFor sentence⟩, rfl,
    fun id announced => announced.not_isTakenFor tasks⟩

end Scheduler

end Batch

end Dispatch
