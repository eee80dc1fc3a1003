import Dispatch.Proofs.Script.Rewriting
/-!
When a rewritten job script means the same as before. The schedulers that provide their values as variables have
bare variables put in the place of the portable ones. A bare variable runs on as far as there are characters of
names, so the script expands to the same text in all environments exactly if no portable variable in braces is
directly followed by such a character.
-/
namespace Dispatch.Script

/-! ### Variables that run on -/

/-- The text begins with a portable variable in braces that is directly followed by a character of names. -/
def gluesAt (text : List Char) : Bool :=
  Variable.all.any fun portable => (Text.after? (braced portable.name) text).any goesOn

/-- There is such a variable somewhere in the text. -/
def isGlued : List Char → Bool
  | [] => false
  | c :: rest => gluesAt (c :: rest) || isGlued rest

theorem gluesAt_iff {text : List Char} : gluesAt text = true ↔
    ∃ portable after, text = '$' :: (Reference.text ⟨Variable.name portable, true⟩ ++ after) ∧
      goesOn after = true := by
  have written (portable : Variable) (after : List Char) : braced portable.name ++ after =
      '$' :: (Reference.text ⟨portable.name, true⟩ ++ after) := by simp [braced, Reference.text]
  simp only [gluesAt, List.any_eq_true, Option.any_eq_true, Text.after?_eq_some, written]
  constructor
  · rintro ⟨portable, -, after, glued⟩
    exact ⟨portable, after, glued⟩
  · rintro ⟨portable, after, glued⟩
    exact ⟨portable, by cases portable <;> decide, after, glued⟩

theorem gluesAt_plain {c : Char} (plain : c ≠ '$') (rest : List Char) : gluesAt (c :: rest) = false := by
  rw [Bool.eq_false_iff, Ne, gluesAt_iff]
  rintro ⟨portable, after, same, -⟩
  exact plain (List.cons.inj same).1

theorem gluesAt_unread {rest : List Char} (unread : reference? rest = none) : gluesAt ('$' :: rest) = false := by
  rw [Bool.eq_false_iff, Ne, gluesAt_iff]
  rintro ⟨portable, after, same, -⟩
  have read := reference?_eq_some.mpr ⟨after, (List.cons.inj same).2, portable.isProper true, by simp⟩
  exact absurd (unread.symm.trans read) (by simp)

/-- Where a variable is read, it is this variable that runs on or not. -/
theorem gluesAt_read {reference : Reference} {after : List Char} (begins : reference.BeginsText after) :
    gluesAt ('$' :: (reference.text ++ after)) = true ↔
      (∃ portable : Variable, reference = ⟨portable.name, true⟩) ∧ goesOn after = true := by
  rw [gluesAt_iff]
  constructor
  · rintro ⟨portable, behind, same, goes⟩
    have read := reference?_eq_some.mpr ⟨after, rfl, begins⟩
    rw [(List.cons.inj same).2, reference?_eq_some.mpr ⟨behind, rfl, portable.isProper true, by simp⟩] at read
    obtain rfl := Option.some.inj read
    exact ⟨⟨portable, rfl⟩, List.append_cancel_left (List.cons.inj same).2 ▸ goes⟩
  · rintro ⟨⟨portable, rfl⟩, goes⟩
    exact ⟨portable, after, rfl, goes⟩

theorem isGlued_append {lead : List Char} (dollarless : '$' ∉ lead) (rest : List Char) :
    isGlued (lead ++ rest) = isGlued rest := by
  induction lead with
  | nil => rfl
  | cons c lead ih =>
    simp only [List.mem_cons, not_or] at dollarless
    rw [List.cons_append, isGlued, gluesAt_plain (Ne.symm dollarless.1), ih dollarless.2, Bool.false_or]

/-! ### Expansion -/

section Expansion

variable (env : List Char → List Char)

@[simp] theorem expand_nil : expand env [] = [] := rfl

theorem expand_plain {c : Char} (plain : c ≠ '$') (rest : List Char) :
    expand env (c :: rest) = c :: expand env rest := substitute_plain _ plain rest

theorem expand_unread {rest : List Char} (unread : reference? rest = none) :
    expand env ('$' :: rest) = '$' :: expand env rest := substitute_unread _ unread

theorem expand_reference {reference : Reference} {after : List Char} (begins : reference.BeginsText after) :
    expand env ('$' :: (reference.text ++ after)) = env reference.name ++ expand env after :=
  substitute_reference begins rfl

theorem expand_bare {name after : List Char} (begins : Reference.BeginsText ⟨name, false⟩ after) :
    expand env ('$' :: (name ++ after)) = env name ++ expand env after :=
  expand_reference env begins

theorem expand_alone {name : List Char} (proper : Reference.IsProper ⟨name, false⟩) :
    expand env ('$' :: name) = env name := by
  simpa using expand_bare env ⟨proper, fun _ => (rfl : goesOn [] = false)⟩

theorem expand_append {lead : List Char} (dollarless : '$' ∉ lead) (rest : List Char) :
    expand env (lead ++ rest) = lead ++ expand env rest := substitute_append _ dollarless rest

end Expansion

namespace Meaning

/-- Every portable variable has the value of what is put in its place. -/
def IsProvidedBy (meaning : Meaning) (env : List Char → List Char) : Prop :=
  ∀ portable : Variable, env portable.name = expand env (meaning.text portable)

/-- The variables with these names are put in the place of the portable ones. None of the names goes on as
another one, and they begin with another letter than the portable ones. -/
structure IsBare (meaning : Meaning) (names : Variable → List Char) : Prop where
  text : ∀ portable, meaning.text portable = '$' :: names portable
  proper : ∀ portable, Reference.IsProper ⟨names portable, false⟩
  letter : ∀ portable, (names portable).head? ≠ some 'G'
  apart : ∀ portable other, names portable <+: names other → names other = names portable

variable {meaning : Meaning} {names : Variable → List Char} {env : List Char → List Char}

theorem isSettled_of_dollarless {text : List Char} (dollarless : '$' ∉ text) : Script.isSettled text = true := by
  induction text with
  | nil => rfl
  | cons c rest ih =>
    simp only [List.mem_cons, not_or] at dollarless
    simp [Script.isSettled, Ne.symm dollarless.1, ih dollarless.2]

theorem IsBare.isSettled (bare : meaning.IsBare names) : meaning.IsSettled := by
  intro portable
  rw [bare.text]
  refine ⟨⟨_, rfl⟩, ?_⟩
  have proper := bare.proper portable
  have letter := bare.letter portable
  have plain : Script.isSettled (names portable) = true := isSettled_of_dollarless proper.dollarless
  rw [Script.isSettled, plain, Bool.and_true]
  cases written : names portable with
  | nil => exact absurd written proper.filled
  | cons c rest =>
    have brace : c ≠ '\x7b' := by
      rintro rfl
      exact absurd (proper.plain '\x7b' (by simp [written])) (by decide)
    have other : c ≠ 'G' := by simpa [written] using letter
    simp [brace, other]

theorem IsBare.dollars (bare : meaning.IsBare names) : meaning.inserts.BeginsWithDollars :=
  (meaning.puts_insertsFor Variable.all).dollars bare.isSettled

/-- What the rewriting leaves is no portable variable, and what it puts is the variable that belongs to one. -/
theorem IsBare.inserts_cases (bare : meaning.IsBare names) (reference : Reference) :
    (meaning.inserts reference = none ∧ ∀ portable : Variable, reference.name ≠ portable.name) ∨
      ∃ portable : Variable, reference.name = portable.name ∧
        meaning.inserts reference = some ('$' :: names portable) := by
  cases given : meaning.inserts reference with
  | none =>
    refine .inl ⟨rfl, fun portable same => ?_⟩
    have missed := List.find?_eq_none.mp (Option.map_eq_none_iff.mp given) portable (by cases portable <;> decide)
    exact missed (by simp [same])
  | some insert =>
    obtain ⟨portable, same, rfl⟩ := meaning.puts_insertsFor _ reference insert given
    exact .inr ⟨portable, same, by rw [bare.text]⟩

/-- In an environment that provides the values, a script of which no variable runs on expands as before. -/
theorem IsBare.expand_substitute (bare : meaning.IsBare names) (provided : meaning.IsProvidedBy env)
    {text : List Char} (apart : isGlued text = false) :
    expand env (substitute meaning.inserts text) = expand env text := by
  have dollars := bare.dollars
  have value (portable : Variable) : env (names portable) = env portable.name := by
    rw [provided portable, bare.text, expand_alone env (bare.proper portable)]
  induction text using reading_induction with
  | nil => rfl
  | plain c rest plain ih =>
    rw [isGlued, Bool.or_eq_false_iff] at apart
    rw [substitute_plain _ plain, expand_plain env plain, expand_plain env plain, ih apart.2]
  | unread rest unread ih =>
    rw [isGlued, Bool.or_eq_false_iff] at apart
    have still := (reference?_substitute dollars rest).trans unread
    rw [substitute_unread _ unread, expand_unread env still, expand_unread env unread, ih apart.2]
  | read reference after begins whole ih =>
    rw [isGlued, Bool.or_eq_false_iff, isGlued_append begins.proper.dollarless] at apart
    rw [expand_reference env begins, ← ih apart.2]
    rcases bare.inserts_cases reference with ⟨left, -⟩ | ⟨portable, same, given⟩
    · have onward : reference.BeginsText (substitute meaning.inserts after) :=
        ⟨begins.proper, fun bare => (goesOn_substitute dollars after).trans (begins.ends bare)⟩
      rw [substitute_left (reference?_eq_some.mpr ⟨after, rfl, begins⟩) left,
        substitute_append _ begins.proper.dollarless, expand_reference env onward]
    · -- What follows ends the bare name: it ended the name that was bare before, and is not glued to a brace.
      have ends : goesOn after = false := by
        cases braced : reference.isBraced with
        | false => exact begins.ends braced
        | true =>
          cases goes : goesOn after with
          | false => rfl
          | true =>
            have glued := (gluesAt_read begins).mpr ⟨⟨portable, by rw [← same, ← braced]⟩, goes⟩
            exact absurd (apart.1.symm.trans glued) (by decide)
      have onward : Reference.BeginsText ⟨names portable, false⟩ (substitute meaning.inserts after) :=
        ⟨bare.proper portable, fun _ => (goesOn_substitute dollars after).trans ends⟩
      rw [substitute_reference begins given, List.cons_append, expand_bare env onward, value, same]

/-! ### Telling a variable that has run on -/

/-- One character for the portable variables and those in their place, nothing for all others. -/
def marking (names : Variable → List Char) (name : List Char) : List Char :=
  if name ∈ Variable.all.map Variable.name ++ Variable.all.map names then ['x'] else []

theorem marking_portable (names : Variable → List Char) (portable : Variable) :
    marking names portable.name = ['x'] := by
  have member : portable ∈ Variable.all := by cases portable <;> decide
  simp only [marking, List.mem_append]
  rw [if_pos (.inl (List.mem_map_of_mem member))]

theorem marking_names (names : Variable → List Char) (portable : Variable) :
    marking names (names portable) = ['x'] := by
  have member : portable ∈ Variable.all := by cases portable <;> decide
  simp only [marking, List.mem_append]
  rw [if_pos (.inr (List.mem_map_of_mem member))]

theorem IsBare.marking_provides (bare : meaning.IsBare names) : meaning.IsProvidedBy (marking names) := by
  intro portable
  rw [bare.text, expand_alone _ (bare.proper portable), marking_portable, marking_names]

/-- A name that has run on is the name of nothing. -/
theorem IsBare.marking_onward (bare : meaning.IsBare names) (portable : Variable) {more : List Char}
    (filled : more ≠ []) : marking names (names portable ++ more) = [] := by
  have absent : names portable ++ more ∉ Variable.all.map Variable.name ++ Variable.all.map names := by
    simp only [List.mem_append, List.mem_map, not_or]
    constructor
    · rintro ⟨other, -, same⟩
      have letter := bare.letter portable
      have begun : other.name.head? = some 'G' := by cases other <;> rfl
      cases written : names portable with
      | nil => exact (bare.proper portable).filled written
      | cons c rest => simp_all
    · rintro ⟨other, -, same⟩
      have equal := bare.apart portable other ⟨more, same.symm⟩
      rw [equal] at same
      exact filled (List.append_right_eq_self.mp same.symm)
  rw [marking, if_neg absent]

/-- A text never grows when it is rewritten, and it shrinks where a variable has run on. -/
theorem IsBare.expand_shrinks (bare : meaning.IsBare names) (text : List Char) :
    (expand (marking names) (substitute meaning.inserts text)).length + (isGlued text).toNat ≤
      (expand (marking names) text).length := by
  have dollars := bare.dollars
  induction text using reading_induction with
  | nil => simp [isGlued]
  | plain c rest plain ih =>
    rw [substitute_plain _ plain, expand_plain _ plain, expand_plain _ plain, isGlued, gluesAt_plain plain,
      Bool.false_or, List.length_cons, List.length_cons]
    omega
  | unread rest unread ih =>
    have still := (reference?_substitute dollars rest).trans unread
    rw [substitute_unread _ unread, expand_unread _ still, expand_unread _ unread, isGlued,
      gluesAt_unread unread, Bool.false_or, List.length_cons, List.length_cons]
    omega
  | read reference after begins whole ih =>
    have stays := goesOn_substitute dollars after
    rw [expand_reference _ begins, isGlued, isGlued_append begins.proper.dollarless]
    rcases bare.inserts_cases reference with ⟨left, foreign⟩ | ⟨portable, same, given⟩
    · have onward : reference.BeginsText (substitute meaning.inserts after) :=
        ⟨begins.proper, fun bare => stays.trans (begins.ends bare)⟩
      have apart : gluesAt ('$' :: (reference.text ++ after)) = false := by
        rw [Bool.eq_false_iff, Ne, gluesAt_read begins]
        rintro ⟨⟨portable, rfl⟩, -⟩
        exact foreign portable rfl
      rw [substitute_left (reference?_eq_some.mpr ⟨after, rfl, begins⟩) left,
        substitute_append _ begins.proper.dollarless, expand_reference _ onward, apart, Bool.false_or,
        List.length_append, List.length_append]
      omega
    · rw [substitute_reference begins given, same, marking_portable, List.cons_append]
      cases goes : goesOn after with
      | false =>
        have onward : Reference.BeginsText ⟨names portable, false⟩ (substitute meaning.inserts after) :=
          ⟨bare.proper portable, fun _ => stays.trans goes⟩
        have apart : gluesAt ('$' :: (reference.text ++ after)) = false := by
          rw [Bool.eq_false_iff, Ne, gluesAt_read begins]
          simp [goes]
        rw [expand_bare _ onward, marking_names, apart]
        simp only [List.length_append, Bool.false_or]
        omega
      | true =>
        -- The bare name takes the next characters with it, which have stood for themselves before.
        obtain ⟨more, behind, split, filled, plain, ends⟩ := goesOn_split (stays.trans goes)
        have dollarless : '$' ∉ more := fun member => by simpa using plain '$' member
        have onward : Reference.BeginsText ⟨names portable ++ more, false⟩ behind := by
          refine ⟨⟨by simp [filled], fun c member => ?_⟩, fun _ => ends⟩
          rcases List.mem_append.mp member with member | member
          · exact (bare.proper portable).plain c member
          · exact plain c member
        rw [split, ← List.append_assoc, expand_bare _ onward, bare.marking_onward portable filled]
        rw [split, expand_append _ dollarless] at ih
        have some := List.length_pos_iff.mpr filled
        simp only [List.length_append, List.length_cons, List.nil_append] at ih ⊢
        have bit : (gluesAt ('$' :: (reference.text ++ after)) || isGlued after).toNat ≤ 1 := Bool.toNat_le _
        omega

end Meaning

end Dispatch.Script

namespace Dispatch.Batch.Scheduler
open Script

/-- The name of the variable that a scheduler has for a portable one. -/
def variableName (scheduler : Scheduler) (portable : Variable) : List Char :=
  (scheduler.meaning.text portable).tail

/-- All schedulers but PBS provide the values as variables; there the number of nodes is counted by a command. -/
theorem meaning_isBare {scheduler : Scheduler} (provides : scheduler ≠ .pbs) :
    scheduler.meaning.IsBare scheduler.variableName := by
  cases scheduler with
  | pbs => exact absurd rfl provides
  | slurm | sge =>
    refine ⟨fun portable => ?_, fun portable => ?_, fun portable => ?_, fun portable other => ?_⟩ <;>
      cases portable <;> first | decide | (cases other <;> decide)

/-- A rewritten script expands to the same text as before in every environment that provides the values, exactly
if no portable variable in braces is directly followed by a letter, a digit or an underscore. -/
theorem rewrite_preserves_iff (scheduler : Scheduler) (provides : scheduler ≠ .pbs) (script : String) :
    (∀ env, scheduler.meaning.IsProvidedBy env →
        expand env (rewrite scheduler.meaning script).toList = expand env script.toList) ↔
      isGlued script.toList = false := by
  have bare := meaning_isBare provides
  have once : (rewrite scheduler.meaning script).toList = substitute scheduler.meaning.inserts script.toList := by
    rw [rewrite, onChars, String.toList_ofList, Meaning.rewriteChars_eq bare.isSettled]
  rw [once]
  constructor
  · intro same
    have shrinks := bare.expand_shrinks script.toList
    rw [same _ bare.marking_provides] at shrinks
    cases glued : isGlued script.toList with
    | false => rfl
    | true =>
      rw [glued, Bool.toNat_true] at shrinks
      omega
  · exact fun apart env provided => bare.expand_substitute provided apart

/-- With separated variables, also in braces, nothing changes. -/
theorem rewrite_preserves_separated :
    Scheduler.slurm ≠ .pbs ∧ ∀ env, Scheduler.slurm.meaning.IsProvidedBy env →
      expand env (rewrite Scheduler.slurm.meaning "mv out $\x7bGRID_JOB_NAME\x7d.$GRID_JOB_ID").toList =
        expand env "mv out $\x7bGRID_JOB_NAME\x7d.$GRID_JOB_ID".toList :=
  ⟨by decide, (rewrite_preserves_iff .slurm (by decide) _).mpr (by decide +kernel)⟩

/-- A Slurm job with the id 42, of which nothing else is known. -/
def sampleEnv (name : List Char) : List Char :=
  if name = "GRID_JOB_ID".toList ∨ name = "SLURM_JOB_ID".toList then "42".toList else []

/-- The id in braces in front of an underscore is lost: what is read is another variable, `SLURM_JOB_ID_log`. -/
theorem rewrite_loses_id :
    Scheduler.slurm.meaning.IsProvidedBy sampleEnv ∧
      expand sampleEnv "echo $\x7bGRID_JOB_ID\x7d_log".toList = "echo 42_log".toList ∧
      expand sampleEnv (rewrite Scheduler.slurm.meaning "echo $\x7bGRID_JOB_ID\x7d_log").toList =
        "echo ".toList := by
  refine ⟨fun portable => ?_, by decide +kernel, by decide +kernel⟩
  cases portable <;> decide +kernel

end Dispatch.Batch.Scheduler
