import Dispatch.Proofs.Script.Rewriting
/-!
The rewriting of a job script as one pass from left to right. A script is read as a row of parts, each of them a
mention of a portable variable or a character that is copied, in one way only, and is rewritten part by part: what is
put in place of a mention is never read again, so that a second rewriting finds nothing to do.
-/
namespace Dispatch

namespace Script

theorem Variable.name_injective : Function.Injective Variable.name := by
  intro first second same
  cases first <;> cases second <;> first | rfl | exact absurd same (by decide)

/-- A portable variable as it is written in a script: in braces, or bare. -/
structure Mention where
  portable : Variable
  isBraced : Bool
  deriving DecidableEq, Repr

namespace Mention

def text (mention : Mention) : List Char :=
  if mention.isBraced then braced mention.portable.name else '$' :: mention.portable.name

/-- A bare mention is one only if no letter, digit or underscore follows. -/
def EndsBefore (mention : Mention) (after : List Char) : Prop := mention.isBraced = false → goesOn after = false

/-- The variable that is read where the mention stands. -/
def reference (mention : Mention) : Reference := ⟨mention.portable.name, mention.isBraced⟩

theorem text_eq (mention : Mention) : mention.text = '$' :: mention.reference.text := by
  cases braces : mention.isBraced with
  | true => simp [text, reference, Reference.text, braced, braces]
  | false => simp [text, reference, Reference.text, braces]

theorem reference_injective : Function.Injective reference := by
  intro first second same
  obtain ⟨names, braces⟩ := Reference.mk.inj same
  have portables := Variable.name_injective names
  cases first
  cases second
  cases portables
  cases braces
  rfl

variable {mention other : Mention} {after behind : List Char}

theorem EndsBefore.beginsText (ends : mention.EndsBefore after) : mention.reference.BeginsText after :=
  ⟨mention.portable.isProper mention.isBraced, ends⟩

/-- Where a mention stands, its variable is read. -/
theorem EndsBefore.reference?_eq (ends : mention.EndsBefore after) {rest : List Char}
    (same : '$' :: rest = mention.text ++ after) : reference? rest = some mention.reference := by
  rw [text_eq, List.cons_append] at same
  exact reference?_eq_some.mpr ⟨after, (List.cons.inj same).2, ends.beginsText⟩

/-- One text begins with one mention at most. -/
theorem EndsBefore.unique (ends : mention.EndsBefore after) (otherEnds : other.EndsBefore behind)
    (same : mention.text ++ after = other.text ++ behind) : mention = other ∧ after = behind := by
  have begins : '$' :: (mention.reference.text ++ after) = mention.text ++ after := by
    rw [text_eq, List.cons_append]
  have read := ends.reference?_eq begins
  rw [otherEnds.reference?_eq (begins.trans same)] at read
  have one := reference_injective (Option.some.inj read)
  subst one
  exact ⟨rfl, List.append_cancel_left same⟩

end Mention

/-- A part of a script. -/
inductive Part
  | copied (c : Char)
  | replaced (mention : Mention)
  deriving DecidableEq, Repr

namespace Part

/-- The part as it stands in the script. -/
def source : Part → List Char
  | copied c => [c]
  | replaced mention => mention.text

/-- The part as it is rewritten. -/
def image (meaning : Meaning) : Part → List Char
  | copied c => [c]
  | replaced mention => meaning.text mention.portable

/-- Read from left to right, a mention is replaced wherever there is one, and only other characters are copied. -/
def IsReading : List Part → Prop
  | [] => True
  | copied c :: parts => IsReading parts ∧
    ∀ (mention : Mention) (after : List Char), mention.EndsBefore after → c :: parts.flatMap source ≠ mention.text ++ after
  | replaced mention :: parts => IsReading parts ∧ mention.EndsBefore (parts.flatMap source)

theorem source_ne_nil (part : Part) : part.source ≠ [] := by
  cases part with
  | copied c => exact List.cons_ne_nil c []
  | replaced mention =>
    rw [source, mention.text_eq]
    exact List.cons_ne_nil _ _

variable {parts others : List Part} {meaning : Meaning}

theorem IsReading.tail {part : Part} (reading : IsReading (part :: parts)) : IsReading parts := by
  cases part with
  | copied c => exact reading.1
  | replaced mention => exact reading.1

/-- Two readings of one script are the same. -/
theorem IsReading.unique (reading : IsReading parts) (other : IsReading others)
    (same : parts.flatMap source = others.flatMap source) : parts = others := by
  induction parts generalizing others with
  | nil =>
    cases others with
    | nil => rfl
    | cons part others =>
      rw [List.flatMap_cons, List.flatMap_nil, eq_comm, List.append_eq_nil_iff] at same
      exact absurd same.1 part.source_ne_nil
  | cons part parts ih =>
    cases others with
    | nil =>
      rw [List.flatMap_cons, List.flatMap_nil, List.append_eq_nil_iff] at same
      exact absurd same.1 part.source_ne_nil
    | cons next others =>
      rw [List.flatMap_cons, List.flatMap_cons] at same
      cases part with
      | copied c =>
        cases next with
        | copied d =>
          obtain ⟨same, rest⟩ := List.cons.inj same
          rw [same, ih reading.1 other.1 rest]
        | replaced mention => exact absurd same (reading.2 mention _ other.2)
      | replaced mention =>
        cases next with
        | copied d => exact absurd same.symm (other.2 mention _ reading.2)
        | replaced next =>
          obtain ⟨same, rest⟩ := reading.2.unique other.2 same
          rw [same, ih reading.1 other.1 rest]

/-- Every script can be read. -/
theorem exists_reading (text : List Char) : ∃ parts, IsReading parts ∧ parts.flatMap source = text := by
  induction text using reading_induction with
  | nil => exact ⟨[], trivial, rfl⟩
  | plain c rest plain ih =>
    obtain ⟨parts, reading, same⟩ := ih
    refine ⟨copied c :: parts, ⟨reading, fun mention after _ begins => ?_⟩, ?_⟩
    · rw [mention.text_eq] at begins
      exact plain (List.cons.inj begins).1
    · rw [List.flatMap_cons, same]
      rfl
  | unread rest unread ih =>
    obtain ⟨parts, reading, same⟩ := ih
    refine ⟨copied '$' :: parts, ⟨reading, fun mention after ends begins => ?_⟩, ?_⟩
    · rw [same] at begins
      rw [ends.reference?_eq begins] at unread
      cases unread
    · rw [List.flatMap_cons, same]
      rfl
  | read reference after begins whole ih =>
    by_cases portable : ∃ mention : Mention, mention.reference = reference
    · obtain ⟨mention, rfl⟩ := portable
      obtain ⟨parts, reading, same⟩ := ih
      refine ⟨replaced mention :: parts, ⟨reading, same ▸ begins.ends⟩, ?_⟩
      rw [List.flatMap_cons, same, source, mention.text_eq]
      rfl
    · obtain ⟨parts, reading, same⟩ := whole
      refine ⟨copied '$' :: parts, ⟨reading, fun mention behind ends found => ?_⟩, ?_⟩
      · have read := reference?_eq_some.mpr ⟨after, rfl, begins⟩
        rw [same] at found
        rw [ends.reference?_eq found] at read
        exact portable ⟨mention, Option.some.inj read⟩
      · rw [List.flatMap_cons, same]
        rfl

/-- Where a character is copied, no variable is read for which something is put. -/
theorem IsReading.inserts_eq_none {c : Char} (reading : IsReading (copied c :: parts)) (dollar : c = '$')
    {reference : Reference} (read : reference? (parts.flatMap source) = some reference) :
    meaning.inserts reference = none := by
  cases given : meaning.inserts reference with
  | none => rfl
  | some insert =>
    obtain ⟨portable, same, -⟩ := meaning.puts_insertsFor _ reference insert given
    obtain ⟨after, begins, stands⟩ := reference?_eq_some.mp read
    have mentioned : (Mention.mk portable reference.isBraced).reference = reference := by
      rw [Mention.reference, ← same]
    refine absurd ?_ (reading.2 ⟨portable, reference.isBraced⟩ after stands.ends)
    rw [Mention.text_eq, mentioned, dollar, begins, List.cons_append]

theorem inserts_reference (meaning : Meaning) (mention : Mention) :
    meaning.inserts mention.reference = some (meaning.text mention.portable) := by
  obtain ⟨portable, isBraced⟩ := mention
  cases portable <;> rfl

/-- A script is rewritten part by part. -/
theorem IsReading.substitute (reading : IsReading parts) :
    substitute meaning.inserts (parts.flatMap source) = parts.flatMap (image meaning) := by
  induction parts with
  | nil => rfl
  | cons part parts ih =>
    have onward := ih reading.tail
    rw [List.flatMap_cons, List.flatMap_cons]
    cases part with
    | copied c =>
      change Script.substitute meaning.inserts (c :: parts.flatMap source) = c :: parts.flatMap (image meaning)
      by_cases dollar : c = '$'
      · subst dollar
        cases read : reference? (parts.flatMap source) with
        | none => rw [substitute_unread _ read, onward]
        | some reference => rw [substitute_left read (reading.inserts_eq_none rfl read), onward]
      · rw [substitute_plain _ dollar, onward]
    | replaced mention =>
      rw [source, mention.text_eq, List.cons_append,
        substitute_reference reading.2.beginsText (inserts_reference meaning mention), onward]
      rfl

end Part

/-! ### Cutting a script -/

theorem goesOn_append_dollar (front rest : List Char) : goesOn (front ++ '$' :: rest) = goesOn front := by
  cases front with
  | nil => rfl
  | cons c front => rfl

/-- No variable goes over a dollar sign. -/
theorem reference?_append_dollar (front rest : List Char) : reference? (front ++ '$' :: rest) = reference? front := by
  ext reference
  rw [reference?_eq_some, reference?_eq_some]
  constructor
  · intro read
    obtain ⟨after, same, begins⟩ := read
    rcases List.append_eq_append_iff.mp same with ⟨overlap, text, behind⟩ | ⟨between, split, behind⟩
    · cases overlap with
      | nil => exact ⟨[], by rw [text, List.append_nil, List.append_nil], begins.proper, fun _ => rfl⟩
      | cons c overlap =>
        obtain ⟨rfl, -⟩ := List.cons.inj behind
        exact absurd (by simp [text]) begins.proper.dollarless
    · refine ⟨between, split, begins.proper, fun bare => ?_⟩
      rw [← goesOn_append_dollar between rest, ← behind, begins.ends bare]
  · intro read
    obtain ⟨after, same, begins⟩ := read
    refine ⟨after ++ '$' :: rest, by rw [same, List.append_assoc], begins.proper, fun bare => ?_⟩
    rw [goesOn_append_dollar, begins.ends bare]

/-- A script may be cut in front of every dollar sign. -/
theorem substitute_append_dollar (insert? : Substitution) (front rest : List Char) :
    substitute insert? (front ++ '$' :: rest) = substitute insert? front ++ substitute insert? ('$' :: rest) := by
  induction front using reading_induction with
  | nil => rfl
  | plain c front plain ih => rw [List.cons_append, substitute_plain _ plain, ih, substitute_plain _ plain]; rfl
  | unread front unread ih =>
    have still := (reference?_append_dollar front rest).trans unread
    rw [List.cons_append, substitute_unread _ still, ih, substitute_unread _ unread]
    rfl
  | read reference after begins whole ih =>
    have read := reference?_eq_some.mpr ⟨after, rfl, begins⟩
    have onward : reference.BeginsText (after ++ '$' :: rest) :=
      ⟨begins.proper, fun bare => (goesOn_append_dollar after rest).trans (begins.ends bare)⟩
    cases given : insert? reference with
    | none =>
      have still := (reference?_append_dollar _ rest).trans read
      rw [List.cons_append, substitute_left still given, whole, substitute_left read given]
      rfl
    | some insert =>
      rw [List.cons_append, List.append_assoc, substitute_reference onward given, ih, substitute_reference begins given,
        List.append_assoc]

end Script

namespace Batch.Scheduler

open Script

theorem meaning_isSettled (scheduler : Scheduler) : scheduler.meaning.IsSettled := by
  intro portable
  cases scheduler <;> cases portable <;> exact ⟨⟨_, rfl⟩, by decide⟩

theorem toList_rewrite (scheduler : Scheduler) (script : String) :
    (rewrite scheduler.meaning script).toList = substitute scheduler.meaning.inserts script.toList := by
  rw [rewrite, onChars, String.toList_ofList, Meaning.rewriteChars_eq scheduler.meaning_isSettled]

/-- Substituting the portable variables a second time changes nothing. -/
theorem substitute_twice (scheduler : Scheduler) (text : List Char) :
    substitute scheduler.meaning.inserts (substitute scheduler.meaning.inserts text) =
      substitute scheduler.meaning.inserts text := by
  have puts := scheduler.meaning.puts_insertsFor Variable.all
  have both : scheduler.meaning.inserts.orElse scheduler.meaning.inserts = scheduler.meaning.inserts := by
    funext reference
    exact Option.or_self
  have once := puts.substitute_substitute puts scheduler.meaning_isSettled text
  calc
    _ = substitute (scheduler.meaning.inserts.orElse scheduler.meaning.inserts) text := once
    _ = substitute scheduler.meaning.inserts text := by rw [both]

/-- A script has one reading, and is rewritten part by part of it: each mention of a portable variable, wherever it
stands, gives way to the text of the scheduler, and everything else is copied. A rewritten script is rewritten to
itself. -/
theorem rewrite_is_one_pass (scheduler : Scheduler) (script : String) :
    (∃ parts, (Part.IsReading parts ∧ parts.flatMap Part.source = script.toList) ∧
        (∀ others, Part.IsReading others ∧ others.flatMap Part.source = script.toList → others = parts) ∧
        (rewrite scheduler.meaning script).toList = parts.flatMap (Part.image scheduler.meaning)) ∧
      (∀ (front after : List Char) (mention : Mention),
        mention.EndsBefore after ∧ script.toList = front ++ (mention.text ++ after) →
          (rewrite scheduler.meaning script).toList = rewriteChars scheduler.meaning front ++
            (scheduler.meaning.text mention.portable ++ rewriteChars scheduler.meaning after)) ∧
      rewrite scheduler.meaning (rewrite scheduler.meaning script) = rewrite scheduler.meaning script := by
  rw [toList_rewrite]
  refine ⟨?_, fun front after mention stands => ?_, ?_⟩
  · obtain ⟨parts, reading, same⟩ := Part.exists_reading script.toList
    refine ⟨parts, ⟨reading, same⟩, fun others other => ?_, ?_⟩
    · exact other.1.unique reading (other.2.trans same.symm)
    · rw [← same, reading.substitute]
  · obtain ⟨ends, same⟩ := stands
    rw [same, mention.text_eq, List.cons_append, substitute_append_dollar,
      substitute_reference ends.beginsText (Part.inserts_reference scheduler.meaning mention),
      Meaning.rewriteChars_eq scheduler.meaning_isSettled, Meaning.rewriteChars_eq scheduler.meaning_isSettled]
  · rw [← String.toList_inj, toList_rewrite, toList_rewrite, substitute_twice]

/-- A bare mention behind a dollar sign, in front of a longer name that is left alone. -/
theorem nodeCount_is_rewritten :
    (Mention.mk .nodeCount false).EndsBefore " $GRID_JOB_NUM_NODESX".toList ∧
      (rewrite pbs.meaning "echo $$GRID_JOB_NUM_NODES $GRID_JOB_NUM_NODESX").toList =
        "echo $$(sort -u $PBS_NODEFILE | wc -l) $GRID_JOB_NUM_NODESX".toList := by
  have ends : (Mention.mk .nodeCount false).EndsBefore " $GRID_JOB_NUM_NODESX".toList := fun _ => rfl
  have parted := (rewrite_is_one_pass pbs "echo $$GRID_JOB_NUM_NODES $GRID_JOB_NUM_NODESX").2.1 "echo $".toList
    " $GRID_JOB_NUM_NODESX".toList ⟨.nodeCount, false⟩ ⟨ends, rfl⟩
  have front : rewriteChars pbs.meaning "echo $".toList = "echo $".toList := by decide +kernel
  have after : rewriteChars pbs.meaning " $GRID_JOB_NUM_NODESX".toList = " $GRID_JOB_NUM_NODESX".toList := by
    decide +kernel
  rw [front, after] at parted
  exact ⟨ends, parted⟩

end Batch.Scheduler

end Dispatch
