import Dispatch.Proofs.Script.Expansion
/-!
What rewriting a job script does to what it means. The six textual passes over the portable variables are one
substitution, since nothing that they put in is found again. It puts bare variables also where a variable in
braces stood, so the text expands to the same as before unless such a variable is directly followed by a
character that continues a name: the variable of the scheduler then runs on into the text behind it.
-/
namespace Dispatch.Script

/-! ### One pass as a substitution -/

namespace Reference

/-- A text in place of this variable, and of no other. -/
def putting (reference : Reference) (insert : List Char) : Substitution :=
  fun other => if other = reference then some insert else none

@[simp] theorem putting_self (reference : Reference) (insert : List Char) :
    reference.putting insert reference = some insert := by
  simp [putting]

theorem putting_other {reference other : Reference} (differs : other ≠ reference) (insert : List Char) :
    reference.putting insert other = none := by
  simp [putting, differs]

end Reference

/-- A pass over a text that puts something in place of one variable. -/
structure IsPass (reference : Reference) (insert : List Char) (pass : List Char → List Char) : Prop where
  nil : pass [] = []
  plain : ∀ c rest, c ≠ '$' → pass (c :: rest) = c :: pass rest
  found : ∀ after, reference.BeginsText after → pass ('$' :: (reference.text ++ after)) = insert ++ pass after
  other : ∀ rest, reference? rest ≠ some reference → pass ('$' :: rest) = '$' :: pass rest

theorem IsPass.eq_substitute {reference : Reference} {insert : List Char} {pass : List Char → List Char}
    (is : IsPass reference insert pass) (text : List Char) :
    pass text = substitute (reference.putting insert) text := by
  induction text using reading_induction with
  | nil => exact is.nil
  | plain c rest plain ih => rw [is.plain c rest plain, ih, substitute_plain _ plain]
  | unread rest unread ih => rw [is.other rest (by simp [unread]), ih, substitute_unread _ unread]
  | read found after begins whole ih =>
    have read := reference?_eq_some.mpr ⟨after, rfl, begins⟩
    by_cases same : found = reference
    · subst same
      rw [is.found after begins, ih, substitute_reference begins (Reference.putting_self _ _)]
    · rw [is.other _ (by simpa [read] using same), whole,
        substitute_left read (Reference.putting_other same insert)]

theorem replaceFrom_length (needle insert lead rest : List Char) :
    Text.replaceFrom needle insert lead.length (lead ++ rest) = Text.replace needle insert rest := by
  induction lead with
  | nil => rfl
  | cons c lead ih => simpa [Text.replaceFrom] using ih

theorem replaceBareFrom_length (name insert lead rest : List Char) :
    replaceBareFrom name insert lead.length (lead ++ rest) = replaceBare name insert rest := by
  induction lead with
  | nil => rfl
  | cons c lead ih => simpa [replaceBareFrom] using ih

theorem isPass_braced {name : List Char} (proper : Reference.IsProper ⟨name, true⟩) (insert : List Char) :
    IsPass ⟨name, true⟩ insert (Text.replace (braced name) insert) := by
  have needle : braced name = '$' :: Reference.text ⟨name, true⟩ := by simp [braced, Reference.text]
  rw [needle]
  refine ⟨rfl, fun c rest plain => ?plain, fun after begins => ?found, fun rest differs => ?other⟩
  case plain =>
    simp [Text.replace, Text.replaceFrom, Text.beginsWith, Text.after?, Ne.symm plain]
  case found =>
    have begun : Text.beginsWith ('$' :: Reference.text ⟨name, true⟩)
        ('$' :: (Reference.text ⟨name, true⟩ ++ after)) = true :=
      Text.beginsWith_iff.mpr (List.prefix_append _ after)
    rw [Text.replace, Text.replaceFrom, if_pos begun, List.length_cons, Nat.add_sub_cancel, replaceFrom_length]
  case other =>
    have absent : ¬ Text.beginsWith ('$' :: Reference.text ⟨name, true⟩) ('$' :: rest) = true := by
      rw [Text.beginsWith_iff, List.prefix_cons_inj]
      rintro ⟨after, rfl⟩
      exact differs (reference?_eq_some.mpr ⟨after, rfl, proper, by simp⟩)
    rw [Text.replace, Text.replaceFrom, if_neg absent, Text.replace]

theorem isPass_bare {name : List Char} (proper : Reference.IsProper ⟨name, false⟩) (insert : List Char) :
    IsPass ⟨name, false⟩ insert (replaceBare name insert) := by
  refine ⟨rfl, fun c rest plain => ?plain, fun after begins => ?found, fun rest differs => ?other⟩
  case plain => simp [replaceBare, replaceBareFrom, plain]
  case found =>
    have stood : Text.after? name (name ++ after) = some after := Text.after?_eq_some.mpr rfl
    have ends : after.head?.any continuesName = false := begins.ends rfl
    change replaceBareFrom name insert 0 ('$' :: (name ++ after)) = _
    simp [replaceBareFrom, stood, ends, replaceBareFrom_length]
  case other =>
    change replaceBareFrom name insert 0 ('$' :: rest) = _
    cases stood : Text.after? name rest with
    | none => simp [replaceBareFrom, stood, replaceBare]
    | some after =>
      obtain rfl := Text.after?_eq_some.mp stood
      have goes : after.head?.any continuesName = true := by
        cases ends : goesOn after with
        | true => exact ends
        | false => exact absurd (reference?_eq_some.mpr ⟨after, rfl, proper, fun _ => ends⟩) differs
      simp [replaceBareFrom, stood, goes, replaceBare]

theorem Variable.isProper (portable : Variable) (isBraced : Bool) :
    Reference.IsProper ⟨portable.name, isBraced⟩ := by
  cases portable <;> cases isBraced <;> decide

/-! ### All passes as one substitution -/

/-- No dollar sign in the text is followed by what begins a portable variable, and the last one is followed by
something. -/
def isSettled : List Char → Bool
  | [] => true
  | c :: rest => (c ≠ '$' || rest.head?.any fun next => next ≠ '\x7b' && next ≠ 'G') && isSettled rest

namespace Meaning

/-- Texts that begin with a dollar sign like the variables, and in which no pass finds anything. -/
def IsSettled (meaning : Meaning) : Prop :=
  ∀ portable, (∃ rest, meaning.text portable = '$' :: rest) ∧ isSettled (meaning.text portable) = true

/-- The texts in place of the given variables, in braces or bare. -/
def insertsFor (meaning : Meaning) (portables : List Variable) : Substitution :=
  fun reference => (portables.find? fun portable => portable.name = reference.name).map meaning.text

/-- The texts in place of the portable variables. -/
def inserts (meaning : Meaning) : Substitution := meaning.insertsFor Variable.all

/-- A substitution that puts nothing else than the texts of this meaning. -/
def Puts (meaning : Meaning) (insert? : Substitution) : Prop :=
  ∀ reference insert, insert? reference = some insert →
    ∃ portable, reference.name = portable.name ∧ insert = meaning.text portable

theorem puts_putting (meaning : Meaning) (portable : Variable) (isBraced : Bool) :
    meaning.Puts (Reference.putting ⟨portable.name, isBraced⟩ (meaning.text portable)) := by
  intro reference insert given
  simp only [Reference.putting, Option.ite_none_right_eq_some, Option.some.injEq] at given
  obtain ⟨rfl, rfl⟩ := given
  exact ⟨portable, rfl, rfl⟩

theorem puts_insertsFor (meaning : Meaning) (portables : List Variable) :
    meaning.Puts (meaning.insertsFor portables) := by
  intro reference insert given
  obtain ⟨portable, found, rfl⟩ := Option.map_eq_some_iff.mp given
  have same := List.find?_some found
  exact ⟨portable, (of_decide_eq_true same).symm, rfl⟩

theorem insertsFor_snoc (meaning : Meaning) (portables : List Variable) (portable : Variable) :
    (meaning.insertsFor portables).orElse (meaning.insertsFor [portable]) =
      meaning.insertsFor (portables ++ [portable]) := by
  funext reference
  simp only [Substitution.orElse, insertsFor, List.find?_append, Option.map_or]

variable {meaning : Meaning} {first second : Substitution}

theorem Puts.orElse (puts : meaning.Puts first) (also : meaning.Puts second) :
    meaning.Puts (first.orElse second) := by
  intro reference insert given
  rcases Option.or_eq_some_iff.mp given with given | ⟨-, given⟩
  · exact puts reference insert given
  · exact also reference insert given

theorem Puts.dollars (puts : meaning.Puts first) (settled : meaning.IsSettled) : first.BeginsWithDollars := by
  intro reference insert given
  obtain ⟨portable, -, rfl⟩ := puts reference insert given
  exact (settled portable).1

/-- The variables that are looked for begin with a brace or with the first letter of the portable names. -/
theorem Puts.none_of_head (puts : meaning.Puts first) {reference : Reference} {c : Char} {rest : List Char}
    (begins : reference.text = c :: rest) (brace : c ≠ '\x7b') (letter : c ≠ 'G') : first reference = none := by
  cases given : first reference with
  | none => rfl
  | some insert =>
    obtain ⟨portable, same, -⟩ := puts reference insert given
    obtain ⟨name, isBraced⟩ := reference
    obtain rfl : name = portable.name := same
    cases isBraced with
    | true => exact absurd (List.cons.inj begins).1.symm brace
    | false =>
      have letters : portable.name.head? = some 'G' := by cases portable <;> rfl
      rw [show portable.name = c :: rest from begins] at letters
      exact absurd (Option.some.inj letters) letter

/-- A settled text stays as it is, whatever stands behind it. -/
theorem Puts.substitute_settled (puts : meaning.Puts first) {insert : List Char}
    (settled : isSettled insert = true) (after : List Char) :
    substitute first (insert ++ after) = insert ++ substitute first after := by
  induction insert with
  | nil => rfl
  | cons c rest ih =>
    simp only [isSettled, Bool.and_eq_true] at settled
    have onward := ih settled.2
    by_cases dollar : c = '$'
    · subst dollar
      have follows : rest.head?.any (fun next => next ≠ '\x7b' && next ≠ 'G') = true := by simpa using settled.1
      cases rest with
      | nil => simp at follows
      | cons next rest =>
        simp only [List.head?_cons, Option.any_some, Bool.and_eq_true, decide_eq_true_eq] at follows
        cases read : reference? (next :: rest ++ after) with
        | none =>
          rw [List.cons_append, substitute_unread first read, onward]
          rfl
        | some reference =>
          have none : first reference = none := by
            obtain ⟨behind, begins, proper, -⟩ := reference?_eq_some.mp read
            cases written : reference.text with
            | nil => exact absurd written proper.text_ne_nil
            | cons c name =>
              rw [written] at begins
              obtain rfl : next = c := (List.cons.inj begins).1
              exact puts.none_of_head written follows.1 follows.2
          rw [List.cons_append, substitute_left read none, onward]
          rfl
    · rw [List.cons_append, substitute_plain first dollar, onward, List.cons_append]

theorem Puts.settles (puts : meaning.Puts first) (also : meaning.Puts second) (settled : meaning.IsSettled) :
    first.Settles second := by
  intro reference insert given after
  obtain ⟨portable, -, rfl⟩ := puts reference insert given
  exact also.substitute_settled (settled portable).2 after

theorem Puts.substitute_substitute (puts : meaning.Puts first) (also : meaning.Puts second)
    (settled : meaning.IsSettled) (text : List Char) :
    substitute second (substitute first text) = substitute (first.orElse second) text :=
  Script.substitute_substitute (puts.dollars settled) (puts.settles also settled) text

theorem replaceVariable_eq (settled : meaning.IsSettled) (text : List Char) (portable : Variable) :
    replaceVariable meaning text portable = substitute (meaning.insertsFor [portable]) text := by
  have both : Substitution.orElse (Reference.putting ⟨portable.name, true⟩ (meaning.text portable))
      (Reference.putting ⟨portable.name, false⟩ (meaning.text portable)) = meaning.insertsFor [portable] := by
    funext ⟨name, isBraced⟩
    cases isBraced <;> by_cases same : portable.name = name <;>
      simp [Substitution.orElse, Reference.putting, insertsFor, List.find?, same, eq_comm (a := name)]
  rw [replaceVariable, (isPass_bare (portable.isProper false) _).eq_substitute,
    (isPass_braced (portable.isProper true) _).eq_substitute,
    (meaning.puts_putting portable true).substitute_substitute (meaning.puts_putting portable false) settled, both]

/-- After some variables the others: each pass joins the substitution that has been made. -/
theorem foldl_replaceVariable (settled : meaning.IsSettled) (text : List Char) (done portables : List Variable) :
    portables.foldl (replaceVariable meaning) (substitute (meaning.insertsFor done) text) =
      substitute (meaning.insertsFor (done ++ portables)) text := by
  induction portables generalizing done with
  | nil => simp
  | cons portable portables ih =>
    have joined := (meaning.puts_insertsFor done).substitute_substitute (meaning.puts_insertsFor [portable]) settled
      text
    rw [List.foldl_cons, replaceVariable_eq settled, joined, insertsFor_snoc, ih, List.append_assoc,
      List.singleton_append]

/-- The passes over a script put the texts in place of all portable variables at once. -/
theorem rewriteChars_eq (settled : meaning.IsSettled) (text : List Char) :
    rewriteChars meaning text = substitute meaning.inserts text := by
  have whole := foldl_replaceVariable settled text [] Variable.all
  rwa [substitute_nothing (meaning.insertsFor []) fun _ => rfl] at whole

end Meaning

end Dispatch.Script
