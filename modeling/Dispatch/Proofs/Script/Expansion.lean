import Dispatch.Backend.Script
import Dispatch.Proofs.Text.Search
/-!
How a shell reads the variables of a text, and what comes of a text when something is put in their place.
A variable is a name in braces after a dollar sign, or the longest run of characters that continue a name;
everything else stands for itself. Substitutions that put texts in which the second of them finds nothing to
do are one substitution, made in one pass from left to right.
-/
namespace Dispatch

namespace Script

@[simp] theorem not_continuesName_dollar : continuesName '$' = false := by decide

/-- Whether the text begins with a character that would continue a name in front of it. -/
def goesOn (text : List Char) : Bool := text.head?.any continuesName

/-- A variable as it is written after a dollar sign. -/
structure Reference where
  name : List Char
  isBraced : Bool
  deriving DecidableEq, Repr

namespace Reference

def text (reference : Reference) : List Char :=
  if reference.isBraced then '\x7b' :: reference.name ++ ['\x7d'] else reference.name

/-- A name has at least one character, and nothing else than characters of names. -/
structure IsProper (reference : Reference) : Prop where
  filled : reference.name ≠ []
  plain : ∀ c ∈ reference.name, continuesName c = true

/-- Character by character, as there are too many characters to try them all. -/
instance (reference : Reference) : Decidable reference.IsProper :=
  decidable_of_iff (reference.name ≠ [] ∧ reference.name.all continuesName = true)
    ⟨fun checked => ⟨checked.1, List.all_eq_true.mp checked.2⟩,
      fun proper => ⟨proper.filled, List.all_eq_true.mpr proper.plain⟩⟩

/-- What is read of the text is this variable. -/
structure BeginsText (reference : Reference) (after : List Char) : Prop where
  proper : reference.IsProper
  ends : reference.isBraced = false → goesOn after = false

theorem IsProper.dollarless {reference : Reference} (proper : reference.IsProper) : '$' ∉ reference.text := by
  have plain : '$' ∉ reference.name := fun member => by simpa using proper.plain '$' member
  cases braced : reference.isBraced <;> simp [text, braced, plain]

theorem IsProper.text_ne_nil {reference : Reference} (proper : reference.IsProper) : reference.text ≠ [] := by
  cases braced : reference.isBraced <;> simp [text, braced, proper.filled]

end Reference

/-- The longest run of characters of names, behind a brace or without one. -/
def candidate : List Char → Reference
  | '\x7b' :: inner => ⟨inner.takeWhile continuesName, true⟩
  | text => ⟨text.takeWhile continuesName, false⟩

/-- The variable that a shell reads after a dollar sign: no name is empty, and a brace is closed after it. -/
def reference? (text : List Char) : Option Reference :=
  if (candidate text).name ≠ [] ∧ (candidate text).text <+: text then some (candidate text) else none

theorem takeWhile_name {name : List Char} (plain : ∀ c ∈ name, continuesName c = true) (after : List Char)
    (ends : goesOn after = false) :
    (name ++ after).takeWhile continuesName = name ∧ (name ++ after).dropWhile continuesName = after := by
  rw [List.takeWhile_append_of_pos plain, List.dropWhile_append_of_pos plain]
  cases after with
  | nil => simp
  | cons c rest =>
    have stops : continuesName c = false := by simpa [goesOn] using ends
    simp [stops]

theorem goesOn_dropWhile (text : List Char) : goesOn (text.dropWhile continuesName) = false := by
  induction text with
  | nil => rfl
  | cons c rest ih =>
    by_cases plain : continuesName c = true
    · simpa [plain] using ih
    · simp [plain, goesOn]

/-- A text that goes on begins with a run of characters of names. -/
theorem goesOn_split {text : List Char} (goes : goesOn text = true) : ∃ more behind, text = more ++ behind ∧
    more ≠ [] ∧ (∀ c ∈ more, continuesName c = true) ∧ goesOn behind = false := by
  refine ⟨text.takeWhile continuesName, text.dropWhile continuesName, List.takeWhile_append_dropWhile.symm, ?_,
    List.all_eq_true.mp List.all_takeWhile, goesOn_dropWhile text⟩
  cases text with
  | nil => cases goes
  | cons c rest =>
    have first : continuesName c = true := goes
    simp [first]

theorem candidate_plain (text : List Char) : ∀ c ∈ (candidate text).name, continuesName c = true := by
  unfold candidate
  split <;> exact List.all_eq_true.mp List.all_takeWhile

theorem candidate_bare {text : List Char} (bare : (candidate text).isBraced = false) :
    candidate text = ⟨text.takeWhile continuesName, false⟩ := by
  revert bare
  unfold candidate
  split <;> simp

/-- A bare name is as long as it can be. -/
theorem goesOn_after_candidate {text after : List Char} (bare : (candidate text).isBraced = false)
    (begins : text = (candidate text).text ++ after) : goesOn after = false := by
  have rest : text.dropWhile continuesName = after := by
    rw [candidate_bare bare] at begins
    have whole := List.takeWhile_append_dropWhile (p := continuesName) (l := text)
    exact List.append_cancel_left (whole.trans begins)
  exact rest ▸ goesOn_dropWhile text

/-- A proper variable at the beginning of a text is what is tried there. -/
theorem candidate_text {reference : Reference} {after : List Char} (begins : reference.BeginsText after) :
    candidate (reference.text ++ after) = reference := by
  obtain ⟨⟨filled, plain⟩, ends⟩ := begins
  obtain ⟨name, isBraced⟩ := reference
  cases isBraced with
  | true =>
    have taken := (takeWhile_name plain ('\x7d' :: after) rfl).1
    simpa [Reference.text, candidate] using taken
  | false =>
    have taken := (takeWhile_name plain after (ends rfl)).1
    have other : (name ++ after).head? ≠ some '\x7b' := by
      cases name with
      | nil => exact absurd rfl filled
      | cons c name =>
        rintro ⟨rfl⟩
        exact absurd (plain '\x7b' (by simp)) (by decide)
    unfold candidate
    split
    next same => simp [Reference.text] at same; simp [same] at other
    next => simpa [Reference.text] using taken

/-- What is read is a proper variable that stands at the beginning of the text and does not go on. -/
theorem reference?_eq_some {text : List Char} {reference : Reference} :
    reference? text = some reference ↔ ∃ after, text = reference.text ++ after ∧ reference.BeginsText after := by
  unfold reference?
  constructor
  · intro read
    split at read
    next found =>
      obtain rfl := Option.some.inj read
      obtain ⟨after, begins⟩ := found.2
      exact ⟨after, begins.symm, ⟨found.1, candidate_plain text⟩,
        fun bare => goesOn_after_candidate bare begins.symm⟩
    next => cases read
  · rintro ⟨after, rfl, begins⟩
    rw [candidate_text begins, if_pos ⟨begins.proper.filled, List.prefix_append _ _⟩]

/-! ### Texts in place of variables -/

/-- What is put in the place of which variables. -/
abbrev Substitution := Reference → Option (List Char)

/-- The first `skip` characters belong to a variable that something has been put in place of. -/
def substituteFrom (insert? : Substitution) : (skip : Nat) → List Char → List Char
  | _, [] => []
  | skip + 1, _ :: rest => substituteFrom insert? skip rest
  | 0, c :: rest =>
    match (if c = '$' then reference? rest else none) with
    | none => c :: substituteFrom insert? 0 rest
    | some reference =>
      match insert? reference with
      | none => c :: substituteFrom insert? 0 rest
      | some insert => insert ++ substituteFrom insert? reference.text.length rest

/-- Puts texts in place of variables, in one pass from left to right. -/
def substitute (insert? : Substitution) (text : List Char) : List Char := substituteFrom insert? 0 text

/-- What a text stands for in an environment. -/
def expand (env : List Char → List Char) (text : List Char) : List Char :=
  substitute (fun reference => some (env reference.name)) text

theorem substituteFrom_length (insert? : Substitution) (lead rest : List Char) :
    substituteFrom insert? lead.length (lead ++ rest) = substitute insert? rest := by
  induction lead with
  | nil => rfl
  | cons c lead ih => simpa [substituteFrom] using ih

@[simp] theorem substitute_nil (insert? : Substitution) : substitute insert? [] = [] := rfl

theorem substitute_plain (insert? : Substitution) {c : Char} (plain : c ≠ '$') (rest : List Char) :
    substitute insert? (c :: rest) = c :: substitute insert? rest := by
  simp [substitute, substituteFrom, plain]

theorem substitute_unread (insert? : Substitution) {rest : List Char} (unread : reference? rest = none) :
    substitute insert? ('$' :: rest) = '$' :: substitute insert? rest := by
  simp [substitute, substituteFrom, unread]

theorem substitute_left {insert? : Substitution} {reference : Reference} {rest : List Char}
    (read : reference? rest = some reference) (left : insert? reference = none) :
    substitute insert? ('$' :: rest) = '$' :: substitute insert? rest := by
  simp [substitute, substituteFrom, read, left]

theorem substitute_reference {insert? : Substitution} {reference : Reference} {after insert : List Char}
    (begins : reference.BeginsText after) (given : insert? reference = some insert) :
    substitute insert? ('$' :: (reference.text ++ after)) = insert ++ substitute insert? after := by
  have read := reference?_eq_some.mpr ⟨after, rfl, begins⟩
  have skipped := substituteFrom_length insert? reference.text after
  simp only [substitute, substituteFrom, if_true, read, given]
  rw [skipped, substitute]

/-- The cases in which a text is read: past a dollar sign, with a variable after it or not, and past any other
character. -/
theorem reading_induction {motive : List Char → Prop} (nil : motive [])
    (plain : ∀ c rest, c ≠ '$' → motive rest → motive (c :: rest))
    (unread : ∀ rest, reference? rest = none → motive rest → motive ('$' :: rest))
    (read : ∀ reference after, Reference.BeginsText reference after →
      motive (reference.text ++ after) → motive after → motive ('$' :: (reference.text ++ after)))
    (text : List Char) : motive text := by
  induction size : text.length using Nat.strongRecOn generalizing text with
  | _ size ih =>
    subst size
    cases text with
    | nil => exact nil
    | cons c rest =>
      have shorter := ih rest.length (by simp) rest rfl
      by_cases dollar : c = '$'
      · subst dollar
        cases found : reference? rest with
        | none => exact unread rest found shorter
        | some reference =>
          obtain ⟨after, rfl, begins⟩ := reference?_eq_some.mp found
          have inner := ih after.length (by simp only [List.length_cons, List.length_append]; omega) after rfl
          exact read reference after begins shorter inner
      · exact plain c rest dollar shorter

theorem substitute_nothing (insert? : Substitution) (nothing : ∀ reference, insert? reference = none)
    (text : List Char) : substitute insert? text = text := by
  induction text using reading_induction with
  | nil => rfl
  | plain c rest plain ih => rw [substitute_plain insert? plain, ih]
  | unread rest unread ih => rw [substitute_unread insert? unread, ih]
  | read reference after begins ih =>
    rw [substitute_left (reference?_eq_some.mpr ⟨after, rfl, begins⟩) (nothing reference), ih]

/-- A text without dollar signs is left as it is. -/
theorem substitute_append (insert? : Substitution) {lead : List Char} (dollarless : '$' ∉ lead)
    (rest : List Char) : substitute insert? (lead ++ rest) = lead ++ substitute insert? rest := by
  induction lead with
  | nil => rfl
  | cons c lead ih =>
    simp only [List.mem_cons, not_or] at dollarless
    rw [List.cons_append, substitute_plain insert? (Ne.symm dollarless.1), ih dollarless.2, List.cons_append]

/-! ### Substitutions one after the other -/

/-- Every text that is put somewhere begins with a dollar sign, like the variables. -/
def Substitution.BeginsWithDollars (insert? : Substitution) : Prop :=
  ∀ reference insert, insert? reference = some insert → ∃ rest, insert = '$' :: rest

/-- Text without dollar signs is found where it was found before, and the rest has been substituted. -/
theorem after_substitute {insert? : Substitution} (dollars : insert?.BeginsWithDollars) {lead : List Char}
    (dollarless : '$' ∉ lead) (text : List Char) :
    Text.after? lead (substitute insert? text) = (Text.after? lead text).map (substitute insert?) := by
  induction lead generalizing text with
  | nil => rfl
  | cons a lead ih =>
    simp only [List.mem_cons, not_or] at dollarless
    have other : a ≠ '$' := Ne.symm dollarless.1
    induction text using reading_induction with
    | nil => simp [Text.after?]
    | plain c rest plain =>
      rw [substitute_plain insert? plain, Text.after?, Text.after?]
      split
      · exact ih dollarless.2 rest
      · rfl
    | unread rest unread => simp [substitute_unread insert? unread, Text.after?, other]
    | read reference after begins =>
      cases given : insert? reference with
      | none =>
        rw [substitute_left (reference?_eq_some.mpr ⟨after, rfl, begins⟩) given]
        simp [Text.after?, other]
      | some insert =>
        obtain ⟨rest, rfl⟩ := dollars reference insert given
        rw [substitute_reference begins given]
        simp [Text.after?, other]

theorem goesOn_substitute {insert? : Substitution} (dollars : insert?.BeginsWithDollars) (text : List Char) :
    goesOn (substitute insert? text) = goesOn text := by
  induction text using reading_induction with
  | nil => rfl
  | plain c rest plain => simp [substitute_plain insert? plain, goesOn]
  | unread rest unread => simp [substitute_unread insert? unread, goesOn]
  | read reference after begins =>
    cases given : insert? reference with
    | none =>
      rw [substitute_left (reference?_eq_some.mpr ⟨after, rfl, begins⟩) given]
      simp [goesOn]
    | some insert =>
      obtain ⟨rest, rfl⟩ := dollars reference insert given
      rw [substitute_reference begins given]
      simp [goesOn]

/-- After a dollar sign that stays, the same variable is read as before. -/
theorem reference?_substitute {insert? : Substitution} (dollars : insert?.BeginsWithDollars)
    (text : List Char) : reference? (substitute insert? text) = reference? text := by
  ext reference
  rw [reference?_eq_some, reference?_eq_some]
  constructor
  · rintro ⟨after, same, begins⟩
    have found := after_substitute dollars begins.proper.dollarless text
    rw [Text.after?_eq_some.mpr same] at found
    obtain ⟨former, stood, rfl⟩ := Option.map_eq_some_iff.mp found.symm
    refine ⟨former, Text.after?_eq_some.mp stood, begins.proper, fun bare => ?_⟩
    exact goesOn_substitute dollars former ▸ begins.ends bare
  · rintro ⟨after, rfl, begins⟩
    refine ⟨substitute insert? after, substitute_append insert? begins.proper.dollarless after, begins.proper, ?_⟩
    exact fun bare => (goesOn_substitute dollars after).trans (begins.ends bare)

/-- A substitution finds nothing to do in the texts that another one puts, whatever stands behind them. -/
def Substitution.Settles (first second : Substitution) : Prop :=
  ∀ reference insert, first reference = some insert →
    ∀ after, substitute second (insert ++ after) = insert ++ substitute second after

/-- Both at once: the first has the say where both have one. -/
def Substitution.orElse (first second : Substitution) : Substitution :=
  fun reference => (first reference).or (second reference)

/-- Two passes are one. -/
theorem substitute_substitute {first second : Substitution} (dollars : first.BeginsWithDollars)
    (settled : first.Settles second) (text : List Char) :
    substitute second (substitute first text) = substitute (first.orElse second) text := by
  induction text using reading_induction with
  | nil => rfl
  | plain c rest plain ih =>
    rw [substitute_plain first plain, substitute_plain second plain, ih, substitute_plain _ plain]
  | unread rest unread ih =>
    have still := (reference?_substitute dollars rest).trans unread
    rw [substitute_unread first unread, substitute_unread second still, ih, substitute_unread _ unread]
  | read reference after begins whole ih =>
    have read := reference?_eq_some.mpr ⟨after, rfl, begins⟩
    cases given : first reference with
    | some insert =>
      have both : first.orElse second reference = some insert := by simp [Substitution.orElse, given]
      rw [substitute_reference begins given, settled reference insert given, ih, substitute_reference begins both]
    | none =>
      have same : first.orElse second reference = second reference := by simp [Substitution.orElse, given]
      have still := (reference?_substitute dollars _).trans read
      rw [substitute_left read given]
      cases put : second reference with
      | none => rw [substitute_left still put, whole, substitute_left read (same.trans put)]
      | some insert =>
        have onward : reference.BeginsText (substitute first after) :=
          ⟨begins.proper, fun bare => (goesOn_substitute dollars after).trans (begins.ends bare)⟩
        rw [substitute_append first begins.proper.dollarless, substitute_reference onward put, ih,
          substitute_reference begins (same.trans put)]

end Script

end Dispatch
