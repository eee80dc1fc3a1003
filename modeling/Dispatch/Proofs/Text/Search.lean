import Dispatch.Text.Basic
/-!
What a search finds: a text begins with what is read off its beginning, has a part wherever one is found, and is cut
at the first separator.
-/
namespace Dispatch.Text

theorem after?_eq_some {lead text after : List Char} : after? lead text = some after ↔ text = lead ++ after := by
  induction lead generalizing text with
  | nil => simp [after?]
  | cons a lead ih =>
    cases text with
    | nil => simp [after?]
    | cons c rest =>
      by_cases same : a = c
      · simp [after?, same, ih]
      · simp [after?, same, Ne.symm same]

theorem beginsWith_iff {lead text : List Char} : beginsWith lead text = true ↔ lead <+: text := by
  rw [beginsWith, Option.isSome_iff_exists]
  exact exists_congr fun after => after?_eq_some.trans eq_comm

/-- A part is found exactly where there is one. -/
theorem hasPart_iff {needle text : List Char} : hasPart needle text = true ↔ needle <:+: text := by
  rw [hasPart]
  induction text with
  | nil => cases needle <;> simp [around?]
  | cons c rest ih =>
    rw [around?, List.infix_cons_iff]
    cases found : after? needle (c :: rest) with
    | some after =>
      have begins : needle <+: c :: rest := ⟨after, (after?_eq_some.mp found).symm⟩
      simp [begins]
    | none =>
      have apart : ¬needle <+: c :: rest := by
        rintro ⟨after, same⟩
        rw [after?_eq_some.mpr same.symm] at found
        cases found
      rw [Option.isSome_map, ih]
      simp [apart]

theorem cut?_of_absent {separator : Char} {text : List Char} (absent : separator ∉ text) :
    cut? separator text = none := by
  induction text with
  | nil => rfl
  | cons c rest ih =>
    simp only [List.mem_cons, not_or] at absent
    rw [cut?, if_neg (Ne.symm absent.1), ih absent.2]
    rfl

theorem cut?_eq_some {separator : Char} {text before after : List Char} :
    cut? separator text = some (before, after) ↔ text = before ++ separator :: after ∧ separator ∉ before := by
  induction text generalizing before with
  | nil => simp [cut?]
  | cons c rest ih =>
    rw [cut?]
    split
    next same =>
      subst same
      cases before with
      | nil => simp [eq_comm]
      | cons other before =>
        simp only [Option.some.injEq, Prod.mk.injEq, List.cons_append, List.cons.injEq, List.mem_cons, not_or]
        constructor
        · rintro ⟨same, -⟩
          cases same
        · rintro ⟨⟨same, -⟩, apart, -⟩
          exact absurd same apart
    next apart =>
      cases before with
      | nil => simp [apart]
      | cons other before =>
        simp only [Option.map_eq_some_iff, Prod.exists, Prod.mk.injEq, List.cons.injEq, List.cons_append,
          List.mem_cons, not_or]
        constructor
        · rintro ⟨front, back, found, ⟨rfl, rfl⟩, rfl⟩
          obtain ⟨rfl, absent⟩ := ih.mp found
          exact ⟨⟨rfl, rfl⟩, Ne.symm apart, absent⟩
        · rintro ⟨⟨rfl, rfl⟩, -, absent⟩
          exact ⟨before, after, ih.mpr ⟨rfl, absent⟩, ⟨rfl, rfl⟩, rfl⟩

/-- The first separator stays the first. -/
theorem cut?_append {separator : Char} {more : List Char} (absent : separator ∉ more) (text : List Char) :
    cut? separator (text ++ more) = (cut? separator text).map fun (before, after) => (before, after ++ more) := by
  induction text with
  | nil => exact cut?_of_absent absent
  | cons c rest ih =>
    rw [List.cons_append, cut?, cut?]
    split
    next => rfl
    next =>
      rw [ih]
      cases cut? separator rest <;> rfl

/-- A text without words is blank. -/
theorem words_eq_nil {text : List Char} : words text = [] ↔ ∀ c ∈ text, isBlank c = true := by
  fun_induction words text with
  | case1 => simp
  | case2 c blank => simp [blank]
  | case3 c filled => simpa using filled
  | case4 c d rest blank ih => simpa [blank] using ih
  | case5 c d rest filled => simp [filled]
  | case6 c d rest filled => simp [filled]
  | case7 c d rest filled => simp [filled]

end Dispatch.Text
