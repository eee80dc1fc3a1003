import Dispatch.Store.Tables
import Mathlib.Data.List.Nodup
/-!
Rows with a key, as every table keeps them: what is found under a key, and what putting a row in its place or in the
place of another changes.
-/
namespace Dispatch.Store.Tables

section Keys

variable {α κ : Type} [BEq κ] [LawfulBEq κ] (key : α → κ) {row : α} {rows : List α} {wanted : κ}

theorem find?_key_some (found : rows.find? (fun other => key other == wanted) = some row) :
    row ∈ rows ∧ key row = wanted :=
  ⟨List.mem_of_find?_eq_some found, by simpa using List.find?_some found⟩

theorem find?_key_none (absent : rows.find? (fun other => key other == wanted) = none) :
    ∀ other ∈ rows, key other ≠ wanted := by
  simpa using absent

/-- Under distinct keys each row is the one that is found. -/
theorem find?_key_of_mem (distinct : (rows.map key).Nodup) (member : row ∈ rows) :
    rows.find? (fun other => key other == key row) = some row := by
  have present : (rows.find? fun other => key other == key row).isSome = true :=
    List.find?_isSome.mpr ⟨row, member, by simp⟩
  obtain ⟨found, same⟩ := Option.isSome_iff_exists.mp present
  obtain ⟨foundMember, sameKey⟩ := find?_key_some key same
  rw [same, List.inj_on_of_nodup_map distinct foundMember member sameKey]

end Keys

variable {α β : Type} (key : α → String) {row : α} {rows : List α} {wanted : String}

/-- A row in the place of the one with its key is found where that one was. -/
theorem find?_replace (row : α) (rows : List α) (wanted : String) :
    (rows.map fun other => if key other = key row then row else other).find? (fun other => key other == wanted) =
      if key row = wanted then (rows.find? fun other => key other == wanted).map fun _ => row
      else rows.find? fun other => key other == wanted := by
  have sameKey (other : α) : key (if key other = key row then row else other) = key other := by
    split
    next same => exact same.symm
    next => rfl
  rw [List.find?_map]
  simp only [Function.comp_def, sameKey]
  cases present : rows.find? fun other => key other == wanted with
  | none => simp
  | some other => by_cases same : key row = wanted <;> simp [same, (find?_key_some key present).2, eq_comm]

/-- A column that is the same in the new row is the same in all rows. -/
theorem map_replace {κ : Type} [DecidableEq κ] (key : α → κ) (column : α → β)
    (same : ∀ other ∈ rows, key other = key row → column other = column row) :
    (rows.map fun other => if key other = key row then row else other).map column = rows.map column := by
  rw [List.map_map]
  refine List.map_congr_left fun other member => ?_
  rw [Function.comp_apply]
  split
  next sameKey => exact (same other member sameKey).symm
  next => rfl

/-- Under distinct keys a row stands where the one with its key stood. -/
theorem replace_append {κ : Type} [DecidableEq κ] (key : α → κ) {front back : List α} {old : α}
    (distinct : ((front ++ old :: back).map key).Nodup) (same : key row = key old) :
    ((front ++ old :: back).map fun other => if key other = key row then row else other) = front ++ row :: back := by
  rw [List.map_append, List.map_cons, List.nodup_append] at distinct
  obtain ⟨-, later, apart⟩ := distinct
  have others {rows : List α} (different : ∀ other ∈ rows, key other ≠ key row) :
      (rows.map fun other => if key other = key row then row else other) = rows :=
    (List.map_congr_left fun other member => if_neg (different other member)).trans (List.map_id' rows)
  have before : ∀ other ∈ front, key other ≠ key row := fun other member =>
    same ▸ apart _ (List.mem_map_of_mem member) _ List.mem_cons_self
  have after : ∀ other ∈ back, key other ≠ key row := fun other member sameKey =>
    (List.nodup_cons.mp later).1 (List.mem_map.mpr ⟨other, member, sameKey.trans same⟩)
  rw [List.map_append, List.map_cons, others before, others after, if_pos same.symm]

/-- A new value at the end of a column without duplicates. -/
theorem nodup_map_append {column : α → String} (distinct : (rows.map column).Nodup)
    (absent : ∀ other ∈ rows, column other ≠ column row) : ((rows ++ [row]).map column).Nodup := by
  rw [List.map_append, List.nodup_append]
  refine ⟨distinct, by simp, fun value member last isLast => ?_⟩
  obtain ⟨other, present, rfl⟩ := List.mem_map.mp member
  obtain rfl : last = column row := by simpa using isLast
  exact absent other present

/-- Putting a row in its place adds it and nothing else. -/
theorem insertInOrder_perm (row : α) (rows : List α) : (insertInOrder key row rows).Perm (row :: rows) := by
  induction rows with
  | nil => exact .refl _
  | cons other rest ih =>
    rw [insertInOrder]
    split
    next => exact .refl _
    next => exact (ih.cons other).trans (.swap row other rest)

/-- Putting a row in its place is of no concern to rows of another kind. -/
theorem filter_insertInOrder {wants : α → Bool} (other : wants row = false) (rows : List α) :
    (insertInOrder key row rows).filter wants = rows.filter wants := by
  induction rows with
  | nil => simp [insertInOrder, other]
  | cons first rest ih =>
    rw [insertInOrder]
    split
    next => simp [other]
    next => rw [List.filter_cons, List.filter_cons, ih]

/-- Nor is putting a row in the place of one that is not of that kind either. -/
theorem filter_replace {κ : Type} [DecidableEq κ] (key : α → κ) {wants : α → Bool} (other : wants row = false)
    (replaced : ∀ old ∈ rows, key old = key row → wants old = false) :
    (rows.map fun old => if key old = key row then row else old).filter wants = rows.filter wants := by
  induction rows with
  | nil => rfl
  | cons first rest ih =>
    have later := ih fun old member => replaced old (List.mem_cons_of_mem first member)
    rw [List.map_cons]
    by_cases same : key first = key row
    · rw [if_pos same, List.filter_cons_of_neg (by simp [other]), later,
        List.filter_cons_of_neg (by simp [replaced first List.mem_cons_self same])]
    · rw [if_neg same, List.filter_cons, List.filter_cons, later]

/-- A row with a new key is found under it, and all others as before. -/
theorem find?_insertInOrder (absent : ∀ other ∈ rows, key other ≠ key row) (wanted : String) :
    (insertInOrder key row rows).find? (fun other => key other == wanted) =
      if key row = wanted then some row else rows.find? fun other => key other == wanted := by
  induction rows with
  | nil => by_cases same : key row = wanted <;> simp [insertInOrder, same]
  | cons other rest ih =>
    have later := ih fun further member => absent further (by simp [member])
    rw [insertInOrder]
    split
    next => by_cases same : key row = wanted <;> simp [same]
    next =>
      rw [List.find?_cons, List.find?_cons, later]
      by_cases same : key row = wanted
      · have apart : (key other == wanted) = false := by simpa [same] using absent other (by simp)
        simp only [same, if_true, apart]
      · simp [same]

end Dispatch.Store.Tables
