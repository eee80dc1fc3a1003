import Dispatch.Proofs.Store.Rows
import Dispatch.Store.Call
import Mathlib.Data.List.Flatten
import Mathlib.Data.List.Perm.Subperm
/-!
Counters, the rows that hold their values, and the transactions that rows come from. A value that has been taken is on
one row at most or waits in one open transaction, and every call to the store leaves it so; in particular a row that
has appeared stays, and only stamping it changes it.
-/
namespace Dispatch.Store

/-- A value of the counter of a kind. -/
abbrev Slot : Type := Identifier.Kind × Nat

def Placeholder.slot (row : Placeholder) : Slot := (row.kind, row.key)

/-- The row of a value on which nothing is stamped. -/
def Placeholder.blank (slot : Slot) : Placeholder := { kind := slot.1, key := slot.2, id := none }

@[simp]
theorem Placeholder.slot_blank (slot : Slot) : (blank slot).slot = slot := rfl

theorem Placeholder.slot_eq {row : Placeholder} {kind : Identifier.Kind} {key : Nat} :
    row.slot = (kind, key) ↔ row.kind = kind ∧ row.key = key := Prod.ext_iff

/-- The transaction after a reservation in it. -/
def Transaction.reserving (transaction : Transaction) (slot : Slot) : Transaction :=
  { transaction with reserved := transaction.reserved ++ [slot] }

/-- What counters, their rows and transactions are for. -/
def Call.isOfCounters : Call → Bool
  | .openTransaction | .commit _ | .rollback _ | .reserve .. | .assign .. => true
  | _ => false

namespace Tables

/-- The values whose rows have appeared. -/
def slots (tables : Tables) : List Slot := tables.placeholders.map Placeholder.slot

/-- The values whose rows are to appear with a transaction. -/
def waiting (tables : Tables) : List Slot := tables.transactions.flatMap Transaction.reserved

/-- No value is in two places, none is above its counter, and transactions have numbers of their own. -/
structure HasSoundCounters (tables : Tables) : Prop where
  distinct : (tables.slots ++ tables.waiting).Nodup
  drawn : ∀ slot ∈ tables.slots ++ tables.waiting, slot.2 ≤ tables.counters slot.1
  numbers : (tables.transactions.map Transaction.number).Nodup
  opened : ∀ transaction ∈ tables.transactions, transaction.number ≤ tables.lastTransaction

/-- Counters, rows and transactions are the same in both. -/
structure CountsLike (tables next : Tables) : Prop where
  counters : next.counters = tables.counters
  placeholders : next.placeholders = tables.placeholders
  transactions : next.transactions = tables.transactions
  lastTransaction : next.lastTransaction = tables.lastTransaction

variable {tables next : Tables} {number key : Nat} {kind : Identifier.Kind} {id : String} {transaction : Transaction}

theorem CountsLike.refl (tables : Tables) : tables.CountsLike tables := ⟨rfl, rfl, rfl, rfl⟩

/-- Tables without rows and transactions have nothing that could be wrong. -/
theorem hasSoundCounters_of_empty (rows : tables.placeholders = []) (idle : tables.transactions = []) :
    tables.HasSoundCounters := by
  constructor <;> simp [slots, waiting, rows, idle]

theorem HasSoundCounters.of_countsLike (sound : tables.HasSoundCounters) (same : tables.CountsLike next) :
    next.HasSoundCounters := by
  constructor
  · rw [slots, waiting, same.placeholders, same.transactions]
    exact sound.distinct
  · rw [slots, waiting, same.placeholders, same.transactions, same.counters]
    exact sound.drawn
  · rw [same.transactions]
    exact sound.numbers
  · rw [same.transactions, same.lastTransaction]
    exact sound.opened

/-- Where no value is added all values stay as sound as they were. -/
theorem HasSoundCounters.of_subperm (sound : tables.HasSoundCounters) (counters : next.counters = tables.counters)
    (fewer : (next.slots ++ next.waiting).Subperm (tables.slots ++ tables.waiting))
    (numbers : (next.transactions.map Transaction.number).Nodup)
    (opened : ∀ transaction ∈ next.transactions, transaction.number ≤ next.lastTransaction) :
    next.HasSoundCounters := by
  constructor
  · obtain ⟨values, same, inside⟩ := fewer
    exact same.nodup_iff.mp (sound.distinct.sublist inside)
  · intro slot member
    rw [counters]
    exact sound.drawn slot (fewer.subset member)
  · exact numbers
  · exact opened

theorem transaction?_some (found : tables.transaction? number = some transaction) :
    transaction ∈ tables.transactions ∧ transaction.number = number :=
  ⟨List.mem_of_find?_eq_some found, by simpa using List.find?_some found⟩

theorem transaction?_eq_none (later : tables.HasSoundCounters) (above : tables.lastTransaction < number) :
    tables.transaction? number = none := by
  apply List.find?_eq_none.mpr
  intro transaction member
  have bound := later.opened transaction member
  have different : transaction.number ≠ number := by omega
  simpa using different

theorem transaction?_endTransaction (tables : Tables) (ended number : Nat) :
    (tables.endTransaction ended).transaction? number =
      if number = ended then none else tables.transaction? number := by
  unfold endTransaction transaction?
  rw [List.find?_filter]
  split
  next same =>
    subst same
    simp
  next different =>
    congr 1
    funext transaction
    by_cases same : transaction.number = number
    · simp [same, different]
    · simp [same]

/-- An open transaction stands apart from all the others. -/
theorem transactions_perm (sound : tables.HasSoundCounters)
    (found : tables.transaction? number = some transaction) :
    tables.transactions.Perm (transaction :: (tables.endTransaction number).transactions) := by
  obtain ⟨member, rfl⟩ := transaction?_some found
  have numbers := sound.numbers
  unfold endTransaction
  dsimp only
  generalize tables.transactions = running at member numbers
  induction running with
  | nil => cases member
  | cons first rest ih =>
    have apart : first.number ∉ rest.map Transaction.number := (List.nodup_cons.mp numbers).1
    rcases List.mem_cons.mp member with rfl | later
    · have others : rest.filter (fun other => other.number ≠ transaction.number) = rest := by
        apply List.filter_eq_self.mpr
        intro other present
        have different : other.number ≠ transaction.number := by
          intro same
          exact apart (same ▸ List.mem_map_of_mem present)
        simpa using different
      rw [List.filter_cons_of_neg (by simp), others]
    · have different : first.number ≠ transaction.number := by
        intro same
        exact apart (same ▸ List.mem_map_of_mem later)
      rw [List.filter_cons_of_pos (by simpa using different)]
      exact ((ih later (List.nodup_cons.mp numbers).2).cons first).trans (.swap _ _ _)

theorem waiting_perm (sound : tables.HasSoundCounters) (found : tables.transaction? number = some transaction) :
    tables.waiting.Perm (transaction.reserved ++ (tables.endTransaction number).waiting) := by
  have apart := (transactions_perm sound found).flatMap_right Transaction.reserved
  rwa [List.flatMap_cons] at apart

/-- What becomes of the transactions that stay open when one ends. -/
theorem HasSoundCounters.numbers_endTransaction (sound : tables.HasSoundCounters) (number : Nat) :
    ((tables.endTransaction number).transactions.map Transaction.number).Nodup ∧
      ∀ transaction ∈ (tables.endTransaction number).transactions, transaction.number ≤ tables.lastTransaction := by
  have inside : (tables.endTransaction number).transactions.Sublist tables.transactions := List.filter_sublist
  exact ⟨sound.numbers.sublist (inside.map _), fun transaction member =>
    sound.opened transaction (inside.subset member)⟩

section Open

theorem transaction?_openTransaction (sound : tables.HasSoundCounters) (number : Nat) :
    tables.openTransaction.2.transaction? number =
      if number = tables.lastTransaction + 1 then some { number, reserved := [] }
      else tables.transaction? number := by
  have joined : tables.openTransaction.2.transaction? number = (tables.transaction? number).or
      ([{ number := tables.lastTransaction + 1, reserved := [] }].find? fun transaction =>
        transaction.number == number) := List.find?_append
  rw [joined]
  split
  next same =>
    rw [transaction?_eq_none sound (by omega), same]
    simp
  next different =>
    have apart : (tables.lastTransaction + 1 == number) = false := by simpa using Ne.symm different
    simp [apart]

theorem HasSoundCounters.openTransaction (sound : tables.HasSoundCounters) :
    tables.openTransaction.2.HasSoundCounters := by
  apply sound.of_subperm
  · rfl
  · have values : tables.openTransaction.2.waiting = tables.waiting := by
      simp [Tables.openTransaction, waiting]
    rw [values]
    exact .refl _
  · simp only [Tables.openTransaction, List.map_append, List.map_cons, List.map_nil]
    apply sound.numbers.append (List.nodup_singleton _)
    intro other member last
    obtain ⟨transaction, present, rfl⟩ := List.mem_map.mp member
    have bound := sound.opened transaction present
    rw [List.mem_singleton] at last
    omega
  · intro transaction member
    rcases List.mem_append.mp member with earlier | last
    · exact Nat.le_succ_of_le (sound.opened transaction earlier)
    · rw [List.mem_singleton.mp last]
      exact Nat.le_refl _

end Open

section Reserve

/-- The tables after a value has been reserved in a transaction. -/
def afterReserve (tables : Tables) (number : Nat) (kind : Identifier.Kind) : Tables :=
  let key := tables.counters kind + 1
  { tables with
    counters := fun other => if other = kind then key else tables.counters other
    transactions := tables.transactions.map fun transaction =>
      if transaction.number = number then transaction.reserving (kind, key) else transaction }

theorem reserve_eq (found : tables.transaction? number = some transaction) (kind : Identifier.Kind) :
    tables.reserve number kind = (.ok (tables.counters kind + 1), tables.afterReserve number kind) := by
  unfold reserve
  rw [found]
  rfl

theorem transaction?_afterReserve (tables : Tables) (number : Nat) (kind : Identifier.Kind) (wanted : Nat) :
    (tables.afterReserve number kind).transaction? wanted =
      if wanted = number then
        (tables.transaction? wanted).map (Transaction.reserving · (kind, tables.counters kind + 1))
      else tables.transaction? wanted := by
  have sameNumber (transaction : Transaction) :
      (if transaction.number = number then transaction.reserving (kind, tables.counters kind + 1)
        else transaction).number = transaction.number := by
    split <;> rfl
  unfold transaction? afterReserve
  rw [List.find?_map]
  simp only [Function.comp_def, sameNumber]
  cases found : tables.transactions.find? fun transaction => transaction.number == wanted with
  | none => simp
  | some transaction =>
    have same : transaction.number = wanted := by simpa using List.find?_some found
    rw [Option.map_some, same]
    split <;> rfl

theorem counters_afterReserve_le (tables : Tables) (number : Nat) (kind other : Identifier.Kind) :
    tables.counters other ≤ (tables.afterReserve number kind).counters other := by
  simp only [afterReserve]
  split
  next same =>
    rw [same]
    exact Nat.le_succ _
  next => exact Nat.le_refl _

/-- The value that is reserved joins those that wait. -/
theorem waiting_afterReserve (sound : tables.HasSoundCounters)
    (found : tables.transaction? number = some transaction) (kind : Identifier.Kind) :
    (tables.afterReserve number kind).waiting.Perm ((kind, tables.counters kind + 1) :: tables.waiting) := by
  obtain ⟨_, rfl⟩ := transaction?_some found
  let slot : Slot := (kind, tables.counters kind + 1)
  let reserving (other : Transaction) : Transaction :=
    if other.number = transaction.number then other.reserving slot else other
  have others : (tables.endTransaction transaction.number).transactions.map reserving =
      (tables.endTransaction transaction.number).transactions := by
    calc (tables.endTransaction transaction.number).transactions.map reserving
      _ = (tables.endTransaction transaction.number).transactions.map id := by
        apply List.map_congr_left
        intro other member
        have different : other.number ≠ transaction.number := by simpa using (List.mem_filter.mp member).2
        exact if_neg different
      _ = (tables.endTransaction transaction.number).transactions := List.map_id _
  have moved := (transactions_perm sound found).map reserving
  rw [List.map_cons, others, show reserving transaction = transaction.reserving slot from if_pos rfl] at moved
  have added := moved.flatMap_right Transaction.reserved
  rw [List.flatMap_cons] at added
  have front : (transaction.reserved ++ [slot] ++ (tables.endTransaction transaction.number).waiting).Perm
      (slot :: (transaction.reserved ++ (tables.endTransaction transaction.number).waiting)) := by
    rw [List.append_assoc]
    exact List.perm_middle
  exact added.trans (front.trans ((waiting_perm sound found).symm.cons slot))

theorem HasSoundCounters.afterReserve (sound : tables.HasSoundCounters)
    (found : tables.transaction? number = some transaction) (kind : Identifier.Kind) :
    (tables.afterReserve number kind).HasSoundCounters := by
  have values : ((tables.afterReserve number kind).slots ++ (tables.afterReserve number kind).waiting).Perm
      ((kind, tables.counters kind + 1) :: (tables.slots ++ tables.waiting)) :=
    ((waiting_afterReserve sound found kind).append_left _).trans List.perm_middle
  have fresh : (kind, tables.counters kind + 1) ∉ tables.slots ++ tables.waiting := by
    intro member
    have bound := sound.drawn _ member
    dsimp only at bound
    omega
  have sameNumbers : (tables.afterReserve number kind).transactions.map Transaction.number =
      tables.transactions.map Transaction.number := by
    simp only [Tables.afterReserve, List.map_map]
    apply List.map_congr_left
    intro transaction _
    rw [Function.comp_apply]
    split <;> rfl
  constructor
  · exact values.nodup_iff.mpr (List.nodup_cons.mpr ⟨fresh, sound.distinct⟩)
  · intro slot member
    rcases List.mem_cons.mp (values.mem_iff.mp member) with rfl | earlier
    · simp [Tables.afterReserve]
    · exact Nat.le_trans (sound.drawn slot earlier) (counters_afterReserve_le tables number kind slot.1)
  · rw [sameNumbers]
    exact sound.numbers
  · intro transaction member
    have present := List.mem_map_of_mem (f := Transaction.number) member
    rw [sameNumbers] at present
    obtain ⟨other, stored, same⟩ := List.mem_map.mp present
    rw [← same]
    exact sound.opened other stored

end Reserve

section Commit

theorem addPlaceholder_of_absent {rows : List Placeholder} (absent : (kind, key) ∉ rows.map Placeholder.slot) :
    addPlaceholder rows kind key = rows ++ [.blank (kind, key)] := by
  have others : rows.filter (fun row => !(row.kind == kind && row.key == key)) = rows := by
    apply List.filter_eq_self.mpr
    intro row member
    have different : row.slot ≠ (kind, key) := by
      intro same
      exact absent (same ▸ List.mem_map_of_mem member)
    rw [Ne, Placeholder.slot_eq, not_and_or] at different
    simpa using different
  rw [addPlaceholder, others]
  rfl

/-- Rows for values that have none yet are put after the others. -/
theorem foldl_addPlaceholder {reserved : List Slot} {rows : List Placeholder}
    (fresh : (rows.map Placeholder.slot ++ reserved).Nodup) :
    reserved.foldl (fun rows (kind, key) => addPlaceholder rows kind key) rows =
      rows ++ reserved.map Placeholder.blank := by
  induction reserved generalizing rows with
  | nil => simp
  | cons slot rest ih =>
    have absent : slot ∉ rows.map Placeholder.slot := by
      intro member
      exact (List.nodup_append.mp fresh).2.2 slot member slot (by simp) rfl
    have later : ((rows ++ [Placeholder.blank slot]).map Placeholder.slot ++ rest).Nodup := by
      simpa using fresh
    calc (slot :: rest).foldl (fun rows (kind, key) => addPlaceholder rows kind key) rows
      _ = rest.foldl (fun rows (kind, key) => addPlaceholder rows kind key) (addPlaceholder rows slot.1 slot.2) := rfl
      _ = rest.foldl (fun rows (kind, key) => addPlaceholder rows kind key) (rows ++ [.blank slot]) := by
        rw [addPlaceholder_of_absent absent]
      _ = rows ++ [.blank slot] ++ rest.map Placeholder.blank := ih later
      _ = rows ++ (slot :: rest).map Placeholder.blank := by simp

/-- What a commit comes to: the rows reserved in the transaction appear, all of them blank. -/
theorem commit_eq (sound : tables.HasSoundCounters) (found : tables.transaction? number = some transaction) :
    tables.commit number = (.ok (), { tables.endTransaction number with
      placeholders := tables.placeholders ++ transaction.reserved.map Placeholder.blank }) := by
  have fresh : (tables.slots ++ transaction.reserved).Nodup := by
    have all := ((waiting_perm sound found).append_left tables.slots).nodup_iff.mp sound.distinct
    rw [← List.append_assoc] at all
    exact (List.nodup_append.mp all).1
  unfold commit
  rw [found]
  dsimp only
  rw [foldl_addPlaceholder fresh]

theorem rollback_eq (found : tables.transaction? number = some transaction) :
    tables.rollback number = (.ok (), tables.endTransaction number) := by
  unfold rollback
  rw [found]

theorem HasSoundCounters.commit (sound : tables.HasSoundCounters)
    (found : tables.transaction? number = some transaction) : (tables.commit number).2.HasSoundCounters := by
  rw [commit_eq sound found]
  apply sound.of_subperm
  · rfl
  · apply List.Perm.subperm
    have same : tables.slots ++ transaction.reserved ++ (tables.endTransaction number).waiting =
        tables.slots ++ (transaction.reserved ++ (tables.endTransaction number).waiting) := List.append_assoc _ _ _
    simp only [slots, List.map_append, List.map_map, Function.comp_def, Placeholder.slot_blank, List.map_id']
    exact (List.Perm.of_eq same).trans ((waiting_perm sound found).symm.append_left _)
  · exact (sound.numbers_endTransaction number).1
  · exact (sound.numbers_endTransaction number).2

theorem HasSoundCounters.rollback (sound : tables.HasSoundCounters)
    (found : tables.transaction? number = some transaction) : (tables.rollback number).2.HasSoundCounters := by
  rw [rollback_eq found]
  apply sound.of_subperm
  · rfl
  · apply List.Sublist.subperm
    exact List.Sublist.append_left (List.filter_sublist.flatMap _) _
  · exact (sound.numbers_endTransaction number).1
  · exact (sound.numbers_endTransaction number).2

end Commit

section Assign

/-- The row after an identifier has been stamped on the row of a value. -/
def stamp (kind : Identifier.Kind) (key : Nat) (id : String) (row : Placeholder) : Placeholder :=
  if row.kind = kind ∧ row.key = key then { row with id := some id } else row

@[simp]
theorem slot_stamp (kind : Identifier.Kind) (key : Nat) (id : String) (row : Placeholder) :
    (stamp kind key id row).slot = row.slot := by
  unfold stamp
  split <;> rfl

theorem assign_eq (member : (kind, key) ∈ tables.slots) (id : String) :
    tables.assign kind key id =
      (.ok (), { tables with placeholders := tables.placeholders.map (stamp kind key id) }) := by
  obtain ⟨row, present, same⟩ := List.mem_map.mp member
  unfold assign
  rw [if_pos]
  · rfl
  · rw [List.any_eq_true]
    exact ⟨row, present, by simpa using Placeholder.slot_eq.mp same⟩

theorem assign_of_absent (absent : (kind, key) ∉ tables.slots) (id : String) :
    tables.assign kind key id = (.error (.missing kind.table (toString key)), tables) := by
  unfold assign
  rw [if_neg]
  intro present
  obtain ⟨row, member, same⟩ := List.any_eq_true.mp present
  have slot : row.slot = (kind, key) := Placeholder.slot_eq.mpr (by simpa using same)
  exact absent (slot ▸ List.mem_map_of_mem member)

theorem slots_assign (tables : Tables) (kind : Identifier.Kind) (key : Nat) (id : String) :
    (tables.assign kind key id).2.slots = tables.slots := by
  by_cases member : (kind, key) ∈ tables.slots
  · rw [assign_eq member]
    simp [slots, Function.comp_def]
  · rw [assign_of_absent member]

theorem HasSoundCounters.assign (sound : tables.HasSoundCounters) (kind : Identifier.Kind) (key : Nat) (id : String) :
    (tables.assign kind key id).2.HasSoundCounters := by
  by_cases member : (kind, key) ∈ tables.slots
  · have slots := slots_assign tables kind key id
    rw [assign_eq member] at slots ⊢
    apply sound.of_subperm
    · rfl
    · rw [slots]
      exact .refl _
    · exact sound.numbers
    · exact sound.opened
  · rw [assign_of_absent member]
    exact sound

end Assign

/-- Calls that are for something else leave counters, rows and transactions alone. -/
theorem answer_countsLike (tables : Tables) {call : Call} (other : call.isOfCounters = false) :
    tables.CountsLike (tables.answer call).2 := by
  cases call with
  | openTransaction | commit | rollback | reserve | assign => cases other
  | isTaken | findUser | insertLocalAccount | findLocalAccount | insertAuthAccount | authAccountsOf |
    setAuthAccounts | findSession | findSessionWithId | activeSessions | insertEntry | entriesOf | findJob |
    jobsOf | unfinishedJobs | findAuthSystem | authSystems => exact ⟨rfl, rfl, rfl, rfl⟩
  | insertUser | insertSession | updateEntry | insertJob | updateJob | insertAuthSystem | updateAuthSystem =>
    simp only [answer, insertUser, insertSession, updateEntry, insertJob, updateJob, insertAuthSystem,
      updateAuthSystem]
    split <;> exact ⟨rfl, rfl, rfl, rfl⟩
  | updateSession | touchSession | transitionJob =>
    simp only [answer, updateSession, touchSession, transitionJob]
    split
    next => exact ⟨rfl, rfl, rfl, rfl⟩
    next => split <;> exact ⟨rfl, rfl, rfl, rfl⟩

/-- Every call to the store keeps counters sound. -/
theorem HasSoundCounters.answer (sound : tables.HasSoundCounters) (call : Call) :
    (tables.answer call).2.HasSoundCounters := by
  cases call with
  | openTransaction => exact sound.openTransaction
  | commit number =>
    cases found : tables.transaction? number with
    | some transaction => exact sound.commit found
    | none => simpa only [Tables.answer, Tables.commit, found] using sound
  | rollback number =>
    cases found : tables.transaction? number with
    | some transaction => exact sound.rollback found
    | none => simpa only [Tables.answer, Tables.rollback, found] using sound
  | reserve number kind =>
    cases found : tables.transaction? number with
    | some transaction =>
      simp only [Tables.answer, reserve_eq found]
      exact sound.afterReserve found kind
    | none => simpa only [Tables.answer, Tables.reserve, found] using sound
  | assign kind key id => exact sound.assign kind key id
  | _ => exact sound.of_countsLike (answer_countsLike tables rfl)

/-- No counter goes back. -/
theorem counters_le_answer (tables : Tables) (call : Call) (kind : Identifier.Kind) :
    tables.counters kind ≤ (tables.answer call).2.counters kind := by
  cases call with
  | openTransaction => exact Nat.le_refl _
  | commit | rollback | assign =>
    simp only [answer, commit, rollback, assign]
    split <;> exact Nat.le_refl _
  | reserve number other =>
    cases found : tables.transaction? number with
    | some transaction =>
      simp only [answer, reserve_eq found]
      exact counters_afterReserve_le tables number other kind
    | none => simp only [answer, reserve, found, Nat.le_refl]
  | _ => exact Nat.le_of_eq (congrFun (answer_countsLike tables rfl).counters kind).symm

/-- Rows stay, and only stamping changes one. -/
theorem mem_placeholders_answer (sound : tables.HasSoundCounters) {row : Placeholder}
    (member : row ∈ tables.placeholders) {call : Call}
    (other : ∀ id, call ≠ .assign row.kind row.key id) : row ∈ (tables.answer call).2.placeholders := by
  cases call with
  | openTransaction => exact member
  | commit number =>
    cases found : tables.transaction? number with
    | some transaction =>
      simp only [Tables.answer, commit_eq sound found]
      exact List.mem_append_left _ member
    | none => simpa only [Tables.answer, Tables.commit, found] using member
  | rollback number =>
    simp only [Tables.answer, Tables.rollback]
    split <;> exact member
  | reserve number kind =>
    simp only [Tables.answer, Tables.reserve]
    split <;> exact member
  | assign kind key id =>
    by_cases stored : (kind, key) ∈ tables.slots
    · simp only [Tables.answer, assign_eq stored]
      have different : ¬(row.kind = kind ∧ row.key = key) := by
        rintro ⟨rfl, rfl⟩
        exact other id rfl
      exact List.mem_map.mpr ⟨row, member, if_neg different⟩
    · simpa only [Tables.answer, assign_of_absent stored] using member
  | _ =>
    rw [(answer_countsLike tables rfl).placeholders]
    exact member

/-- A value whose row has appeared keeps it. -/
theorem slots_subset_answer (sound : tables.HasSoundCounters) (call : Call) :
    tables.slots ⊆ (tables.answer call).2.slots := by
  intro slot member
  by_cases assigning : ∃ kind key id, call = .assign kind key id
  · obtain ⟨kind, key, id, rfl⟩ := assigning
    exact (slots_assign tables kind key id).symm ▸ member
  · obtain ⟨row, present, rfl⟩ := List.mem_map.mp member
    apply List.mem_map_of_mem
    apply mem_placeholders_answer sound present
    intro id same
    exact assigning ⟨_, _, id, same⟩

end Tables

end Dispatch.Store
