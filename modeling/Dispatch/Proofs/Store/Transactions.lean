import Dispatch.Proofs.Server.Shared
import Dispatch.Proofs.Store.Counters
/-!
Transactions of any number of clients at once. What has happened is read off the trace: which transactions have been
opened and how they ended, and which values were reserved in them. The ledger says that the tables agree with it at
every moment, so that a value belongs to one transaction, and its row appears with that transaction or not at all.
-/
namespace Dispatch.Store

/-- The transaction that a call is about, opened before. -/
def Call.transaction? : Call → Option Nat
  | .commit number | .rollback number | .reserve number _ => some number
  | _ => none

/-- What there is to say about a transaction that is not open. -/
theorem Tables.answer_unknown {tables : Tables} {call : Call} {number : Nat}
    (absent : tables.transaction? number = none) (about : call.transaction? = some number) :
    tables.answer call = (.error (.unknownTransaction number), tables) := by
  cases call with
  | commit | rollback | reserve =>
    cases about
    simp only [answer, commit, rollback, reserve, absent]
  | _ => cases about

theorem Tables.answer_known {tables : Tables} {call : Call} {number : Nat} {transaction : Transaction}
    (found : tables.transaction? number = some transaction) (about : call.transaction? = some number) :
    ∃ answer, (tables.answer call).1 = .ok answer := by
  cases call with
  | commit | rollback | reserve =>
    cases about
    simp [answer, commit, rollback, reserve, found]
  | _ => cases about

/-- A value taken from the counter of a kind, and the transaction that its row is to appear with. -/
structure Reservation where
  transaction : Nat
  kind : Identifier.Kind
  key : Nat
  deriving DecidableEq, Repr

def Reservation.slot (reservation : Reservation) : Slot := (reservation.kind, reservation.key)

def openedBy : Moment Shared → Option Nat
  | ⟨_, .store .openTransaction, .ok number, _⟩ => some number
  | _ => none

def reservedBy : Moment Shared → Option Reservation
  | ⟨_, .store (.reserve transaction kind), .ok key, _⟩ => some { transaction, kind, key }
  | _ => none

def committedBy : Moment Shared → Option Nat
  | ⟨_, .store (.commit number), .ok _, _⟩ => some number
  | _ => none

def rolledBackBy : Moment Shared → Option Nat
  | ⟨_, .store (.rollback number), .ok _, _⟩ => some number
  | _ => none

/-- Why the store refused what was asked at a moment. -/
def faultOf : Moment Shared → Option Fault
  | ⟨_, .store _, .error fault, _⟩ => some fault
  | _ => none

def opened (trace : List (Moment Shared)) : List Nat := trace.filterMap openedBy

def reservations (trace : List (Moment Shared)) : List Reservation := trace.filterMap reservedBy

def committed (trace : List (Moment Shared)) : List Nat := trace.filterMap committedBy

def rolledBack (trace : List (Moment Shared)) : List Nat := trace.filterMap rolledBackBy

/-- The values reserved in a transaction, in the order of the reservations. -/
def reservedIn (number : Nat) (trace : List (Moment Shared)) : List Slot :=
  ((reservations trace).filter fun reservation => reservation.transaction = number).map Reservation.slot

/-- Opened, and neither committed nor rolled back. -/
structure IsOpen (number : Nat) (trace : List (Moment Shared)) : Prop where
  isOpened : number ∈ opened trace
  notCommitted : number ∉ committed trace
  notRolledBack : number ∉ rolledBack trace

/-- Values of one kind go up in the order in which they are taken, whatever transactions they are taken in. -/
def GoUp (taken : List Reservation) : Prop :=
  taken.Pairwise fun earlier later => earlier.kind = later.kind → earlier.key < later.key

/-- What a moment may do, given all that has happened before it. A transaction that is not open is refused, and
nothing changes. A commit puts the rows reserved in the transaction, all blank, after those that were there, which
stay as they are; nothing else makes a row appear, and nothing takes one away. -/
structure IsOrderly (front : List (Moment Shared)) (moment : Moment Shared) : Prop where
  refused : ∀ call number, moment.request = .store call → call.transaction? = some number → ¬IsOpen number front →
    faultOf moment = some (.unknownTransaction number) ∧ moment.after = moment.before
  accepted : ∀ call number, moment.request = .store call → call.transaction? = some number → IsOpen number front →
    faultOf moment = none
  appeared : ∀ number, committedBy moment = some number → moment.after.tables.placeholders =
    moment.before.tables.placeholders ++ (reservedIn number front).map Placeholder.blank
  stayed : committedBy moment = none → moment.after.tables.slots = moment.before.tables.slots

/-- The row of a value is nowhere to be seen, and stamping it is refused. -/
structure IsWithheld (slot : Slot) (moment : Moment Shared) : Prop where
  before : slot ∉ moment.before.tables.slots
  after : slot ∉ moment.after.tables.slots
  unstamped : ∀ id, moment.request = .store (.assign slot.1 slot.2 id) →
    faultOf moment = some (.missing slot.1.table (toString slot.2)) ∧ moment.after = moment.before

section Views

variable (trace : List (Moment Shared)) (moment : Moment Shared)

@[simp]
theorem opened_snoc : opened (trace ++ [moment]) = opened trace ++ (openedBy moment).toList := by
  cases found : openedBy moment <;> simp [opened, found]

@[simp]
theorem reservations_snoc : reservations (trace ++ [moment]) = reservations trace ++ (reservedBy moment).toList := by
  cases found : reservedBy moment <;> simp [reservations, found]

@[simp]
theorem committed_snoc : committed (trace ++ [moment]) = committed trace ++ (committedBy moment).toList := by
  cases found : committedBy moment <;> simp [committed, found]

@[simp]
theorem rolledBack_snoc : rolledBack (trace ++ [moment]) = rolledBack trace ++ (rolledBackBy moment).toList := by
  cases found : rolledBackBy moment <;> simp [rolledBack, found]

theorem isOpen_snoc (number : Nat) : IsOpen number (trace ++ [moment]) ↔
    (number ∈ opened trace ∨ openedBy moment = some number) ∧
      (number ∉ committed trace ∧ committedBy moment ≠ some number) ∧
      number ∉ rolledBack trace ∧ rolledBackBy moment ≠ some number := by
  constructor
  · intro running
    exact ⟨by simpa using running.isOpened, by simpa using running.notCommitted, by simpa using running.notRolledBack⟩
  · intro running
    exact ⟨by simpa using running.1, by simpa using running.2.1, by simpa using running.2.2⟩

/-- Where no transaction is opened or ended the open ones are those from before. -/
theorem isOpen_snoc_of_none (trace : List (Moment Shared)) {moment : Moment Shared} (unopened : openedBy moment = none)
    (uncommitted : committedBy moment = none) (unrolled : rolledBackBy moment = none) (number : Nat) :
    IsOpen number (trace ++ [moment]) ↔ IsOpen number trace := by
  rw [isOpen_snoc, unopened, uncommitted, unrolled]
  constructor
  · intro running
    exact ⟨by simpa using running.1, running.2.1.1, running.2.2.1⟩
  · intro running
    exact ⟨.inl running.isOpened, ⟨running.notCommitted, nofun⟩, running.notRolledBack, nofun⟩

/-- Where a transaction ends it is open no more. -/
theorem isOpen_snoc_of_ended (trace : List (Moment Shared)) {moment : Moment Shared} {ended : Nat}
    (unopened : openedBy moment = none)
    (ends : committedBy moment = some ended ∧ rolledBackBy moment = none ∨
      committedBy moment = none ∧ rolledBackBy moment = some ended) (number : Nat) :
    IsOpen number (trace ++ [moment]) ↔ number ≠ ended ∧ IsOpen number trace := by
  rw [isOpen_snoc, unopened]
  constructor
  · rintro ⟨isOpened, ⟨notCommitted, stillHeld⟩, notRolledBack, stillKept⟩
    refine ⟨?_, by simpa using isOpened, notCommitted, notRolledBack⟩
    rintro rfl
    rcases ends with ends | ends
    · exact stillHeld ends.1
    · exact stillKept ends.2
  · rintro ⟨different, running⟩
    have apart : committedBy moment ≠ some number ∧ rolledBackBy moment ≠ some number := by
      rcases ends with ends | ends <;> simp [ends, Ne.symm different]
    exact ⟨.inl running.isOpened, ⟨running.notCommitted, apart.1⟩, running.notRolledBack, apart.2⟩

theorem reservedIn_snoc (number : Nat) : reservedIn number (trace ++ [moment]) = reservedIn number trace ++
    ((reservedBy moment).toList.filter fun reservation => reservation.transaction = number).map Reservation.slot := by
  simp [reservedIn]

theorem reservedIn_snoc_of_none (trace : List (Moment Shared)) {moment : Moment Shared}
    (unreserved : reservedBy moment = none) (number : Nat) :
    reservedIn number (trace ++ [moment]) = reservedIn number trace := by
  simp [reservedIn_snoc, unreserved]

theorem mem_reservedIn {number : Nat} {slot : Slot} {trace : List (Moment Shared)} :
    slot ∈ reservedIn number trace ↔
      ∃ reservation ∈ reservations trace, reservation.transaction = number ∧ reservation.slot = slot := by
  simp [reservedIn, and_assoc]

/-- What has been reserved stays reserved. -/
theorem mem_reservedIn_snoc {number : Nat} {slot : Slot} (member : slot ∈ reservedIn number trace) :
    slot ∈ reservedIn number (trace ++ [moment]) := by
  rw [reservedIn_snoc]
  exact List.mem_append_left _ member

end Views

/-- The tables agree with all that has happened since the start. -/
structure Ledger (start tables : Tables) (trace : List (Moment Shared)) : Prop where
  sound : tables.HasSoundCounters
  counters : ∀ kind, start.counters kind ≤ tables.counters kind
  lastTransaction : start.lastTransaction ≤ tables.lastTransaction
  sequence : (opened trace).Pairwise (· < ·)
  numbers : ∀ number ∈ opened trace, start.lastTransaction < number ∧ number ≤ tables.lastTransaction
  isOpen : ∀ number, IsOpen number trace →
    tables.transaction? number = some { number, reserved := reservedIn number trace }
  isNotOpen : ∀ number, ¬IsOpen number trace → tables.transaction? number = none
  values : GoUp (reservations trace)
  drawn : ∀ reservation ∈ reservations trace, reservation.transaction ∈ opened trace ∧
    start.counters reservation.kind < reservation.key ∧ reservation.key ≤ tables.counters reservation.kind
  ends : ∀ number ∈ committed trace, number ∈ opened trace ∧ number ∉ rolledBack trace
  undone : ∀ number ∈ rolledBack trace, number ∈ opened trace
  published : ∀ slot ∈ tables.slots, slot ∈ start.slots ∨ ∃ number ∈ committed trace, slot ∈ reservedIn number trace
  since : ∀ moment ∈ trace, moment.before.tables.slots ⊆ tables.slots ∧ moment.after.tables.slots ⊆ tables.slots

namespace Ledger

variable {start tables next : Tables} {trace : List (Moment Shared)} {moment : Moment Shared}

/-- Before anything has happened. -/
theorem begin (sound : start.HasSoundCounters) (idle : start.transactions = []) : Ledger start start [] := by
  constructor
  case sound => exact sound
  case isNotOpen =>
    intro number _
    simp [Tables.transaction?, idle]
  case isOpen =>
    intro number running
    cases running.isOpened
  case published => exact fun slot member => .inl member
  all_goals simp [opened, reservations, committed, rolledBack, GoUp]

/-- What is open in the tables is open by the trace, with the values reserved in it. -/
theorem isOpen_of_found (ledger : Ledger start tables trace) {number : Nat} {transaction : Transaction}
    (found : tables.transaction? number = some transaction) :
    IsOpen number trace ∧ transaction = { number, reserved := reservedIn number trace } := by
  have running : IsOpen number trace := by
    by_contra ended
    rw [ledger.isNotOpen number ended] at found
    cases found
  have known := ledger.isOpen number running
  rw [found] at known
  exact ⟨running, Option.some.inj known⟩

/-- A value is reserved once. -/
theorem reservation_eq (ledger : Ledger start tables trace) {first second : Reservation}
    (member : first ∈ reservations trace) (other : second ∈ reservations trace) (same : first.slot = second.slot) :
    first = second := by
  have distinct : ((reservations trace).map Reservation.slot).Nodup := by
    apply List.pairwise_map.mpr
    apply ledger.values.imp
    intro earlier later goesUp same
    have bound := goesUp (Prod.ext_iff.mp same).1
    have equal : earlier.key = later.key := (Prod.ext_iff.mp same).2
    omega
  exact List.inj_on_of_nodup_map distinct member other same

/-- The values of a transaction that has been rolled back are on no row. -/
theorem withheld (ledger : Ledger start tables trace) (begins : start.HasSoundCounters) {number : Nat} {slot : Slot}
    (ended : number ∈ rolledBack trace) (member : slot ∈ reservedIn number trace) : slot ∉ tables.slots := by
  obtain ⟨reservation, reserved, rfl, rfl⟩ := mem_reservedIn.mp member
  intro visible
  rcases ledger.published _ visible with early | ⟨other, isCommitted, elsewhere⟩
  · have bound := begins.drawn _ (List.mem_append_left _ early)
    have above := (ledger.drawn reservation reserved).2.1
    simp only [Reservation.slot] at bound
    omega
  · obtain ⟨second, alsoReserved, rfl, same⟩ := mem_reservedIn.mp elsewhere
    rw [ledger.reservation_eq alsoReserved reserved same] at isCommitted
    exact (ledger.ends _ isCommitted).2 ended

theorem since_snoc (ledger : Ledger start tables trace) (before : moment.before.tables = tables)
    (after : moment.after.tables = next) (grown : tables.slots ⊆ next.slots) :
    ∀ other ∈ trace ++ [moment], other.before.tables.slots ⊆ next.slots ∧ other.after.tables.slots ⊆ next.slots := by
  intro other member
  rcases List.mem_append.mp member with earlier | last
  · have known := ledger.since other earlier
    exact ⟨List.Subset.trans known.1 grown, List.Subset.trans known.2 grown⟩
  · rw [List.mem_singleton.mp last, before, after]
    exact ⟨grown, List.Subset.refl _⟩

/-- Only what is open ends, and not in two ways. -/
theorem ends_snoc (ledger : Ledger start tables trace)
    (commits : ∀ number, committedBy moment = some number → IsOpen number trace)
    (rollsBack : ∀ number, rolledBackBy moment = some number → IsOpen number trace)
    (once : committedBy moment = none ∨ rolledBackBy moment = none) :
    ∀ number ∈ committed (trace ++ [moment]),
      number ∈ opened (trace ++ [moment]) ∧ number ∉ rolledBack (trace ++ [moment]) := by
  intro number member
  rw [committed_snoc] at member
  rw [opened_snoc, rolledBack_snoc]
  rcases List.mem_append.mp member with earlier | now
  · have known := ledger.ends number earlier
    refine ⟨List.mem_append_left _ known.1, fun rolled => ?_⟩
    rcases List.mem_append.mp rolled with before | last
    · exact known.2 before
    · exact (rollsBack number (Option.mem_toList.mp last)).notCommitted earlier
  · have isCommitted : committedBy moment = some number := Option.mem_toList.mp now
    have running := commits number isCommitted
    have unrolled : rolledBackBy moment = none := once.resolve_left (by simp [isCommitted])
    rw [unrolled, Option.toList_none, List.append_nil]
    exact ⟨List.mem_append_left _ running.isOpened, running.notRolledBack⟩

theorem undone_snoc (ledger : Ledger start tables trace)
    (rollsBack : ∀ number, rolledBackBy moment = some number → IsOpen number trace) :
    ∀ number ∈ rolledBack (trace ++ [moment]), number ∈ opened (trace ++ [moment]) := by
  intro number member
  rw [rolledBack_snoc] at member
  rw [opened_snoc]
  rcases List.mem_append.mp member with earlier | now
  · exact List.mem_append_left _ (ledger.undone number earlier)
  · exact List.mem_append_left _ (rollsBack number (Option.mem_toList.mp now)).isOpened

/-- Rows that are there have been there from the start, or belong to a transaction that has been committed. -/
theorem published_snoc (ledger : Ledger start tables trace) (moment : Moment Shared) {slot : Slot}
    (visible : slot ∈ tables.slots) : slot ∈ start.slots ∨
      ∃ number ∈ committed (trace ++ [moment]), slot ∈ reservedIn number (trace ++ [moment]) := by
  rcases ledger.published slot visible with early | ⟨number, isCommitted, reserved⟩
  · exact .inl early
  · refine .inr ⟨number, ?_, mem_reservedIn_snoc _ _ reserved⟩
    rw [committed_snoc]
    exact List.mem_append_left _ isCommitted

/-- A moment that leaves counters and transactions alone, and shows no new row. -/
theorem quiet (ledger : Ledger start tables trace) (before : moment.before.tables = tables)
    (after : moment.after.tables = next) (sound : next.HasSoundCounters) (slots : next.slots = tables.slots)
    (counters : next.counters = tables.counters) (transactions : next.transactions = tables.transactions)
    (lastTransaction : next.lastTransaction = tables.lastTransaction)
    (unopened : openedBy moment = none) (unreserved : reservedBy moment = none)
    (uncommitted : committedBy moment = none) (unrolled : rolledBackBy moment = none) :
    Ledger start next (trace ++ [moment]) := by
  have sameReserved := reservedIn_snoc_of_none trace unreserved
  have sameFound (number : Nat) : next.transaction? number = tables.transaction? number := by
    unfold Tables.transaction?
    rw [transactions]
  constructor
  case sound => exact sound
  case since => exact ledger.since_snoc before after (slots ▸ List.Subset.refl _)
  case isOpen =>
    intro number running
    rw [sameFound, sameReserved]
    exact ledger.isOpen number ((isOpen_snoc_of_none trace unopened uncommitted unrolled number).mp running)
  case isNotOpen =>
    intro number ended
    rw [sameFound]
    exact ledger.isNotOpen number fun running =>
      ended ((isOpen_snoc_of_none trace unopened uncommitted unrolled number).mpr running)
  case published => exact fun _ member => ledger.published_snoc moment (slots ▸ member)
  case counters =>
    rw [counters]
    exact ledger.counters
  case lastTransaction =>
    rw [lastTransaction]
    exact ledger.lastTransaction
  case sequence => simpa [unopened] using ledger.sequence
  case numbers => simpa [unopened, lastTransaction] using ledger.numbers
  case values => simpa [unreserved] using ledger.values
  case drawn => simpa [unopened, unreserved, counters] using ledger.drawn
  case ends => simpa [unopened, uncommitted, unrolled] using ledger.ends
  case undone => simpa [unopened, unrolled] using ledger.undone

/-- A transaction that is opened has a number above all that came before, and nothing reserved in it. -/
theorem afterOpen (ledger : Ledger start tables trace) (before : moment.before.tables = tables)
    (after : moment.after.tables = tables.openTransaction.2)
    (opens : openedBy moment = some (tables.lastTransaction + 1)) (unreserved : reservedBy moment = none)
    (uncommitted : committedBy moment = none) (unrolled : rolledBackBy moment = none) :
    Ledger start tables.openTransaction.2 (trace ++ [moment]) := by
  have above : ∀ number ∈ opened trace, number < tables.lastTransaction + 1 := fun number member =>
    Nat.lt_succ_of_le (ledger.numbers number member).2
  have sameReserved := reservedIn_snoc_of_none trace unreserved
  have running (number : Nat) : IsOpen number (trace ++ [moment]) ↔
      number = tables.lastTransaction + 1 ∨ IsOpen number trace := by
    rw [isOpen_snoc, opens, uncommitted, unrolled]
    constructor
    · rintro ⟨earlier | now, ⟨notCommitted, _⟩, notRolledBack, _⟩
      · exact .inr ⟨earlier, notCommitted, notRolledBack⟩
      · exact .inl (Option.some.inj now).symm
    · rintro (rfl | running)
      · refine ⟨.inr rfl, ⟨fun ended => ?_, nofun⟩, fun ended => ?_, nofun⟩
        · exact absurd (above _ (ledger.ends _ ended).1) (Nat.lt_irrefl _)
        · exact absurd (above _ (ledger.undone _ ended)) (Nat.lt_irrefl _)
      · exact ⟨.inl running.isOpened, ⟨running.notCommitted, nofun⟩, running.notRolledBack, nofun⟩
  constructor
  case sound => exact ledger.sound.openTransaction
  case counters => exact ledger.counters
  case lastTransaction => exact Nat.le_succ_of_le ledger.lastTransaction
  case sequence =>
    rw [opened_snoc, opens]
    apply List.pairwise_append.mpr
    refine ⟨ledger.sequence, List.pairwise_singleton _ _, fun number member last isLast => ?_⟩
    rw [List.mem_singleton.mp isLast]
    exact above number member
  case numbers =>
    intro number member
    rw [opened_snoc, opens] at member
    rcases List.mem_append.mp member with earlier | last
    · exact ⟨(ledger.numbers number earlier).1, Nat.le_succ_of_le (ledger.numbers number earlier).2⟩
    · rw [List.mem_singleton.mp last]
      exact ⟨Nat.lt_succ_of_le ledger.lastTransaction, Nat.le_refl _⟩
  case isOpen =>
    intro number isOpen
    rw [Tables.transaction?_openTransaction ledger.sound, sameReserved]
    split
    next same =>
      have fresh : reservedIn number trace = [] := by
        apply List.eq_nil_iff_forall_not_mem.mpr
        intro slot member
        obtain ⟨reservation, reserved, rfl, _⟩ := mem_reservedIn.mp member
        have bound := above _ (ledger.drawn reservation reserved).1
        omega
      rw [fresh]
    next different => exact ledger.isOpen number (((running number).mp isOpen).resolve_left different)
  case isNotOpen =>
    intro number ended
    have known := not_or.mp ((running number).not.mp ended)
    rw [Tables.transaction?_openTransaction ledger.sound, if_neg known.1]
    exact ledger.isNotOpen number known.2
  case values => simpa [unreserved] using ledger.values
  case drawn =>
    intro reservation member
    rw [reservations_snoc, unreserved] at member
    have known := ledger.drawn reservation (by simpa using member)
    exact ⟨by simp [known.1], known.2⟩
  case ends => exact ledger.ends_snoc (by simp [uncommitted]) (by simp [unrolled]) (.inl uncommitted)
  case undone => exact ledger.undone_snoc (by simp [unrolled])
  case published => exact fun _ member => ledger.published_snoc moment member
  case since => exact ledger.since_snoc before after (List.Subset.refl _)

/-- A value that is reserved is above all of its kind that came before. -/
theorem afterReserve (ledger : Ledger start tables trace) {number : Nat} {kind : Identifier.Kind}
    {transaction : Transaction} (found : tables.transaction? number = some transaction)
    (before : moment.before.tables = tables) (after : moment.after.tables = tables.afterReserve number kind)
    (unopened : openedBy moment = none)
    (reserves : reservedBy moment = some { transaction := number, kind, key := tables.counters kind + 1 })
    (uncommitted : committedBy moment = none) (unrolled : rolledBackBy moment = none) :
    Ledger start (tables.afterReserve number kind) (trace ++ [moment]) := by
  obtain ⟨isRunning, rfl⟩ := ledger.isOpen_of_found found
  have sameOpen := isOpen_snoc_of_none trace unopened uncommitted unrolled
  have grow := tables.counters_afterReserve_le number kind
  constructor
  case sound => exact ledger.sound.afterReserve found kind
  case counters => exact fun other => Nat.le_trans (ledger.counters other) (grow other)
  case lastTransaction => exact ledger.lastTransaction
  case sequence => simpa [unopened] using ledger.sequence
  case numbers => simpa [unopened, Tables.afterReserve] using ledger.numbers
  case isOpen =>
    intro other running
    have known := ledger.isOpen other ((sameOpen other).mp running)
    rw [Tables.transaction?_afterReserve, known, reservedIn_snoc, reserves]
    split
    next same => simp [same, Transaction.reserving, Reservation.slot]
    next different => simp [Ne.symm different]
  case isNotOpen =>
    intro other ended
    have known := ledger.isNotOpen other fun running => ended ((sameOpen other).mpr running)
    rw [Tables.transaction?_afterReserve, known]
    simp
  case values =>
    rw [reservations_snoc, reserves]
    apply List.pairwise_append.mpr
    refine ⟨ledger.values, List.pairwise_singleton _ _, fun reservation member last isLast sameKind => ?_⟩
    rw [List.mem_singleton.mp isLast] at sameKind ⊢
    have bound := (ledger.drawn reservation member).2.2
    rw [sameKind] at bound
    exact Nat.lt_succ_of_le bound
  case drawn =>
    intro reservation member
    rw [reservations_snoc, reserves] at member
    rw [opened_snoc]
    rcases List.mem_append.mp member with earlier | last
    · have known := ledger.drawn reservation earlier
      exact ⟨List.mem_append_left _ known.1, known.2.1, Nat.le_trans known.2.2 (grow _)⟩
    · rw [List.mem_singleton.mp last]
      exact ⟨List.mem_append_left _ isRunning.isOpened, Nat.lt_succ_of_le (ledger.counters kind),
        by simp [Tables.afterReserve]⟩
  case ends => simpa [unopened, uncommitted, unrolled] using ledger.ends
  case undone => simpa [unopened, unrolled] using ledger.undone
  case published => exact fun _ member => ledger.published_snoc moment member
  case since => exact ledger.since_snoc before after (List.Subset.refl _)

/-- A transaction that ends with its rows, or without. -/
theorem afterEnd (ledger : Ledger start tables trace) {number : Nat} {transaction : Transaction}
    (found : tables.transaction? number = some transaction) (before : moment.before.tables = tables)
    (after : moment.after.tables = next) (sound : next.HasSoundCounters)
    (counters : next.counters = tables.counters) (lastTransaction : next.lastTransaction = tables.lastTransaction)
    (transactions : next.transactions = (tables.endTransaction number).transactions)
    (unopened : openedBy moment = none) (unreserved : reservedBy moment = none)
    (ends : committedBy moment = some number ∧ rolledBackBy moment = none ∧
        next.slots = tables.slots ++ reservedIn number trace ∨
      committedBy moment = none ∧ rolledBackBy moment = some number ∧ next.slots = tables.slots) :
    Ledger start next (trace ++ [moment]) := by
  have isRunning := (ledger.isOpen_of_found found).1
  have commits (other : Nat) (isCommitted : committedBy moment = some other) : IsOpen other trace := by
    rcases ends with ⟨commits, _⟩ | ⟨uncommitted, _⟩
    · rwa [← Option.some.inj (commits.symm.trans isCommitted)]
    · cases uncommitted.symm.trans isCommitted
  have rollsBack (other : Nat) (isRolledBack : rolledBackBy moment = some other) : IsOpen other trace := by
    rcases ends with ⟨_, unrolled, _⟩ | ⟨_, rollsBack, _⟩
    · cases unrolled.symm.trans isRolledBack
    · rwa [← Option.some.inj (rollsBack.symm.trans isRolledBack)]
  have sameReserved := reservedIn_snoc_of_none trace unreserved
  have running := isOpen_snoc_of_ended trace unopened
    (ends.imp (fun ends => ⟨ends.1, ends.2.1⟩) fun ends => ⟨ends.1, ends.2.1⟩)
  have sameFound (other : Nat) :
      next.transaction? other = if other = number then none else tables.transaction? other := by
    rw [← Tables.transaction?_endTransaction]
    unfold Tables.transaction?
    rw [transactions]
  have grown : tables.slots ⊆ next.slots := by
    rcases ends with ⟨_, _, slots⟩ | ⟨_, _, slots⟩
    · rw [slots]
      exact List.subset_append_left _ _
    · rw [slots]
      exact List.Subset.refl _
  constructor
  case sound => exact sound
  case counters => exact counters ▸ ledger.counters
  case lastTransaction => exact lastTransaction ▸ ledger.lastTransaction
  case sequence => simpa [unopened] using ledger.sequence
  case numbers => simpa [unopened, lastTransaction] using ledger.numbers
  case isOpen =>
    intro other isOpen
    obtain ⟨different, earlier⟩ := (running other).mp isOpen
    rw [sameFound, if_neg different, sameReserved]
    exact ledger.isOpen other earlier
  case isNotOpen =>
    intro other ended
    rw [sameFound]
    split
    next => rfl
    next different => exact ledger.isNotOpen other fun earlier => ended ((running other).mpr ⟨different, earlier⟩)
  case values => simpa [unreserved] using ledger.values
  case drawn => simpa [unopened, unreserved, counters] using ledger.drawn
  case ends => exact ledger.ends_snoc commits rollsBack (ends.symm.imp (fun ends => ends.1) fun ends => ends.2.1)
  case undone => exact ledger.undone_snoc rollsBack
  case published =>
    intro slot member
    rcases ends with ⟨commits, _, slots⟩ | ⟨_, _, slots⟩
    · rw [slots] at member
      rcases List.mem_append.mp member with visible | reserved
      · exact ledger.published_snoc moment visible
      · exact .inr ⟨number, by simp [commits], mem_reservedIn_snoc _ _ reserved⟩
    · exact ledger.published_snoc moment (slots ▸ member)
  case since => exact ledger.since_snoc before after grown

/-- A moment that is about something else. -/
theorem alike (ledger : Ledger start tables trace) (before : moment.before.tables = tables)
    (after : moment.after.tables = next) (same : tables.CountsLike next) (unopened : openedBy moment = none)
    (unreserved : reservedBy moment = none) (uncommitted : committedBy moment = none)
    (unrolled : rolledBackBy moment = none) : Ledger start next (trace ++ [moment]) :=
  ledger.quiet before after (ledger.sound.of_countsLike same) (congrArg (List.map Placeholder.slot) same.placeholders)
    same.counters same.transactions same.lastTransaction unopened unreserved uncommitted unrolled

variable {shared : Shared}

theorem call (ledger : Ledger start shared.tables trace) (call : Call) :
    Ledger start (shared.tables.answer call).2 (trace ++ [{
      before := shared, request := .store call, reply := (shared.tables.answer call).1,
      after := { shared with tables := (shared.tables.answer call).2 } }]) := by
  cases call with
  | openTransaction => exact ledger.afterOpen rfl rfl rfl rfl rfl rfl
  | reserve number kind =>
    cases found : shared.tables.transaction? number with
    | some transaction =>
      simp only [Tables.answer, Tables.reserve_eq found]
      exact ledger.afterReserve found rfl rfl rfl rfl rfl rfl
    | none =>
      simp only [Tables.answer, Tables.reserve, found]
      exact ledger.alike rfl rfl (.refl _) rfl rfl rfl rfl
  | commit number =>
    cases found : shared.tables.transaction? number with
    | some transaction =>
      obtain ⟨_, rfl⟩ := ledger.isOpen_of_found found
      have sound := ledger.sound.commit found
      simp only [Tables.answer, Tables.commit_eq ledger.sound found] at sound ⊢
      refine ledger.afterEnd found rfl rfl sound rfl rfl rfl rfl rfl (.inl ⟨rfl, rfl, ?_⟩)
      simp [Tables.slots, Function.comp_def]
    | none =>
      simp only [Tables.answer, Tables.commit, found]
      exact ledger.alike rfl rfl (.refl _) rfl rfl rfl rfl
  | rollback number =>
    cases found : shared.tables.transaction? number with
    | some transaction =>
      have sound := ledger.sound.rollback found
      simp only [Tables.answer, Tables.rollback_eq found] at sound ⊢
      exact ledger.afterEnd found rfl rfl sound rfl rfl rfl rfl rfl (.inr ⟨rfl, rfl, rfl⟩)
    | none =>
      simp only [Tables.answer, Tables.rollback, found]
      exact ledger.alike rfl rfl (.refl _) rfl rfl rfl rfl
  | assign kind key id =>
    have slots := Tables.slots_assign shared.tables kind key id
    by_cases member : (kind, key) ∈ shared.tables.slots
    · simp only [Tables.answer, Tables.assign_eq member] at slots ⊢
      refine ledger.quiet rfl rfl ?_ slots rfl rfl rfl rfl rfl rfl rfl
      have sound := ledger.sound.assign kind key id
      rwa [Tables.assign_eq member] at sound
    · simp only [Tables.answer, Tables.assign_of_absent member]
      exact ledger.alike rfl rfl (.refl _) rfl rfl rfl rfl
  | _ => exact ledger.alike rfl rfl (Tables.answer_countsLike _ rfl) rfl rfl rfl rfl

/-- Every moment keeps the ledger. -/
theorem step (ledger : Ledger start shared.tables trace) {next : Shared} {request : Request} {reply : request.Reply}
    (answered : shared.Answers request reply next) :
    Ledger start next.tables (trace ++ [{ before := shared, request, reply, after := next }]) := by
  cases request with
  | store call =>
    obtain ⟨rfl, rfl⟩ := answered
    exact ledger.call call
  | _ =>
    have same := Shared.Serves.tables_eq (.inl answered) fun call => nofun
    rw [same]
    exact ledger.alike rfl same (.refl _) rfl rfl rfl rfl

/-- A commit that is granted shows the rows reserved in the transaction. -/
theorem appears (ledger : Ledger start shared.tables trace) {next : Shared} {request : Request}
    {reply : request.Reply} (answered : shared.Answers request reply next) {number : Nat}
    (commits : committedBy { before := shared, request, reply, after := next } = some number) :
    next.tables.placeholders =
      shared.tables.placeholders ++ (reservedIn number trace).map Placeholder.blank := by
  cases request with
  | store call =>
    obtain ⟨rfl, rfl⟩ := answered
    cases call with
    | commit other =>
      cases found : shared.tables.transaction? other with
      | some transaction =>
        obtain ⟨_, rfl⟩ := ledger.isOpen_of_found found
        simp only [Tables.answer, Tables.commit_eq ledger.sound found, committedBy, Option.some.injEq] at commits ⊢
        rw [commits]
      | none =>
        simp only [Tables.answer, Tables.commit, found] at commits
        cases commits
    | _ => cases commits
  | _ => cases commits

/-- Nothing else shows a row, or takes one away. -/
theorem stays (ledger : Ledger start shared.tables trace) {next : Shared} {request : Request}
    {reply : request.Reply} (answered : shared.Answers request reply next)
    (uncommitted : committedBy { before := shared, request, reply, after := next } = none) :
    next.tables.slots = shared.tables.slots := by
  cases request with
  | store call =>
    obtain ⟨rfl, rfl⟩ := answered
    cases call with
    | commit number =>
      cases found : shared.tables.transaction? number with
      | some transaction =>
        simp only [Tables.answer, Tables.commit_eq ledger.sound found] at uncommitted
        cases uncommitted
      | none => simp only [Tables.answer, Tables.commit, found]
    | openTransaction => rfl
    | rollback number =>
      simp only [Tables.answer, Tables.rollback]
      split <;> rfl
    | reserve number kind =>
      simp only [Tables.answer, Tables.reserve]
      split <;> rfl
    | assign kind key id => exact Tables.slots_assign shared.tables kind key id
    | _ => exact congrArg (List.map Placeholder.slot) (Tables.answer_countsLike _ rfl).placeholders
  | _ => exact congrArg Tables.slots (Shared.Serves.tables_eq (.inl answered) (by simp))

/-- Every moment does what it may. -/
theorem isOrderly (ledger : Ledger start shared.tables trace) {next : Shared} {request : Request}
    {reply : request.Reply} (answered : shared.Answers request reply next) :
    IsOrderly trace { before := shared, request, reply, after := next } := by
  constructor
  case appeared => exact fun number commits => ledger.appears answered commits
  case stayed => exact fun uncommitted => ledger.stays answered uncommitted
  case refused =>
    intro call number same about closed
    cases same
    obtain ⟨rfl, rfl⟩ := answered
    rw [Tables.answer_unknown (ledger.isNotOpen number closed) about]
    exact ⟨rfl, rfl⟩
  case accepted =>
    intro call number same about running
    cases same
    obtain ⟨rfl, rfl⟩ := answered
    obtain ⟨answer, accepted⟩ := Tables.answer_known (ledger.isOpen number running) about
    rw [accepted]
    rfl

end Ledger

/-- The ledger is kept throughout, and so every moment is orderly. -/
theorem ledger_of_runs {α : Type} {start : Shared} {plans : List (Plan α)} {trace : List (Moment Shared)}
    {last : Pool Shared α} (sound : start.tables.HasSoundCounters) (idle : start.tables.transactions = [])
    (run : Pool.Runs Shared.Answers { state := start, plans } trace last) :
    Ledger start.tables last.state.tables trace ∧ Throughout IsOrderly trace := by
  induction run with
  | start => exact ⟨Ledger.begin sound idle, throughout_nil⟩
  | step run next ih =>
    obtain ⟨ledger, orderly⟩ := ih
    cases next with
    | reply _ _ _ answered => exact ⟨ledger.step answered, orderly.snoc (ledger.isOrderly answered)⟩

/-- Every reply of a run is one that the setting gives. -/
theorem answered_of_mem {α : Type} {pool last : Pool Shared α} {trace : List (Moment Shared)}
    (run : Pool.Runs Shared.Answers pool trace last) {moment : Moment Shared} (member : moment ∈ trace) :
    moment.before.Answers moment.request moment.reply moment.after := by
  induction run with
  | start => cases member
  | step run next ih =>
    rcases List.mem_append.mp member with earlier | last
    · exact ih earlier
    · cases next with
      | reply _ _ _ answered =>
        rw [List.mem_singleton.mp last]
        exact answered

theorem isWithheld_of_ledger {start tables : Tables} {trace : List (Moment Shared)} {moment : Moment Shared}
    {slot : Slot} (ledger : Ledger start tables trace) (hidden : slot ∉ tables.slots) (member : moment ∈ trace)
    (answered : moment.before.Answers moment.request moment.reply moment.after) : IsWithheld slot moment := by
  have known := ledger.since moment member
  have before : slot ∉ moment.before.tables.slots := fun visible => hidden (known.1 visible)
  refine ⟨before, fun visible => hidden (known.2 visible), fun id same => ?_⟩
  obtain ⟨shared, request, reply, next⟩ := moment
  cases same
  have answered : shared.Answers (.store (.assign slot.1 slot.2 id)) reply next := answered
  have before : slot ∉ shared.tables.slots := before
  obtain ⟨rfl, rfl⟩ := answered
  simp [Tables.answer, Tables.assign_of_absent before, faultOf]

/-- Any number of clients work on the store at once, in any order of their calls. Values of a kind go up over all
transactions, and so do the numbers of transactions, from the last one before; every moment is orderly; and the values
of a transaction that has been rolled back are withheld at all times. -/
theorem transactions_hold {α : Type} {start : Shared} {plans : List (Plan α)} {trace : List (Moment Shared)}
    {last : Pool Shared α} (sound : start.tables.HasSoundCounters) (idle : start.tables.transactions = [])
    (run : Pool.Runs Shared.Answers { state := start, plans } trace last) :
    GoUp (reservations trace) ∧
      (start.tables.lastTransaction :: opened trace).Pairwise (· < ·) ∧
      Throughout IsOrderly trace ∧
      ∀ number ∈ rolledBack trace, ∀ slot ∈ reservedIn number trace, ∀ moment ∈ trace, IsWithheld slot moment := by
  obtain ⟨ledger, orderly⟩ := ledger_of_runs sound idle run
  have above : ∀ number ∈ opened trace, start.tables.lastTransaction < number := fun number member =>
    (ledger.numbers number member).1
  refine ⟨ledger.values, List.pairwise_cons.mpr ⟨above, ledger.sequence⟩, orderly, ?_⟩
  intro number ended slot reserved moment member
  exact isWithheld_of_ledger ledger (ledger.withheld sound ended reserved) member (answered_of_mem run member)

/-- A client that makes one call after the other. -/
def performing : List Call → Plan Unit
  | [] => .done ()
  | call :: rest => .ask (.store call) fun _ => performing rest

/-- Two clients. One commits what it has reserved and stamps it; the other rolls back, tries what is over, and starts
again. -/
def sampleClients : List (Moment Shared) × Pool Shared Unit :=
  let committing := performing [.openTransaction, .reserve 1 .job, .reserve 1 .user, .commit 1, .assign .job 2 "J"]
  let undoing := performing [.openTransaction, .reserve 2 .job, .rollback 2, .assign .job 1 "K", .reserve 2 .job,
    .openTransaction, .reserve 3 .job, .commit 3]
  Pool.play (Shared.respond (Shared.outsideOf default "")) [0, 1, 1, 0, 1, 0, 1, 0, 0, 1, 1, 1, 1]
    { state := {}, plans := [committing, undoing] }

theorem sampleClients_hold :
    (reservations sampleClients.1).map Reservation.slot = [(.job, 1), (.job, 2), (.user, 1), (.job, 3)] ∧ rolledBack sampleClients.1 = [2] ∧
      sampleClients.2.state.tables.placeholders =
        [{ kind := .job, key := 2, id := some "J" }, .blank (.user, 1), .blank (.job, 3)] ∧
    GoUp (reservations sampleClients.1) ∧
      (0 :: opened sampleClients.1).Pairwise (· < ·) ∧
      Throughout IsOrderly sampleClients.1 ∧
      ∀ number ∈ rolledBack sampleClients.1, ∀ slot ∈ reservedIn number sampleClients.1,
        ∀ moment ∈ sampleClients.1, IsWithheld slot moment :=
  ⟨by decide +kernel, by decide +kernel, by decide +kernel,
    transactions_hold (Tables.hasSoundCounters_of_empty rfl rfl) rfl
      (Pool.runs_play Shared.answers_respond _ _)⟩

end Dispatch.Store
