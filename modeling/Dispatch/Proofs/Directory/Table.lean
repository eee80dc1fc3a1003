import Dispatch.Directory.Registry
import Dispatch.Proofs.Server.Shared
import Dispatch.Proofs.Store.Rows
import Dispatch.Proofs.Text.Search
/-!
The table of authentication systems. It is edited in two ways: a system is added under a new identifier, or a live one
is put in its own place. Either way the names of live systems stay apart, and deleted ones stay as they are.
-/
namespace Dispatch

/-- Systems and the accounts on them. -/
structure Directory where
  systems : List AuthSystem
  accounts : List AuthAccount

/-- The accounts once those on one system are deleted. -/
def Directory.accountsWithout (directory : Directory) (id : String) : List AuthAccount :=
  directory.accounts.map fun account =>
    if account.system = id then { account with standing := .deleted } else account

/-- What writes systems, or accounts on them. -/
def Request.isOfDirectory : Request → Bool
  | store (.insertAuthSystem _) | store (.updateAuthSystem _) | store (.insertAuthAccount _) |
    store (.setAuthAccounts ..) => true
  | _ => false

/-- What the registry asks of the store to change systems, or the accounts on them. -/
def Request.isOfRegistry : Request → Bool
  | store (.insertAuthSystem _) | store (.findAuthSystem _) | store (.updateAuthSystem _) | store .authSystems |
    store (.setAuthAccounts ..) => true
  | _ => false

namespace Store.Tables

def directory (tables : Tables) : Directory := ⟨tables.authSystems, tables.authAccounts⟩

@[simp] theorem systems_directory (tables : Tables) : tables.directory.systems = tables.authSystems := rfl

@[simp] theorem accounts_directory (tables : Tables) : tables.directory.accounts = tables.authAccounts := rfl

theorem directory_answer (tables : Tables) {call : Call} (other : Request.isOfDirectory (.store call) = false) :
    (tables.answer call).2.directory = tables.directory := by
  cases call with
  | insertAuthSystem | updateAuthSystem | insertAuthAccount | setAuthAccounts => cases other
  | openTransaction | isTaken | findUser | insertLocalAccount | findLocalAccount | authAccountsOf | findSession |
    findSessionWithId | activeSessions | insertEntry | entriesOf | findJob | jobsOf | unfinishedJobs |
    findAuthSystem | authSystems => rfl
  | commit | rollback | reserve | assign | insertUser | insertSession | updateEntry | insertJob | updateJob =>
    simp only [answer, commit, rollback, reserve, assign, insertUser, insertSession, updateEntry, insertJob, updateJob]
    split
    next => rfl
    next => rfl
  | updateSession | touchSession | transitionJob =>
    simp only [answer, updateSession, touchSession, transitionJob]
    split
    next => rfl
    next =>
      split
      next => rfl
      next => rfl

end Store.Tables

/-- Whatever else is asked for leaves systems and accounts alone. -/
theorem Shared.Serves.directory_eq {shared next : Shared} {request : Request} {reply : request.Reply}
    (served : shared.Serves request reply next) (other : request.isOfDirectory = false) :
    next.tables.directory = shared.tables.directory := by
  cases request with
  | store call =>
    rcases Shared.serves_store served with ⟨_, rfl⟩ | ⟨_, rfl⟩
    · exact shared.tables.directory_answer other
    · rfl
  | _ => rw [served.tables_eq fun _ => nofun]

namespace AuthSystem

/-- The base of a directory says where a login goes. -/
def HasPlaceholder (base : String) : Prop := placeholder.toList <:+: base.toList

theorem hasPlaceholder_of_validateBase {base : String} {passed : Unit} (valid : validateBase base = .ok passed) :
    HasPlaceholder base := by
  unfold validateBase at valid
  split at valid
  next found => exact Text.hasPart_iff.mp found
  next => cases valid

theorem isNameTaken_eq_false {systems : List AuthSystem} {name : String} :
    isNameTaken systems name = false ↔ ∀ row ∈ systems, row.isLive = true → row.name ≠ name := by
  simp [isNameTaken]

/-- Systems have identifiers of their own, live ones have names of their own, and all are directories whose base says
where a login goes. -/
structure AreInOrder (systems : List AuthSystem) : Prop where
  distinct : (systems.map id).Nodup
  named : ∀ one ∈ systems, ∀ other ∈ systems, one.isLive = true → other.isLive = true → one.name = other.name →
    one = other
  directories : ∀ system ∈ systems, system.kind = .ldap ∧ HasPlaceholder system.base

theorem areInOrder_nil : AreInOrder [] := ⟨List.nodup_nil, nofun, nofun⟩

/-- The systems with another in the place of the one with its identifier. -/
def replaced (systems : List AuthSystem) (system : AuthSystem) : List AuthSystem :=
  systems.map fun row => if row.id = system.id then system else row

theorem mem_replaced {systems : List AuthSystem} {system row : AuthSystem} (member : row ∈ replaced systems system) :
    row = system ∨ row ∈ systems ∧ row.id ≠ system.id := by
  obtain ⟨old, stored, rfl⟩ := List.mem_map.mp member
  split
  next => exact .inl rfl
  next other => exact .inr ⟨stored, other⟩

theorem mem_replaced_of_ne {systems : List AuthSystem} {system row : AuthSystem} (stored : row ∈ systems)
    (other : row.id ≠ system.id) : row ∈ replaced systems system := List.mem_map.mpr ⟨row, stored, if_neg other⟩

theorem mem_replaced_self {systems : List AuthSystem} {system old : AuthSystem} (stored : old ∈ systems)
    (same : system.id = old.id) : system ∈ replaced systems system :=
  List.mem_map.mpr ⟨old, stored, if_pos same.symm⟩

/-- A system that may be added: nothing has its identifier, and no live system its name. -/
structure IsAddition (systems : List AuthSystem) (system : AuthSystem) : Prop where
  isNew : ∀ row ∈ systems, row.id ≠ system.id
  free : isNameTaken systems system.name = false
  kind : system.kind = .ldap
  base : HasPlaceholder system.base

/-- A system that may stand in the place of a live one: it has the name and the base of that one, or a name that no
other live system has, and a base that is valid. -/
structure IsChange (systems : List AuthSystem) (old system : AuthSystem) : Prop where
  stored : old ∈ systems
  live : old.isLive = true
  same : system.id = old.id
  free : system.name = old.name ∨ isNameTaken (systems.filter fun other => other.id ≠ old.id) system.name = false
  kind : system.kind = old.kind
  base : system.base = old.base ∨ HasPlaceholder system.base

/-- What one operation does to the systems. -/
inductive Edits (systems : List AuthSystem) : List AuthSystem → Prop
  | none : Edits systems systems
  | added {system : AuthSystem} (fits : IsAddition systems system) :
      Edits systems (Store.Tables.insertInOrder id system systems)
  | changed {old system : AuthSystem} (fits : IsChange systems old system) : Edits systems (replaced systems system)

section Edits

variable {before after : List AuthSystem} {system old : AuthSystem}

theorem IsAddition.areInOrder (fits : IsAddition before system) (order : AreInOrder before) :
    AreInOrder (Store.Tables.insertInOrder id system before) := by
  have rows := Store.Tables.insertInOrder_perm id system before
  constructor
  case distinct =>
    apply (rows.map id).nodup_iff.mpr
    apply List.nodup_cons.mpr
    refine ⟨fun member => ?_, order.distinct⟩
    obtain ⟨row, stored, same⟩ := List.mem_map.mp member
    exact fits.isNew row stored same
  case named =>
    have apart := isNameTaken_eq_false.mp fits.free
    intro one first other second oneLive otherLive same
    rcases List.mem_cons.mp (rows.mem_iff.mp first) with rfl | oneOld
    · rcases List.mem_cons.mp (rows.mem_iff.mp second) with rfl | otherOld
      · rfl
      · exact absurd same.symm (apart other otherOld otherLive)
    · rcases List.mem_cons.mp (rows.mem_iff.mp second) with rfl | otherOld
      · exact absurd same (apart one oneOld oneLive)
      · exact order.named one oneOld other otherOld oneLive otherLive same
  case directories =>
    intro row member
    rcases List.mem_cons.mp (rows.mem_iff.mp member) with rfl | stored
    · exact ⟨fits.kind, fits.base⟩
    · exact order.directories row stored

/-- No other live system has the name of the new row. -/
theorem IsChange.name_ne (fits : IsChange before old system) (order : AreInOrder before) {row : AuthSystem}
    (stored : row ∈ before) (other : row.id ≠ system.id) (live : row.isLive = true) : row.name ≠ system.name := by
  have apart : row.id ≠ old.id := fun same => other (same.trans fits.same.symm)
  intro named
  rcases fits.free with kept | free
  · obtain rfl := order.named row stored old fits.stored live fits.live (named.trans kept)
    exact apart rfl
  · have listed : row ∈ before.filter fun other => other.id ≠ old.id :=
      List.mem_filter.mpr ⟨stored, decide_eq_true apart⟩
    exact isNameTaken_eq_false.mp free row listed live named

theorem map_id_replaced (systems : List AuthSystem) (system : AuthSystem) :
    (replaced systems system).map id = systems.map id :=
  Store.Tables.map_replace id id fun _ _ same => same

theorem IsChange.areInOrder (fits : IsChange before old system) (order : AreInOrder before) :
    AreInOrder (replaced before system) := by
  constructor
  case distinct =>
    rw [map_id_replaced]
    exact order.distinct
  case named =>
    intro one first other second oneLive otherLive same
    rcases mem_replaced first with rfl | ⟨oneOld, oneApart⟩
    · rcases mem_replaced second with rfl | ⟨otherOld, otherApart⟩
      · rfl
      · exact absurd same.symm (fits.name_ne order otherOld otherApart otherLive)
    · rcases mem_replaced second with rfl | ⟨otherOld, _⟩
      · exact absurd same (fits.name_ne order oneOld oneApart oneLive)
      · exact order.named one oneOld other otherOld oneLive otherLive same
  case directories =>
    intro row member
    rcases mem_replaced member with rfl | ⟨stored, _⟩
    · obtain ⟨kind, base⟩ := order.directories old fits.stored
      refine ⟨fits.kind.trans kind, ?_⟩
      rcases fits.base with kept | valid
      · rw [kept]
        exact base
      · exact valid
    · exact order.directories row stored

theorem Edits.areInOrder (edits : Edits before after) (order : AreInOrder before) : AreInOrder after := by
  cases edits with
  | none => exact order
  | added fits => exact fits.areInOrder order
  | changed fits => exact fits.areInOrder order

theorem Edits.ids_subset (edits : Edits before after) : before.map id ⊆ after.map id := by
  cases edits with
  | none => exact List.Subset.refl _
  | added fits =>
    intro taken member
    apply ((Store.Tables.insertInOrder_perm id _ before).map id).mem_iff.mpr
    exact List.mem_cons_of_mem _ member
  | changed fits =>
    rw [map_id_replaced]
    exact List.Subset.refl _

/-- A deleted system is never changed again. -/
theorem Edits.keeps_deleted (edits : Edits before after) (order : AreInOrder before) {row : AuthSystem}
    (stored : row ∈ before) (deleted : row.isLive = false) : row ∈ after := by
  cases edits with
  | none => exact stored
  | @added system fits =>
    exact (Store.Tables.insertInOrder_perm id system before).mem_iff.mpr (List.mem_cons_of_mem system stored)
  | @changed old system fits =>
    apply mem_replaced_of_ne stored
    intro same
    obtain rfl : row = old := List.inj_on_of_nodup_map order.distinct stored fits.stored (same.trans fits.same)
    cases deleted.symm.trans fits.live

/-- What lasts however often systems are edited: identifiers that have been given, and deleted systems. -/
structure Lasts (before after : List AuthSystem) : Prop where
  ids : before.map id ⊆ after.map id
  deleted : ∀ row ∈ before, row.isLive = false → row ∈ after

theorem Lasts.refl (systems : List AuthSystem) : Lasts systems systems :=
  ⟨List.Subset.refl _, fun _ stored _ => stored⟩

theorem Lasts.trans {middle : List AuthSystem} (first : Lasts before middle) (second : Lasts middle after) :
    Lasts before after :=
  ⟨List.Subset.trans first.ids second.ids,
    fun row stored deleted => second.deleted row (first.deleted row stored deleted) deleted⟩

theorem Edits.lasts (edits : Edits before after) (order : AreInOrder before) : Lasts before after :=
  ⟨edits.ids_subset, fun _ => edits.keeps_deleted order⟩

end Edits

end AuthSystem

end Dispatch
