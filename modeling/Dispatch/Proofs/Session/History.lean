import Dispatch.Proofs.Plan.Settings
import Dispatch.Proofs.Session.Presence
/-!
The history of what sessions do, with a store that does what its tables say. Noting a command touches the rows of
sessions and of the history only, and it does not fail for a session that is there; so what comes of a command is what
its caller gets.
-/
namespace Dispatch

open Plan

/-- At most sessions and the history have changed. -/
def Shared.IsNoted (before after : Shared) : Prop :=
  ∃ sessions entries lastEntry,
    after = { before with tables := { before.tables with sessions, entries, lastEntry } }

namespace Shared.IsNoted

variable {before middle after : Shared}

theorem refl (shared : Shared) : shared.IsNoted shared := ⟨_, _, _, rfl⟩

theorem trans (first : before.IsNoted middle) (second : middle.IsNoted after) : before.IsNoted after := by
  obtain ⟨_, _, _, rfl⟩ := first
  obtain ⟨_, _, _, rfl⟩ := second
  exact ⟨_, _, _, rfl⟩

/-- What the gate and the history ask for changes no more than that, even where the store fails. -/
theorem of_serves {request : Request} {reply : request.Reply} (member : request.isOfSession = true)
    (served : before.Serves request reply after) : before.IsNoted after := by
  cases request with
  | now =>
    have answered := served.answers fun _ same => nomatch same
    obtain rfl : after = before := answered
    exact refl after
  | store call =>
    rcases Shared.serves_store served with ⟨_, rfl⟩ | ⟨_, rfl⟩
    · cases call with
      | findSession | findUser | entriesOf => exact refl before
      | insertEntry entry => exact ⟨_, _, _, rfl⟩
      | updateEntry entry =>
        simp only [Store.Tables.answer, Store.Tables.updateEntry]
        split
        next => exact ⟨_, _, _, rfl⟩
        next => exact refl before
      | touchSession key instant =>
        simp only [Store.Tables.answer, Store.Tables.touchSession]
        split
        next => exact refl before
        next =>
          split
          next => exact ⟨_, _, _, rfl⟩
          next => exact refl before
      | _ => cases member
    · exact refl _
  | _ => cases member

end Shared.IsNoted

namespace Session

variable {α : Type} {shared : Shared} {key : String} {caller : Caller}

/-- Noting changes no more than that. -/
theorem ensures_noted {service : Service α} (asks : Asks Request.isOfSession service) (shared : Shared) :
    Ensures Shared.Serves (fun _ last => shared.IsNoted last) (fun _ last => shared.IsNoted last) service shared :=
  Yields.preserves asks (fun member served before => Shared.IsNoted.trans before (.of_serves member served)) shared
    (.refl shared)

/-- Whoever is admitted has a session. -/
theorem session?_isSome_of_admitted (admitted : shared.tables.admitted key = .ok caller) :
    (shared.tables.session? key).isSome = true := by
  unfold Store.Tables.admitted at admitted
  split at admitted
  next => cases admitted
  next found => rw [found, Option.isSome_some]

/-- The start of a command is noted for everyone who is admitted. -/
theorem ensures_startCommand (admitted : shared.tables.admitted key = .ok caller) (description : String)
    (category : History.Category) :
    Ensures Shared.Answers
      (fun _ last => ∃ entry, last = { shared with tables := (shared.tables.insertEntry entry).2 }) (fun _ _ => False)
      (startCommand key description category) shared := by
  unfold startCommand
  rw [ensures_bind]
  apply ((reads_check key).ensures).mono
  · rintro _ _ ⟨_, rfl⟩
    rw [ensures_bind, Service.ensures_ask]
    rintro now _ rfl
    apply (Service.ensures_store (.insertEntry _)).mpr
    constructor
    · rintro number next ⟨_, rfl⟩
      exact ⟨_, rfl⟩
    · rintro fault next ⟨told, _⟩
      cases told
  · rintro cause last ⟨refused, _⟩
    rw [admitted] at refused
    cases refused

/-- The end of a command is noted for everyone who has a session. -/
theorem ensures_record (known : (shared.tables.session? key).isSome = true) (description : String)
    (category : History.Category) (status : History.Status) (object : Option String) :
    Ensures Shared.Answers (fun _ _ => True) (fun _ _ => False) (record key description category status object)
      shared := ensures_record_among (fun answered => ⟨_, .refl _, answered⟩) known description category status object

/-- A command of someone who is admitted, between its start and its end in the history: what it comes to is what the
caller gets, if what is said of it minds neither sessions nor the history. -/
theorem ensures_within_admitted {setting : Setting Shared} {gives : α → Shared → Prop} {fails : Failure → Shared → Prop}
    {command : Service α}
    (faithful : ∀ {state next : Shared} {request : Request} {reply : request.Reply}, request.isOfSession = true →
      setting state request reply next → state.Answers request reply next)
    (stillGives : ∀ {value before after}, Shared.IsNoted before after → gives value before → gives value after)
    (stillFails : ∀ {cause before after}, Shared.IsNoted before after → fails cause before → fails cause after)
    (admitted : shared.tables.admitted key = .ok caller)
    (ensured : ∀ entry, Ensures setting
      (fun value last => gives value last ∧ last.tables.sessions = shared.tables.sessions)
      (fun cause last => fails cause last ∧ last.tables.sessions = shared.tables.sessions) command
      { shared with tables := (shared.tables.insertEntry entry).2 })
    (description : String) (category : History.Category) (object : α → Option String) :
    Ensures setting gives fails (within key description category object command) shared := by
  have noted {middle : Shared} (same : middle.tables.sessions = shared.tables.sessions) (status : History.Status)
      (made : Option String) : Ensures setting (fun _ last => True ∧ middle.IsNoted last)
        (fun _ last => False ∧ middle.IsNoted last) (record key description category status made) middle := by
    have known : (middle.tables.session? key).isSome = true := by
      have here := session?_isSome_of_admitted admitted
      rwa [Store.Tables.session?, ← same] at here
    have asks := asks_record key description category status made
    exact (asks.ensures_as faithful (ensures_record known _ _ _ _)).and
      (asks.ensures_as (fun member answered => .inl (faithful member answered)) (ensures_noted asks middle))
  have starts := (asks_startCommand key description category).ensures_as faithful
    (ensures_startCommand admitted description category)
  refine ensures_within_parts object (starts.mono (fun _ _ known => known) fun _ _ never => never.elim) ?_
  rintro _ ⟨entry, rfl⟩
  refine (ensured entry).mono (fun value middle known => ?_) fun cause middle known => ?_
  · exact (noted known.2 _ _).mono (fun _ _ ended => stillGives ended.2 known.1) fun _ _ never => never.1.elim
  · exact (noted known.2 _ _).mono (fun _ _ ended => stillFails ended.2 known.1) fun _ _ never => never.1.elim

/-- A command that comes to an end does so between its start and its end in the history. -/
theorem concludes_within {setting : Setting Shared} {command : Service α}
    (answered : ∀ (state : Shared) (request : Request), request.isOfSession = true →
      ∃ reply next, setting state request reply next) (description : String) (category : History.Category)
    (object : α → Option String)
    (concludes : ∀ number noted, Finishes setting (startCommand key description category) shared (.ok number) noted →
      Concludes setting command noted) :
    Concludes setting (within key description category object command) shared := by
  unfold within
  apply ((asks_startCommand key description category).concludes answered shared).bind
  intro number noted started
  apply (concludes number noted started).attempt.bind
  intro result middle _
  apply ((asks_record key description category _ _).concludes answered middle).bind
  intro _ last _
  have ends : Asks Request.isOfSession (Service.ofExcept result) := Service.asks_ofExcept result
  exact ends.concludes answered last

end Session

end Dispatch
