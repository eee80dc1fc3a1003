import Dispatch.Proofs.Plan.Footprint
import Dispatch.Proofs.Plan.Record
/-!
Plans that are under way together, with the place of the plan that gets each reply. What one plan has asked and been
told is its own part of the run, and of that all holds that the plan keeps by itself.
-/
namespace Dispatch

/-- A moment of the plan at that place. -/
structure Turn (σ : Type) where
  place : Nat
  moment : Moment σ

/-- What the plan at that place has asked and been told, in order. -/
def turnsOf {σ : Type} (place : Nat) (turns : List (Turn σ)) : List (Moment σ) :=
  turns.filterMap fun turn => if turn.place = place then some turn.moment else none

/-- The same without the states. -/
def logOf {σ : Type} (place : Nat) (turns : List (Turn σ)) : List (Moment Unit) :=
  (turnsOf place turns).map Moment.bare

/-- What holds of every element of a list and those before it, with one more at the end. -/
theorem forall_take_snoc {α : Type} {list : List α} {last : α} (rule : α → List α → Prop) :
    (∀ index (bound : index < (list ++ [last]).length), rule (list ++ [last])[index] ((list ++ [last]).take index)) ↔
      (∀ index (bound : index < list.length), rule list[index] (list.take index)) ∧ rule last list := by
  constructor
  · refine fun holds => ⟨fun index bound => ?_, ?_⟩
    · have known := holds index (by simp; omega)
      rwa [List.getElem_append_left bound, List.take_append_of_le_length (Nat.le_of_lt bound)] at known
    · have known := holds list.length (by simp)
      rwa [List.getElem_concat_length rfl, List.take_left] at known
  · rintro ⟨holds, ends⟩ index bound
    rcases Nat.lt_or_ge index list.length with earlier | beyond
    · rw [List.getElem_append_left earlier, List.take_append_of_le_length (Nat.le_of_lt earlier)]
      exact holds index earlier
    · obtain rfl : index = list.length := by
        simp at bound
        omega
      rw [List.getElem_concat_length rfl, List.take_left]
      exact ends

section TurnsOf

variable {σ : Type} {place : Nat} {turns : List (Turn σ)} {turn : Turn σ} {moment : Moment σ}

theorem turnsOf_snoc (place : Nat) (turns : List (Turn σ)) (turn : Turn σ) :
    turnsOf place (turns ++ [turn]) = turnsOf place turns ++ if turn.place = place then [turn.moment] else [] := by
  by_cases own : turn.place = place <;> simp [turnsOf, List.filterMap_append, own]

theorem logOf_snoc (place : Nat) (turns : List (Turn σ)) (turn : Turn σ) :
    logOf place (turns ++ [turn]) = logOf place turns ++ if turn.place = place then [turn.moment.bare] else [] := by
  rw [logOf, turnsOf_snoc, List.map_append, logOf]
  split <;> rfl

theorem mem_of_mem_turnsOf (member : moment ∈ turnsOf place turns) : moment ∈ turns.map Turn.moment := by
  obtain ⟨turn, present, own⟩ := List.mem_filterMap.mp member
  exact List.mem_map.mpr ⟨turn, present, Option.some.inj (Option.ite_none_right_eq_some.mp own).2⟩

/-- What a plan has been told, it has been told at one of its turns. -/
theorem mem_logOf {bare : Moment Unit} (member : bare ∈ logOf place turns) :
    ∃ front turn back, turns = front ++ turn :: back ∧ turn.place = place ∧ turn.moment.bare = bare := by
  obtain ⟨moment, present, rfl⟩ := List.mem_map.mp member
  obtain ⟨turn, inside, own⟩ := List.mem_filterMap.mp present
  obtain ⟨here, same⟩ := Option.ite_none_right_eq_some.mp own
  obtain ⟨front, back, rfl⟩ := List.append_of_mem inside
  exact ⟨front, turn, back, rfl, here, congrArg Moment.bare (Option.some.inj same)⟩

/-- A moment in what one plan has asked and been told, at its turn. -/
theorem exists_of_logOf_split {before after : List (Moment Unit)} {bare : Moment Unit}
    (split : logOf place turns = before ++ bare :: after) :
    ∃ front turn back, turns = front ++ turn :: back ∧ turn.place = place ∧ turn.moment.bare = bare ∧
      logOf place front = before ∧ logOf place back = after := by
  induction turns generalizing before with
  | nil => simp [logOf, turnsOf] at split
  | cons first rest ih =>
    by_cases own : first.place = place
    · have begins (turns : List (Turn σ)) : logOf place (first :: turns) = first.moment.bare :: logOf place turns := by
        simp [logOf, turnsOf, own]
      rw [begins] at split
      cases before with
      | nil =>
        obtain ⟨rfl, rfl⟩ := List.cons.inj split
        exact ⟨[], first, rest, rfl, own, rfl, rfl, rfl⟩
      | cons other before =>
        obtain ⟨rfl, later⟩ := List.cons.inj split
        obtain ⟨front, turn, back, rfl, here, same, early, late⟩ := ih later
        exact ⟨first :: front, turn, back, rfl, here, same, by rw [begins, early], late⟩
    · have skips (turns : List (Turn σ)) : logOf place (first :: turns) = logOf place turns := by
        simp [logOf, turnsOf, own]
      rw [skips] at split
      obtain ⟨front, turn, back, rfl, here, same, early, late⟩ := ih split
      exact ⟨first :: front, turn, back, rfl, here, same, by rw [skips, early], late⟩

end TurnsOf

namespace Plan

variable {σ κ α : Type}

/-- A plan gets to another one by these replies. -/
inductive Leads (plan : Plan α) : List (Moment σ) → Plan α → Prop
  | start : Leads plan [] plan
  | reply {log : List (Moment σ)} {before after : σ} {request : Request} {rest : request.Reply → Plan α}
      (led : Leads plan log (.ask request rest)) (reply : request.Reply) :
      Leads plan (log ++ [({ before, request, reply, after } : Moment σ)]) (rest reply)

/-- The value of a plan that is over. -/
def ended? : Plan α → Option α
  | done value => some value
  | ask .. => none

theorem eq_done_of_ended {plan : Plan α} {value : α} (ended : plan.ended? = some value) : plan = done value := by
  cases plan with
  | done given => exact congrArg done (Option.some.inj ended)
  | ask request rest => cases ended

/-- With another value at its end a plan goes the same way. -/
theorem Leads.of_bind {β : Type} {convert : α → β} {plan : Plan α} {log : List (Moment σ)} {now : Plan β}
    (led : (plan.bind fun value => done (convert value)).Leads log now) :
    ∃ before, plan.Leads log before ∧ now = before.bind fun value => done (convert value) := by
  induction led with
  | start => exact ⟨plan, .start, rfl⟩
  | reply led reply ih =>
    obtain ⟨before, ledBefore, same⟩ := ih
    cases before with
    | done value => cases same
    | ask request next =>
      cases same
      exact ⟨next reply, ledBefore.reply reply, rfl⟩

theorem Leads.of_bind_done {β : Type} {convert : α → β} {plan : Plan α} {log : List (Moment σ)} {result : β}
    (led : (plan.bind fun value => done (convert value)).Leads log (done result)) :
    ∃ value, plan.Leads log (done value) ∧ result = convert value := by
  obtain ⟨before, ledBefore, same⟩ := led.of_bind
  cases before with
  | done value =>
    cases same
    exact ⟨value, ledBefore, rfl⟩
  | ask request next => cases same

/-- What is known after a log. -/
def learned (protocol : Protocol κ) (known : κ) (log : List (Moment σ)) : κ :=
  log.foldl (fun known moment => protocol.learn known moment.request moment.reply) known

theorem learned_snoc (protocol : Protocol κ) (known : κ) (log : List (Moment σ)) (moment : Moment σ) :
    learned protocol known (log ++ [moment]) =
      protocol.learn (learned protocol known log) moment.request moment.reply := by
  rw [learned, List.foldl_append]
  rfl

/-- A plan that keeps a protocol has kept it all along its log, as far as the replies can be trusted, and keeps it
from there. -/
theorem Keeps.leads {protocol : Protocol κ} {ends : α → κ → Prop} {known : κ} {plan now : Plan α}
    {log : List (Moment σ)} (kept : plan.Keeps protocol ends known) (led : plan.Leads log now)
    (trusted : ∀ moment ∈ log, protocol.trusts moment.request moment.reply) :
    Throughout (fun front moment => protocol.permits (learned protocol known front) moment.request) log ∧
      now.Keeps protocol ends (learned protocol known log) := by
  induction led with
  | start => exact ⟨throughout_nil, kept⟩
  | reply led reply ih =>
    obtain ⟨permitted, keeping⟩ := ih fun moment member => trusted moment (List.mem_append_left _ member)
    refine ⟨permitted.snoc keeping.1, ?_⟩
    rw [learned_snoc]
    exact keeping.2 reply (trusted _ (List.mem_append_right _ (List.mem_singleton.mpr rfl)))

/-- Whoever remembers all that has been asked and replied. -/
def mindful (rule : List (Moment Unit) → Request → Prop) : Protocol (List (Moment Unit)) where
  permits := rule
  learn log request reply := log ++ [{ before := (), request, reply, after := () }]

theorem learned_mindful (rule : List (Moment Unit) → Request → Prop) (front : List (Moment Unit))
    (log : List (Moment σ)) : learned (mindful rule) front log = front ++ log.map Moment.bare := by
  induction log generalizing front with
  | nil => simp [learned]
  | cons moment log ih =>
    change learned (mindful rule) (front ++ [moment.bare]) log = _
    rw [ih]
    simp

/-- A plan that minds a rule has minded it at every moment of its log. -/
theorem Keeps.minded {rule : List (Moment Unit) → Request → Prop} {ends : α → List (Moment Unit) → Prop}
    {plan now : Plan α} {log : List (Moment σ)} (kept : plan.Keeps (mindful rule) ends [])
    (led : plan.Leads log now) :
    Throughout (fun front moment => rule front moment.request) (log.map Moment.bare) := by
  intro front moment back same
  obtain ⟨before, others, rfl, rfl, sameOthers⟩ := List.map_eq_append_iff.mp same
  obtain ⟨asked, after, rfl, rfl, -⟩ := List.map_eq_cons_iff.mp sameOthers
  have permitted : rule (learned (mindful rule) [] before) asked.request :=
    (kept.leads led fun _ _ => trivial).1 before asked after rfl
  rwa [learned_mindful] at permitted

section Mindful

variable {ε β : Type} {rule : List (Moment Unit) → Request → Prop} {allowed : Request → Bool}
  {log : List (Moment Unit)}

/-- What has been added to a log is of a footprint. -/
def Adds (allowed : Request → Bool) (log longer : List (Moment Unit)) : Prop :=
  ∃ added, longer = log ++ added ∧ ∀ moment ∈ added, allowed moment.request = true

theorem adds_nil (allowed : Request → Bool) (log : List (Moment Unit)) : Adds allowed log log :=
  ⟨[], by simp, by simp⟩

theorem Adds.snoc {longer : List (Moment Unit)} {moment : Moment Unit} (adds : Adds allowed log longer)
    (member : allowed moment.request = true) : Adds allowed log (longer ++ [moment]) := by
  obtain ⟨added, rfl, within⟩ := adds
  refine ⟨added ++ [moment], by rw [List.append_assoc], fun other present => ?_⟩
  rcases List.mem_append.mp present with earlier | here
  · exact within other earlier
  · exact List.mem_singleton.mp here ▸ member

theorem Adds.subset {longer : List (Moment Unit)} (adds : Adds allowed log longer) : log ⊆ longer := by
  obtain ⟨added, rfl, -⟩ := adds
  exact List.subset_append_left _ _

/-- Where a footprint minds a rule, so does a plan of that footprint. -/
theorem Yields.minds {expected : α → Prop} {task : ExceptT ε Plan α} (yields : Yields allowed expected task)
    (minded : ∀ longer request, Adds allowed log longer → allowed request = true → rule longer request) :
    Tries (mindful rule) (fun value longer => expected value ∧ Adds allowed log longer)
      (fun _ longer => Adds allowed log longer) task log := by
  refine Keeps.of_footprint yields (Adds allowed log) ?_ ?_ (adds_nil allowed log)
  · exact fun longer request adds member => ⟨minded longer request adds member, fun _ => adds.snoc member⟩
  · intro result longer adds given
    cases result with
    | ok value => exact ⟨given, adds⟩
    | error cause => exact adds

/-- A plan of a footprint that minds a rule, and of which it is certain what it comes to. -/
theorem Logs.minds {gives : α → List (Moment Unit) → Prop} {fails : ε → List (Moment Unit) → Prop}
    {expected : α → Prop} {task : ExceptT ε Plan α} (logs : Logs gives fails task)
    (yields : Yields allowed expected task)
    (minded : ∀ longer request, Adds allowed log longer → allowed request = true → rule longer request) :
    Tries (mindful rule)
      (fun value longer => ∃ added, longer = log ++ added ∧ gives value added ∧
        ∀ moment ∈ added, allowed moment.request = true)
      (fun cause longer => ∃ added, longer = log ++ added ∧ fails cause added ∧
        ∀ moment ∈ added, allowed moment.request = true) task log := by
  have walk {plan : Plan (Except ε α)} {added : List (Moment Unit)} {given : Except ε α → Unit → Prop}
      (within : ∀ moment ∈ added, allowed moment.request = true)
      (kept : plan.Keeps (Protocol.within allowed) given ())
      (logged : Ensures Setting.anything.recorded (fun value last => gives value last.trace)
        (fun cause last => fails cause last.trace) (ExceptT.mk plan) { state := (), trace := added }) :
      Tries (mindful rule)
        (fun value longer => ∃ added, longer = log ++ added ∧ gives value added ∧
          ∀ moment ∈ added, allowed moment.request = true)
        (fun cause longer => ∃ added, longer = log ++ added ∧ fails cause added ∧
          ∀ moment ∈ added, allowed moment.request = true) (ExceptT.mk plan) (log ++ added) := by
    induction plan generalizing added with
    | done result =>
      have ended := logged result _ ⟨rfl, rfl⟩
      cases result with
      | ok value => exact ⟨added, rfl, ended, within⟩
      | error cause => exact ⟨added, rfl, ended, within⟩
    | ask request next ih =>
      refine And.intro (minded _ request ⟨added, rfl, within⟩ kept.1) fun reply _ => ?_
      let moment : Moment Unit := { before := (), request, reply, after := () }
      change Tries _ _ _ (ExceptT.mk (next reply)) (log ++ added ++ [moment])
      rw [List.append_assoc]
      refine ih reply (fun other member => ?_) (kept.2 reply trivial) fun result last later => ?_
      · rcases List.mem_append.mp member with earlier | here
        · exact within other earlier
        · exact List.mem_singleton.mp here ▸ kept.1
      · exact logged result last ⟨reply, { state := (), trace := added ++ [moment] }, ⟨trivial, rfl⟩, later⟩
  have nothing : ∀ moment ∈ ([] : List (Moment Unit)), allowed moment.request = true := by simp
  have minds := walk nothing yields logs
  rwa [List.append_nil] at minds

/-- What is certain of a plan that remembers is certain of its log, once it has come to a value. -/
theorem Tries.of_leads {gives : α → List (Moment Unit) → Prop} {fails : ε → List (Moment Unit) → Prop}
    {task : ExceptT ε Plan α} (tried : Tries (mindful rule) gives fails task []) {log : List (Moment σ)} {value : α}
    (led : task.run.Leads log (.done (.ok value))) : gives value (log.map Moment.bare) := by
  have known := (Keeps.leads tried led fun _ _ => trivial).2
  rw [learned_mindful, List.nil_append] at known
  exact known

/-- Whoever remembers forgets nothing. -/
theorem Tries.grows {gives : α → List (Moment Unit) → Prop} {fails : ε → List (Moment Unit) → Prop}
    {task : ExceptT ε Plan α} (tried : Tries (mindful rule) gives fails task log) :
    Tries (mindful rule) (fun value longer => gives value longer ∧ log <+: longer)
      (fun cause longer => fails cause longer ∧ log <+: longer) task log := by
  have walk {plan : Plan (Except ε α)} {ends : Except ε α → List (Moment Unit) → Prop} {now : List (Moment Unit)}
      (grown : log <+: now) (kept : plan.Keeps (mindful rule) ends now) :
      plan.Keeps (mindful rule) (fun result longer => ends result longer ∧ log <+: longer) now := by
    induction plan generalizing now with
    | done result => exact ⟨kept, grown⟩
    | ask request next ih =>
      exact ⟨kept.1, fun reply _ => ih reply (grown.trans (List.prefix_append _ _)) (kept.2 reply trivial)⟩
  refine Keeps.mono (walk (List.prefix_refl log) tried) fun result longer known => ?_
  cases result with
  | ok value => exact known
  | error cause => exact known

end Mindful

end Plan

open Plan

section Minding

variable {α β : Type} {rule : List (Moment Unit) → Request → Prop} {log : List (Moment Unit)}

/-- Minding a rule, with nothing said about the result. -/
abbrev Minds (rule : List (Moment Unit) → Request → Prop) (service : Service α) (log : List (Moment Unit)) : Prop :=
  Tries (mindful rule) (fun _ _ => True) (fun _ _ => True) service log

theorem Minds.bind {service : Service α} {rest : α → Service β} (minds : Minds rule service log)
    (next : ∀ value longer, log <+: longer → Minds rule (rest value) longer) : Minds rule (service >>= rest) log :=
  (tries_bind _ _).mpr (minds.grows.mono (fun value longer grown => next value longer grown.2) fun _ _ _ => trivial)

theorem Minds.attempt {service : Service α} {rest : Except Failure α → Service β} (minds : Minds rule service log)
    (next : ∀ result longer, log <+: longer → Minds rule (rest result) longer) :
    Minds rule (Service.attempt service >>= rest) log :=
  Minds.bind ((Service.tries_attempt service).mpr minds) next

/-- What is allowed by the rule, and then the rest. -/
theorem Minds.after {allowed : Request → Bool} {expected : α → Prop} {service : Service α} {rest : α → Service β}
    (yields : Yields allowed expected service)
    (minded : ∀ longer request, Adds allowed log longer → allowed request = true → rule longer request)
    (next : ∀ value longer, expected value → Adds allowed log longer → Minds rule (rest value) longer) :
    Minds rule (service >>= rest) log :=
  (tries_bind _ _).mpr ((yields.minds minded).mono (fun value longer known => next value longer known.1 known.2)
    fun _ _ _ => trivial)

end Minding

namespace Pool

variable {σ κ α : Type} {setting : Setting σ}

/-- The plan at one of the places gets a reply. -/
inductive Takes (setting : Setting σ) : Pool σ α → Turn σ → Pool σ α → Prop
  | reply {state : σ} {request : Request} {reply : request.Reply} {next : σ} (front back : List (Plan α))
      (rest : request.Reply → Plan α) (answered : setting state request reply next) :
      Takes setting { state, plans := front ++ .ask request rest :: back }
        { place := front.length, moment := { before := state, request, reply, after := next } }
        { state := next, plans := front ++ rest reply :: back }

/-- What happens from one pool to another, turn after turn. -/
inductive Plays (setting : Setting σ) (pool : Pool σ α) : List (Turn σ) → Pool σ α → Prop
  | start : Plays setting pool [] pool
  | step {middle last : Pool σ α} {turns : List (Turn σ)} {turn : Turn σ} (run : Plays setting pool turns middle)
      (next : Takes setting middle turn last) : Plays setting pool (turns ++ [turn]) last

variable {pool last : Pool σ α} {turns : List (Turn σ)}

/-- Without the places it is a run. -/
theorem Plays.runs (played : Plays setting pool turns last) :
    Runs setting pool (turns.map Turn.moment) last := by
  induction played with
  | start => exact .start
  | step run next ih =>
    rw [List.map_append]
    cases next with
    | reply front back rest answered => exact .step ih (.reply front back rest answered)

theorem Plays.cons {middle : Pool σ α} {turn : Turn σ} (first : Takes setting pool turn middle)
    (played : Plays setting middle turns last) : Plays setting pool (turn :: turns) last := by
  induction played with
  | start => exact .step .start first
  | step run next ih => exact .step ih next

/-- A plan that runs alone is a pool of one. -/
theorem plays_of_ends {plan : Plan α} {state final : σ} {result : α} (ended : plan.Ends setting state result final) :
    ∃ turns, Plays setting { state, plans := [plan] } turns { state := final, plans := [.done result] } := by
  induction plan generalizing state with
  | done value =>
    obtain ⟨rfl, rfl⟩ := ended
    exact ⟨[], .start⟩
  | ask request next ih =>
    obtain ⟨reply, middle, answered, later⟩ := ended
    obtain ⟨turns, played⟩ := ih reply later
    exact ⟨_, .cons (.reply [] [] next answered) played⟩

/-- Whoever does not move stays where it is. -/
theorem Takes.stands {next : Pool σ α} {turn : Turn σ} (moves : Takes setting pool turn next) {place : Nat}
    (other : turn.place ≠ place) : next.plans[place]? = pool.plans[place]? := by
  cases moves with
  | reply front back rest answered =>
    change front.length ≠ place at other
    rcases Nat.lt_or_gt_of_ne other with behind | ahead
    · rw [List.getElem?_append_right (by omega), List.getElem?_append_right (by omega), List.getElem?_cons,
        List.getElem?_cons, if_neg (by omega), if_neg (by omega)]
    · rw [List.getElem?_append_left ahead, List.getElem?_append_left ahead]

/-- Each plan goes its own way by its own part of the run. -/
theorem Plays.leads (played : Plays setting pool turns last) {place : Nat} {plan : Plan α}
    (begins : pool.plans[place]? = some plan) :
    ∃ now, last.plans[place]? = some now ∧ plan.Leads (turnsOf place turns) now := by
  induction played with
  | start => exact ⟨plan, begins, .start⟩
  | step run next ih =>
    obtain ⟨now, stands, led⟩ := ih
    rename_i turns turn
    by_cases own : turn.place = place
    · subst own
      cases next with
      | reply front back rest answered =>
        obtain rfl : .ask _ rest = now := by simpa using stands
        rename_i state request reply next
        refine ⟨rest reply, by simp, ?_⟩
        rw [turnsOf_snoc, if_pos rfl]
        exact led.reply reply
    · exact ⟨now, (next.stands own).trans stands, by rwa [turnsOf_snoc, if_neg own, List.append_nil]⟩

theorem Takes.place_lt {next : Pool σ α} {turn : Turn σ} (moves : Takes setting pool turn next) :
    turn.place < pool.plans.length := by
  cases moves with
  | reply front back rest answered => simp

theorem Takes.before_eq {next : Pool σ α} {turn : Turn σ} (moves : Takes setting pool turn next) :
    pool.state = turn.moment.before := by
  cases moves with
  | reply front back rest answered => rfl

theorem Takes.after_eq {next : Pool σ α} {turn : Turn σ} (moves : Takes setting pool turn next) :
    next.state = turn.moment.after := by
  cases moves with
  | reply front back rest answered => rfl

theorem Takes.answered {next : Pool σ α} {turn : Turn σ} (moves : Takes setting pool turn next) :
    setting turn.moment.before turn.moment.request turn.moment.reply turn.moment.after := by
  cases moves with
  | reply front back rest answered => exact answered

/-- Plans that keep to a footprint keep to it at each turn. -/
theorem Takes.within {allowed : Request → Bool} {next : Pool σ α} {turn : Turn σ} (moves : Takes setting pool turn next)
    (kept : ∀ plan ∈ pool.plans, plan.Keeps (Protocol.within allowed) (fun _ _ => True) ()) :
    allowed turn.moment.request = true ∧
      ∀ plan ∈ next.plans, plan.Keeps (Protocol.within allowed) (fun _ _ => True) () := by
  cases moves with
  | @reply _ request reply _ front back rest answered =>
    have own : Plan.Keeps (Protocol.within allowed) (fun _ _ => True) (.ask request rest) () := kept _ (by simp)
    refine ⟨own.1, fun plan member => ?_⟩
    rcases List.mem_append.mp member with before | later
    · exact kept plan (by simp [before])
    · rcases List.mem_cons.mp later with rfl | behind
      · exact own.2 reply trivial
      · exact kept plan (by simp [behind])

theorem Takes.mono {wider : Setting σ} {next : Pool σ α} {turn : Turn σ}
    (wide : ∀ {state next : σ} {request : Request} {reply : request.Reply}, setting state request reply next →
      wider state request reply next) (moves : Takes setting pool turn next) : Takes wider pool turn next := by
  cases moves with
  | reply front back rest answered => exact .reply front back rest (wide answered)

/-- In a setting with more replies all goes on as before. -/
theorem Plays.mono {wider : Setting σ}
    (wide : ∀ {state next : σ} {request : Request} {reply : request.Reply}, setting state request reply next →
      wider state request reply next) (played : Plays setting pool turns last) : Plays wider pool turns last := by
  induction played with
  | start => exact .start
  | step run next ih => exact .step ih (next.mono wide)

/-- As many plans as there were at first. -/
theorem Plays.length (played : Plays setting pool turns last) : last.plans.length = pool.plans.length := by
  induction played with
  | start => rfl
  | step run next ih =>
    cases next with
    | reply front back rest answered => simpa using ih

/-- A run stands still before and after each of its turns. -/
theorem Plays.split {front back : List (Turn σ)} {turn : Turn σ}
    (played : Plays setting pool (front ++ turn :: back) last) :
    ∃ middle next, Plays setting pool front middle ∧ Takes setting middle turn next := by
  generalize same : front ++ turn :: back = turns at played
  induction played generalizing back with
  | start => simp at same
  | step run next ih =>
    rcases snoc_split same.symm with ⟨rfl, rfl, -⟩ | ⟨rest, split, -⟩
    · exact ⟨_, _, run, next⟩
    · exact ih split.symm

/-- Where all plans mind a rule, each turn follows it, after what its plan has been told until then. -/
theorem Plays.minded {rule : List (Moment Unit) → Request → Prop} {ends : α → List (Moment Unit) → Prop}
    {middle next : Pool σ α} {turn : Turn σ} (played : Plays setting pool turns middle)
    (moves : Takes setting middle turn next)
    (kept : ∀ plan ∈ pool.plans[turn.place]?, plan.Keeps (mindful rule) ends []) :
    rule (logOf turn.place turns) turn.moment.request := by
  have bound : turn.place < pool.plans.length := played.length ▸ moves.place_lt
  have begins := List.getElem?_eq_getElem bound
  obtain ⟨_, -, led⟩ := (Plays.step played moves).leads begins
  rw [turnsOf_snoc, if_pos rfl] at led
  exact (kept _ begins).minded led (logOf turn.place turns) turn.moment.bare [] (by simp [logOf])

/-- Where the plan that moves keeps to a footprint, so does its turn. -/
theorem Plays.allowed {allowed : Request → Bool} {middle next : Pool σ α} {turn : Turn σ}
    (played : Plays setting pool turns middle) (moves : Takes setting middle turn next)
    (kept : ∀ plan ∈ pool.plans[turn.place]?, plan.Keeps (Protocol.within allowed) (fun _ _ => True) ()) :
    allowed turn.moment.request = true := by
  have minded : ∀ plan ∈ pool.plans[turn.place]?,
      plan.Keeps (mindful fun _ request => allowed request = true) (fun _ _ => True) [] := fun plan begins =>
    (kept plan begins).of_footprint (fun _ => True) (fun _ _ _ member => ⟨member, fun _ => trivial⟩)
      (fun _ _ _ _ => trivial) trivial
  exact played.minded moves minded

/-- Lets the plans move in the given order, with the place of each that has moved. -/
def playTurns (respond : Responder σ) : List Nat → Pool σ α → List (Turn σ) × Pool σ α
  | [], pool => ([], pool)
  | place :: places, pool =>
    match pool.plans[place]? with
    | some (.ask request rest) =>
      match respond request pool.state with
      | some (reply, next) =>
        let (turns, last) := playTurns respond places { state := next, plans := pool.plans.set place (rest reply) }
        ({ place, moment := { before := pool.state, request, reply, after := next } } :: turns, last)
      | none => playTurns respond places pool
    | some (.done _) | none => playTurns respond places pool

theorem plays_playTurns {respond : Responder σ} (answered : ∀ {request state reply next},
      respond request state = some (reply, next) → setting state request reply next)
    (places : List Nat) (pool : Pool σ α) :
    Plays setting pool (pool.playTurns respond places).1 (pool.playTurns respond places).2 := by
  induction places generalizing pool with
  | nil => exact .start
  | cons place places ih =>
    rw [playTurns]
    split
    next request rest found =>
      split
      next reply next replied =>
        obtain ⟨bound, same⟩ := List.getElem?_eq_some_iff.mp found
        have moved := Takes.reply (pool.plans.take place) (pool.plans.drop (place + 1)) rest (answered replied)
        have before : pool.plans.take place ++ .ask request rest :: pool.plans.drop (place + 1) = pool.plans := by
          rw [← same, List.getElem_cons_drop, List.take_append_drop]
        have after := List.set_eq_take_append_cons_drop (l := pool.plans) (i := place) (a := rest reply)
        rw [if_pos bound] at after
        rw [before, ← after, List.length_take_of_le (Nat.le_of_lt bound)] at moved
        exact Plays.cons moved (ih _)
      next => exact ih pool
    next => exact ih pool
    next => exact ih pool

/-- The same plans, where nobody asks what they come to. -/
def plain (pool : Pool σ α) : Pool σ Unit :=
  { state := pool.state, plans := pool.plans.map fun plan => plan.bind fun _ => .done () }

theorem playTurns_plain (respond : Responder σ) (places : List Nat) (pool : Pool σ α) :
    pool.plain.playTurns respond places =
      ((pool.playTurns respond places).1, (pool.playTurns respond places).2.plain) := by
  induction places generalizing pool with
  | nil => rfl
  | cons place places ih =>
    have same : pool.plain.plans[place]? = pool.plans[place]?.map fun plan => plan.bind fun _ => .done () :=
      List.getElem?_map
    rw [playTurns, playTurns, same]
    cases pool.plans[place]? with
    | none => exact ih pool
    | some plan =>
      cases plan with
      | done value => exact ih pool
      | ask request rest =>
        have state : pool.plain.state = pool.state := rfl
        simp only [Option.map_some, Plan.bind, state]
        cases respond request pool.state with
        | none => exact ih pool
        | some answer =>
          obtain ⟨reply, next⟩ := answer
          have later := ih { state := next, plans := pool.plans.set place (rest reply) }
          have plans : (pool.plans.set place (rest reply)).map (fun plan => plan.bind fun _ => .done ()) =
              pool.plain.plans.set place ((rest reply).bind fun _ => .done ()) := List.map_set
          rw [plain, plans] at later
          dsimp only
          rw [later]

end Pool

end Dispatch
