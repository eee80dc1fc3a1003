import Dispatch.Proofs.Job.Polling
/-!
How often the machine of a job is stopped when many ask for its status at once. Each stop is paid for: the first
by the end of the job, every other by a claim that was granted when the job had ended already, by a move that
the store lost, or by a stop that the provider refused.
-/
namespace Dispatch.Job

/-- Whether a job has ended, as far as it is stored. -/
def hasEnded (id : String) (shared : Shared) : Bool := (shared.tables.job? id).any fun job => job.status.isTerminal

/-- The claim of a job is granted. -/
def isGrant (id : String) : Moment Shared → Bool
  | ⟨_, .claim job, granted, _⟩ => job == id && granted
  | _ => false

/-- The claim is granted although the job has ended. -/
def isLateGrant (id : String) (moment : Moment Shared) : Bool := isGrant id moment && hasEnded id moment.before

/-- The provider is called to stop a machine. -/
def isStop : Moment Shared → Bool
  | ⟨_, .provider _ method params, _, _⟩ => isStopCall method params
  | _ => false

def isRefusedStop : Moment Shared → Bool
  | ⟨_, .provider _ method params, reply, _⟩ => isStopCall method params && !isAccepted reply
  | _ => false

/-- The store fails to move a job. -/
def isLostMove (id : String) : Moment Shared → Bool
  | ⟨_, .store (.transitionJob job _ _), .error _, _⟩ => job == id
  | _ => false

/-- The claim that is held at the end of a trace, if any is. -/
def lastGrant (id : String) (trace : List (Moment Shared)) : Option (Moment Shared) :=
  (trace.filter (isGrant id)).getLast?

/-- What a place is asked, it is asked under a claim, and since that was granted the job has neither ended nor
come back. -/
def IsAskedFairly (id : String) (trace : List (Moment Shared)) : Prop :=
  ∀ front query back, trace = front ++ query :: back → query.request.isOutward = true →
    ∃ grant, lastGrant id front = some grant ∧ hasEnded id grant.before = hasEnded id query.before

/-- The stops that have been paid for ahead: one while the holder has stopped the machine and not yet moved the
job, none while it is still asking, and one once the job has ended. -/
def owed (ended : Bool) : Option Stage → Nat
  | some .probing => 0
  | some .stopped => 1
  | _ => ended.toNat

/-- The account of all that has happened, with the one who holds the claim. -/
structure Account (id : String) (shared : Shared) (trace : List (Moment Shared)) (holder : Option Stage) :
    Prop where
  claimed : shared.claimed.contains id = holder.isSome
  stops : trace.countP isStop ≤ trace.countP (isLateGrant id) + trace.countP (isLostMove id) +
    trace.countP isRefusedStop + owed (hasEnded id shared) holder
  granted : holder = some .probing ∨ holder = some .stopped →
    ∃ grant, lastGrant id trace = some grant ∧ hasEnded id grant.before = hasEnded id shared
  asked : IsAskedFairly id trace

theorem IsAskedFairly.snoc {id : String} {trace : List (Moment Shared)} {moment : Moment Shared}
    (asked : IsAskedFairly id trace) (last : moment.request.isOutward = true →
      ∃ grant, lastGrant id trace = some grant ∧ hasEnded id grant.before = hasEnded id moment.before) :
    IsAskedFairly id (trace ++ [moment]) := by
  intro front query back same outward
  rcases List.eq_nil_or_concat back with rfl | ⟨before, ending, rfl⟩
  · obtain ⟨rfl, rfl⟩ : trace = front ∧ moment = query := by simpa using same
    exact last outward
  · have split : trace = front ++ query :: before ∧ moment = ending := by
      have regrouped : trace ++ [moment] = (front ++ query :: before) ++ [ending] := by simpa using same
      exact List.append_singleton_inj.mp regrouped
    exact asked front query before split.1 outward

theorem lastGrant_snoc_of_not {id : String} {trace : List (Moment Shared)} {moment : Moment Shared}
    (other : isGrant id moment = false) : lastGrant id (trace ++ [moment]) = lastGrant id trace := by
  simp [lastGrant, List.filter_append, other]

theorem lastGrant_snoc {id : String} {trace : List (Moment Shared)} {moment : Moment Shared}
    (grant : isGrant id moment = true) : lastGrant id (trace ++ [moment]) = some moment := by
  simp [lastGrant, List.filter_append, grant]

theorem isStop_of_inward {moment : Moment Shared} (inward : moment.request.isOutward = false) :
    isStop moment = false := by
  obtain ⟨_, request, _, _⟩ := moment
  cases request with
  | provider => cases inward
  | _ => rfl

theorem isRefusedStop_of_not {moment : Moment Shared} (other : isStop moment = false) :
    isRefusedStop moment = false := by
  obtain ⟨_, request, _, _⟩ := moment
  cases request with
  | provider endpoint method params =>
    have noCall : isStopCall method params = false := other
    simp [isRefusedStop, noCall]
  | _ => rfl

/-- A job that is moved to the completed status has ended then, whether or not it had before. -/
theorem hasEnded_of_completed {id : String} {shared after : Shared} {instant : Instant} {status : Status}
    (served : shared.Serves (.store (.transitionJob id .completed instant)) (.ok status) after) :
    hasEnded id after = true := by
  rcases Shared.serves_store served with ⟨moved, rfl⟩ | ⟨⟨_, failed⟩, _⟩
  · obtain ⟨row, found, rfl, completed | unable⟩ := Store.Tables.transitionJob_tells moved.symm
    · simp [hasEnded, Store.Tables.answer, found, completed, Status.isTerminal]
    · have ended : row.status.isTerminal = true := by
        cases status : row.status <;> simp [status, Status.canBecome, Status.isTerminal] at unable ⊢
      simp [hasEnded, Store.Tables.answer, found, ended]
  · cases failed

section Steps

variable {id : String} {shared next : Shared} {trace : List (Moment Shared)} {holder : Option Stage}

/-- A moment that is none of those that count. -/
theorem Account.pass {moment : Moment Shared} (account : Account id shared trace holder)
    (claimed : next.claimed = shared.claimed) (ended : hasEnded id next = hasEnded id shared)
    (inward : moment.request.isOutward = false) (noGrant : isGrant id moment = false)
    (noMove : isLostMove id moment = false) : Account id next (trace ++ [moment]) holder := by
  have noStop := isStop_of_inward inward
  refine ⟨?_, ?_, ?_, ?_⟩
  · rw [claimed]
    exact account.claimed
  · have stops := account.stops
    simpa [List.countP_append, isLateGrant, noStop, isRefusedStop_of_not noStop, noGrant, noMove, ended] using
      stops
  · rw [lastGrant_snoc_of_not noGrant, ended]
    exact account.granted
  · exact account.asked.snoc fun outward => by simp [inward] at outward

/-- The claim is granted; if the job has ended already, that pays for one stop more. -/
theorem Account.grant (account : Account id shared trace none) :
    Account id { shared with claimed := id :: shared.claimed }
      (trace ++ [⟨shared, .claim id, true, { shared with claimed := id :: shared.claimed }⟩])
      (some .probing) := by
  have grants : isGrant id ⟨shared, .claim id, true, { shared with claimed := id :: shared.claimed }⟩ = true := by
    simp [isGrant]
  refine ⟨by simp, ?_, ?_, ?_⟩
  · have stops := account.stops
    simp only [owed] at stops
    simp only [List.countP_append, List.countP_singleton, isLateGrant, grants, isStop, isRefusedStop, isLostMove,
      owed, Bool.true_and]
    -- What is owed after the end is taken over by the grant, which is late then.
    cases ended : hasEnded id shared <;> simp [ended] at stops ⊢ <;> omega
  · exact fun _ => ⟨_, lastGrant_snoc grants, rfl⟩
  · exact account.asked.snoc fun outward => nomatch outward

/-- A place is asked under the claim. Only a stop that succeeds changes where the holder stands. -/
theorem Account.ask {request : Request} {reply : request.Reply}
    (account : Account id shared trace (some .probing)) (outward : request.isOutward = true) :
    Account id shared (trace ++ [⟨shared, request, reply, shared⟩])
      (some ((polling id).learn .probing request reply)) := by
  obtain ⟨grant, last, same⟩ := account.granted (.inl rfl)
  have noGrant : isGrant id ⟨shared, request, reply, shared⟩ = false := by
    cases request with
    | claim => cases outward
    | _ => rfl
  have noMove : isLostMove id ⟨shared, request, reply, shared⟩ = false := by
    cases request with
    | store => cases outward
    | _ => rfl
  refine ⟨account.claimed, ?_, ?_, ?_⟩
  · have stops := account.stops
    simp only [owed, Nat.add_zero] at stops
    simp only [List.countP_append, List.countP_singleton, isLateGrant, noGrant, noMove, Bool.false_and]
    cases request with
    | provider endpoint method params =>
      cases called : isStopCall method params <;> cases accepted : isAccepted reply <;>
        simp [isStop, isRefusedStop, polling, called, accepted, owed] <;> omega
    | store | claim | release | now | nonce | machine | verify | enterMint | leaveMint | stage | discard =>
      cases outward
    | remote | pause | readFile | number => simpa [isStop, isRefusedStop, polling, owed] using stops
  · rw [lastGrant_snoc_of_not noGrant]
    exact fun _ => ⟨grant, last, same⟩
  · exact account.asked.snoc fun _ => ⟨grant, last, same⟩

/-- The holder moves the job on. A move that is lost pays for a stop more; otherwise the job has ended by now if
the machine was stopped. -/
theorem Account.move {stage : Stage} {next : Status} {instant : Instant} {reply : Except Store.Fault Status}
    {after : Shared} (account : Account id shared trace (some stage))
    (able : stage = .probing ∨ stage = .stopped ∧ next = .completed)
    (served : shared.Serves (.store (.transitionJob id next instant)) reply after) :
    Account id after (trace ++ [⟨shared, .store (.transitionJob id next instant), reply, after⟩])
      (some .settled) := by
  have claimed : after.claimed = shared.claimed := by
    rcases Shared.serves_store served with ⟨_, rfl⟩ | ⟨_, rfl⟩ <;> rfl
  refine ⟨?_, ?_, by simp, account.asked.snoc fun outward => nomatch outward⟩
  · rw [claimed]
    exact account.claimed
  · have stops := account.stops
    have paid : owed (hasEnded id shared) (some stage) ≤
        (if isLostMove id ⟨shared, .store (.transitionJob id next instant), reply, after⟩ = true then 1 else 0) +
          owed (hasEnded id after) (some .settled) := by
      rcases able with rfl | ⟨rfl, rfl⟩
      · exact Nat.zero_le _
      · cases reply with
        | error fault => simp [isLostMove, owed]
        | ok status => simp [hasEnded_of_completed served, owed]
    simp only [List.countP_append, List.countP_singleton, isLateGrant, isGrant, isStop, isRefusedStop,
      Bool.false_and, Bool.false_eq_true, if_false, Nat.add_zero]
    omega

/-- The claim is released, after a job was moved on or in vain. -/
theorem Account.release {stage : Stage} (account : Account id shared trace (some stage))
    (held : stage = .probing ∨ stage = .settled) :
    Account id { shared with claimed := shared.claimed.filter fun other => other ≠ id }
      (trace ++ [⟨shared, .release id, (),
        { shared with claimed := shared.claimed.filter fun other => other ≠ id }⟩]) none := by
  refine ⟨by simp, ?_, by simp, account.asked.snoc fun outward => nomatch outward⟩
  have stops := account.stops
  have paid : owed (hasEnded id shared) (some stage) ≤ owed (hasEnded id shared) none := by
    rcases held with rfl | rfl
    · exact Nat.zero_le _
    · exact Nat.le_refl _
  have same : hasEnded id { shared with claimed := shared.claimed.filter fun other => other ≠ id } =
      hasEnded id shared := rfl
  simp only [List.countP_append, List.countP_singleton, isLateGrant, isGrant, isStop, isRefusedStop, isLostMove,
    Bool.false_and, Bool.false_eq_true, if_false, Nat.add_zero, same]
  omega

theorem holds_learn_of_outward {request : Request} (reply : request.Reply) (outward : request.isOutward = true) :
    ((polling id).learn .probing request reply).holds = true := by
  cases request with
  | provider endpoint method params =>
    simp only [polling]
    split <;> rfl
  | number | remote | pause | readFile => rfl
  | _ => cases outward

/-- A step of one who holds the claim and has not stopped the machine. -/
theorem Account.step_probing {request : Request} {reply : request.Reply}
    (account : Account id shared trace (some .probing)) (permitted : (polling id).permits .probing request)
    (served : shared.Serves request reply next) :
    Account id next (trace ++ [⟨shared, request, reply, next⟩])
      (((polling id).learn .probing request reply).holder?) := by
  by_cases outward : request.isOutward = true
  · obtain rfl := served.eq_of_outward outward
    rw [Stage.holder?, if_pos (holds_learn_of_outward reply outward)]
    exact account.ask outward
  · cases request with
    | store call =>
      cases call with
      | transitionJob job next instant =>
        obtain rfl : job = id := permitted
        exact account.move (.inl rfl) served
      | findLocalAccount user machine =>
        rcases Shared.serves_store served with ⟨_, rfl⟩ | ⟨_, rfl⟩
        · exact account.pass rfl rfl rfl rfl rfl
        · exact account.pass rfl rfl rfl rfl rfl
      | _ => rcases permitted with no | no | no <;> cases no
    | release job =>
      obtain rfl : job = id := permitted
      obtain rfl := served.answers fun _ same => nomatch same
      exact account.release (.inl rfl)
    | machine | now =>
      obtain rfl : next = shared := served.answers fun _ same => nomatch same
      exact account.pass rfl rfl rfl rfl rfl
    | number | remote | provider | pause | readFile => exact absurd rfl outward
    | _ => rcases permitted with no | no | no <;> cases no

/-- A step of one who has stopped the machine. -/
theorem Account.step_stopped {request : Request} {reply : request.Reply}
    (account : Account id shared trace (some .stopped)) (permitted : (polling id).permits .stopped request)
    (served : shared.Serves request reply next) :
    Account id next (trace ++ [⟨shared, request, reply, next⟩])
      (((polling id).learn .stopped request reply).holder?) := by
  cases request with
  | store call =>
    cases call with
    | transitionJob job next instant =>
      obtain ⟨rfl, rfl⟩ := permitted
      exact account.move (.inr ⟨rfl, rfl⟩) served
    | _ => exact permitted.elim
  | now =>
    obtain rfl : next = shared := served.answers fun _ same => nomatch same
    exact account.pass rfl rfl rfl rfl rfl
  | _ => exact permitted.elim

/-- A step of one who has moved the job on. -/
theorem Account.step_settled {request : Request} {reply : request.Reply}
    (account : Account id shared trace (some .settled)) (permitted : (polling id).permits .settled request)
    (served : shared.Serves request reply next) :
    Account id next (trace ++ [⟨shared, request, reply, next⟩])
      (((polling id).learn .settled request reply).holder?) := by
  cases request with
  | release job =>
    obtain rfl : job = id := permitted
    obtain rfl := served.answers fun _ same => nomatch same
    exact account.release (.inr rfl)
  | _ => exact permitted.elim

/-- A step of one who does not hold the claim: the claim may be granted, and all else changes nothing. -/
theorem Account.step_idle {request : Request} {reply : request.Reply} (account : Account id shared trace holder)
    (permitted : (polling id).permits .idle request) (served : shared.Serves request reply next) :
    ((polling id).learn .idle request reply = .idle ∧
        Account id next (trace ++ [⟨shared, request, reply, next⟩]) holder) ∨
      (holder = none ∧ (polling id).learn .idle request reply = .probing ∧
        Account id next (trace ++ [⟨shared, request, reply, next⟩]) (some .probing)) := by
  cases request with
  | store call =>
    cases call with
    | findJob wanted =>
      rcases Shared.serves_store served with ⟨_, rfl⟩ | ⟨_, rfl⟩
      · exact .inl ⟨rfl, account.pass rfl rfl rfl rfl rfl⟩
      · exact .inl ⟨rfl, account.pass rfl rfl rfl rfl rfl⟩
    | _ => exact permitted.elim
  | claim job =>
    obtain rfl : job = id := permitted
    obtain ⟨granted, rfl⟩ := served.answers fun _ same => nomatch same
    rw [account.claimed] at granted
    cases holder with
    | none =>
      obtain rfl : reply = true := granted
      exact .inr ⟨rfl, rfl, account.grant⟩
    | some stage =>
      obtain rfl : reply = false := granted
      exact .inl ⟨rfl, account.pass rfl rfl rfl (by simp [isGrant]) rfl⟩
  | _ => exact permitted.elim

end Steps

/-- At most one of all that ask holds the claim, and the account is in order. -/
def IsAccounted (id : String) (shared : Shared) (trace : List (Moment Shared)) (stages : List Stage) : Prop :=
  ∃ holder : Option Stage, stages.filterMap Stage.holder? = holder.toList ∧ Account id shared trace holder

theorem holder_of_holds {front back : List Stage} {stage : Stage} {holder : Option Stage}
    (holds : stage.holds = true)
    (alone : (front ++ stage :: back).filterMap Stage.holder? = holder.toList) :
    holder = some stage ∧ front.filterMap Stage.holder? = [] ∧ back.filterMap Stage.holder? = [] := by
  have held : stage.holder? = some stage := by rw [Stage.holder?, if_pos holds]
  rw [List.filterMap_append, List.filterMap_cons_some held] at alone
  have total := congrArg List.length alone
  cases holder with
  | none => simp at total
  | some other =>
    simp only [List.length_append, List.length_cons, Option.toList_some, List.length_nil] at total
    have before : front.filterMap Stage.holder? = [] := List.length_eq_zero_iff.mp (by omega)
    have behind : back.filterMap Stage.holder? = [] := List.length_eq_zero_iff.mp (by omega)
    rw [before, behind] at alone
    simp only [List.nil_append, Option.toList_some, List.cons.injEq, and_true] at alone
    exact ⟨by rw [alone], before, behind⟩

theorem IsAccounted.step {id : String} {shared next : Shared} {trace : List (Moment Shared)}
    {front back : List Stage} {stage : Stage} {request : Request} {reply : request.Reply}
    (accounted : IsAccounted id shared trace (front ++ stage :: back))
    (permitted : (polling id).permits stage request) (served : shared.Serves request reply next) :
    IsAccounted id next (trace ++ [⟨shared, request, reply, next⟩])
      (front ++ (polling id).learn stage request reply :: back) := by
  obtain ⟨holder, alone, account⟩ := accounted
  -- Whoever holds the claim is the only one, so the account is about the one that moves.
  have held (holds : stage.holds = true) (stepped : holder = some stage →
      Account id next (trace ++ [⟨shared, request, reply, next⟩])
        ((polling id).learn stage request reply).holder?) :
      IsAccounted id next (trace ++ [⟨shared, request, reply, next⟩])
        (front ++ (polling id).learn stage request reply :: back) := by
    obtain ⟨same, before, behind⟩ := holder_of_holds holds alone
    refine ⟨_, ?_, stepped same⟩
    rw [List.filterMap_append, List.filterMap_cons, before, behind]
    cases ((polling id).learn stage request reply).holder? <;> rfl
  cases stage with
  | probing => exact held rfl fun same => (same ▸ account).step_probing permitted served
  | stopped => exact held rfl fun same => (same ▸ account).step_stopped permitted served
  | settled => exact held rfl fun same => (same ▸ account).step_settled permitted served
  | left => cases request <;> exact permitted.elim
  | idle =>
    have others : front.filterMap Stage.holder? ++ back.filterMap Stage.holder? = holder.toList := by
      rw [List.filterMap_append, List.filterMap_cons] at alone
      exact alone
    rcases account.step_idle permitted served with ⟨same, stepped⟩ | ⟨rfl, probes, stepped⟩
    · refine ⟨holder, ?_, stepped⟩
      rw [same]
      exact alone
    · obtain ⟨before, behind⟩ := List.append_eq_nil_iff.mp others
      refine ⟨some .probing, ?_, stepped⟩
      rw [probes, List.filterMap_append, List.filterMap_cons, before, behind]
      rfl

/-- A store that finds a job finds one with the identifier it was asked for. -/
theorem trusts_of_serves {id : String} {shared next : Shared} {request : Request} {reply : request.Reply}
    (served : shared.Serves request reply next) : (polling id).trusts request reply := by
  cases request with
  | store call =>
    cases call with
    | findJob wanted =>
      rcases Shared.serves_store served with ⟨rfl, _⟩ | ⟨⟨fault, rfl⟩, _⟩
      · cases found : shared.tables.job? wanted with
        | none => simp [polling, Store.Tables.answer, found]
        | some job => simpa [polling, Store.Tables.answer, found] using (Store.Tables.job?_some found).2
      · trivial
    | _ => trivial
  | _ => trivial

theorem IsAskedFairly.grant_of_ended {id : String} {trace : List (Moment Shared)}
    (asked : IsAskedFairly id trace) {query : Moment Shared} (member : query ∈ trace) (outward : query.request.isOutward = true)
    (ended : hasEnded id query.before = true) : 0 < trace.countP (isLateGrant id) := by
  obtain ⟨front, back, rfl⟩ := List.append_of_mem member
  obtain ⟨grant, last, same⟩ := asked front query back rfl outward
  have granted := List.mem_filter.mp (List.mem_of_getLast? last)
  refine List.countP_pos_iff.mpr ⟨grant, by simp [granted.1], ?_⟩
  rw [isLateGrant, granted.2, same, ended]
  rfl

/-- Any number of calls ask for the status of a job at once, in any order of their steps, with any answers of
the places, and with a store that may fail. Whether the job has ended when a place is asked about it was settled
when the claim was granted; so as long as no claim is granted after the end of the job, nobody is asked about a
job that has ended. Beyond the first, every stop of the machine is paid for by such a late claim, by a move that
the store lost, or by a stop that the provider refused. -/
theorem stops_are_paid_for {id : String} {start : Shared} {count : Nat} {trace : List (Moment Shared)}
    {last : Pool Shared (Except Failure Status)} (free : id ∉ start.claimed)
    (run : Pool.Runs Shared.Serves { state := start, plans := List.replicate count (refresh id).run } trace last) :
    IsAskedFairly id trace ∧
      (trace.countP (isLateGrant id) = 0 → ∀ query ∈ trace, query.request.isOutward = true →
        hasEnded id query.before = false) ∧
      trace.countP isStop ≤ 1 + trace.countP (isLateGrant id) + trace.countP (isLostMove id) +
        trace.countP isRefusedStop := by
  have kept : ∀ plan ∈ List.replicate count (refresh id).run,
      plan.Keeps (polling id) (fun _ _ => True) .idle := by
    intro plan member
    rw [List.eq_of_mem_replicate member]
    exact keeps_refresh id
  have begins : IsAccounted id start [] ((List.replicate count (refresh id).run).map fun _ => .idle) := by
    refine ⟨none, ?_, ?_, ?_, ?_, ?_⟩
    · rw [List.map_replicate]
      exact List.filterMap_replicate_of_none rfl
    · simpa using free
    · simp
    · simp
    · intro front query back same
      simp at same
  obtain ⟨_, _, _, holder, _, account⟩ := run.holds kept (fun _ _ _ _ => trusts_of_serves) (IsAccounted id) begins
    fun _ _ _ _ _ _ _ _ accounted permitted served => accounted.step permitted served
  refine ⟨account.asked, fun none query member outward => ?_, ?_⟩
  · by_contra ended
    have late := account.asked.grant_of_ended member outward (by simpa using ended)
    omega
  · have stops := account.stops
    have bound : owed (hasEnded id last.state) holder ≤ 1 := by
      unfold owed
      split
      next => exact Nat.zero_le _
      next => exact Nat.le_refl _
      next => exact Bool.toNat_le _
    omega

/-- A job whose process has gone, in a machine of its own. -/
def racedJob : Job :=
  { (default : Job) with id := "J", machine := "cloud", handle := some "7@vm@host@93", status := .running }

def racedCloud : Machine :=
  { id := "cloud", name := "cloud"
    platform := .cloud { endpoint := "http://one", user := "one", password := "one" } }

def racedStart : Shared := { tables := { jobs := [racedJob] } }

/-- Two calls ask for the status; between the look at the row and the claim of the first lies all of the second. -/
def race : List (Moment Shared) × Pool Shared (Except Failure Status) :=
  Pool.play (Shared.respond (Shared.outsideOf racedCloud "0")) ([0] ++ List.replicate 9 1 ++ List.replicate 9 0)
    { state := racedStart, plans := List.replicate 2 (refresh "J").run }

theorem race_is_paid_for : IsAskedFairly "J" race.1 ∧
    (race.1.countP (isLateGrant "J") = 0 → ∀ query ∈ race.1, query.request.isOutward = true →
      hasEnded "J" query.before = false) ∧
    race.1.countP isStop ≤ 1 + race.1.countP (isLateGrant "J") + race.1.countP (isLostMove "J") +
      race.1.countP isRefusedStop :=
  stops_are_paid_for (by decide) (Pool.runs_play Shared.serves_respond _ _)

/-- With a store that never fails and a provider that refuses nothing, a machine is stopped twice, the second time
for a job that has ended. -/
theorem race_stops_twice : ∃ (trace : List (Moment Shared)) (last : Pool Shared (Except Failure Status)),
    Pool.Runs Shared.Serves { state := racedStart, plans := List.replicate 2 (refresh "J").run } trace last ∧
      trace.countP (isLostMove "J") = 0 ∧ trace.countP isRefusedStop = 0 ∧ trace.countP isStop = 2 ∧
      ∃ query ∈ trace, isStop query = true ∧ hasEnded "J" query.before = true :=
  ⟨race.1, race.2, Pool.runs_play Shared.serves_respond _ _, by decide +kernel, by decide +kernel,
    by decide +kernel, by decide +kernel⟩

end Dispatch.Job
