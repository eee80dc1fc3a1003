import Dispatch.Proofs.Plan.Ends
import Dispatch.Proofs.Server.Shared
import Dispatch.Session.Login
/-!
Logging in, with a store that does what its tables say and authentication systems that answer by some function of
the login and the password. What the credentials prove is then a matter of the tables alone.
-/
namespace Dispatch

open Plan

/-- What an authentication system says to a login and a password. -/
abbrev Verifier : Type := AuthSystem → String → String → Except Failure Bool

/-- A server whose store does not fail, with such systems. -/
def Shared.AnswersWith (verifier : Verifier) : Setting Shared
  | shared, .verify system login password, verdict, next =>
    verdict = verifier system login password ∧ next = shared
  | shared, request, reply, next => shared.Answers request reply next

namespace Store.Tables

/-- Whether an account is active and bound to an active system that vouches for the password. -/
def vouches (tables : Tables) (verifier : Verifier) (password : String) (account : AuthAccount) : Bool :=
  account.standing = .active && (tables.authSystem? account.system).any fun system =>
    system.isActive && (verifier system account.login password).toOption.getD false

/-- Whether a password proves a user: as the password of the user, or by an account. -/
def proves (tables : Tables) (verifier : Verifier) (password : String) (user : User) : Bool :=
  user.passwordMatches password || (tables.authAccountsOf user.id).any (tables.vouches verifier password)

/-- The user whom credentials prove. -/
def authenticated (tables : Tables) (verifier : Verifier) (credentials : Credentials) : Except Failure User :=
  match (tables.user? credentials.user).filter (tables.proves verifier credentials.password) with
  | some user => .ok user
  | none => .error (.unknownUser credentials.user)

end Store.Tables

namespace Session

variable {verifier : Verifier} {shared last : Shared}

/-- A call that tells something and changes nothing. -/
theorem reads_store (call : Store.Call) {value : call.Answer}
    (told : shared.tables.answer call = (.ok value, shared.tables)) :
    Reads (Shared.AnswersWith verifier) (Service.store call) shared (.ok value) :=
  Service.reads_store call fun _ _ => Shared.answers_iff_of_told told

theorem reads_verify (system : AuthSystem) (login password : String) :
    Reads (Shared.AnswersWith verifier) (Service.ask (.verify system login password)) shared
      (.ok (verifier system login password)) := by
  intro result last
  refine (Service.finishes_ask _ result).trans ⟨?_, ?_⟩
  · rintro ⟨_, ⟨rfl, rfl⟩, rfl⟩
    exact ⟨rfl, rfl⟩
  · rintro ⟨rfl, rfl⟩
    exact ⟨_, ⟨rfl, rfl⟩, rfl⟩

theorem reads_isVouchedBy (account : AuthAccount) (password : String) :
    Reads (Shared.AnswersWith verifier) (isVouchedBy account password) shared
      (.ok (shared.tables.vouches verifier password account)) := by
  unfold isVouchedBy Store.Tables.vouches
  by_cases active : account.standing = .active
  · simp only [active, ne_eq, not_true_eq_false, if_false, decide_true, Bool.true_and]
    refine (reads_store _ rfl).bind ?_
    cases found : shared.tables.authSystem? account.system with
    | none => exact reads_pure false
    | some system =>
      by_cases working : system.isActive = true
      · simp only [working, Bool.not_true, Bool.false_eq_true, if_false, Option.any_some, Bool.true_and]
        exact (reads_verify system account.login password).bind (reads_pure _)
      · simp only [working, Bool.not_false, if_true, Option.any_some, Bool.false_and]
        exact reads_pure false
  · simp only [active, ne_eq, not_false_eq_true, if_true, decide_false, Bool.false_and]
    exact reads_pure false

theorem reads_isVouchedByAny (accounts : List AuthAccount) (password : String) :
    Reads (Shared.AnswersWith verifier) (isVouchedByAny accounts password) shared
      (.ok (accounts.any (shared.tables.vouches verifier password))) := by
  induction accounts with
  | nil => exact reads_pure false
  | cons account rest ih =>
    refine (reads_isVouchedBy account password).bind ?_
    by_cases vouched : shared.tables.vouches verifier password account = true
    · simp only [vouched, if_true, List.any_cons, Bool.true_or]
      exact reads_pure true
    · simp only [vouched, Bool.false_eq_true, if_false, List.any_cons, Bool.false_or]
      exact ih

theorem reads_authenticate (credentials : Credentials) :
    Reads (Shared.AnswersWith verifier) (authenticate credentials) shared
      (shared.tables.authenticated verifier credentials) := by
  unfold authenticate Store.Tables.authenticated
  refine (reads_store _ rfl).bind ?_
  cases found : shared.tables.user? credentials.user with
  | none => exact reads_throw _
  | some user =>
    by_cases matched : user.passwordMatches credentials.password = true
    · simp only [Option.filter_some, Store.Tables.proves, matched, Bool.true_or, if_true]
      exact reads_pure user
    · simp only [Option.filter_some, Store.Tables.proves, matched, Bool.false_or]
      refine (reads_store _ rfl).bind ((reads_isVouchedByAny _ credentials.password).bind ?_)
      by_cases vouched : (shared.tables.authAccountsOf user.id).any
          (shared.tables.vouches verifier credentials.password) = true
      · simp only [vouched, if_true]
        exact reads_pure user
      · simp only [vouched, Bool.false_eq_true, if_false]
        exact reads_throw _

end Session

end Dispatch
