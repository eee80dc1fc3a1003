import Dispatch.Store.Call
/-!
Answers of the store as records.
-/
namespace Dispatch.Store.Call

def answerToJson : (call : Call) → call.Answer → Json
  | openTransaction, number => .nat number
  | commit _, _ => .null
  | rollback _, _ => .null
  | reserve .., counter => .nat counter
  | isTaken .., taken => .bool taken
  | assign .., _ => .null
  | insertUser _, _ => .null
  | findUser _, user => Json.ofOption User.toJson user
  | insertLocalAccount _, _ => .null
  | findLocalAccount .., account => Json.ofOption LocalAccount.toJson account
  | insertAuthAccount _, _ => .null
  | authAccountsOf _, accounts => Json.ofList AuthAccount.toJson accounts
  | setAuthAccounts .., count => .nat count
  | insertSession _, _ => .null
  | findSession _, session => Json.ofOption Session.toJson session
  | findSessionWithId _, session => Json.ofOption Session.toJson session
  | updateSession _, _ => .null
  | touchSession .., touched => .bool touched
  | activeSessions, sessions => Json.ofList Session.toJson sessions
  | insertEntry _, number => .nat number
  | updateEntry _, _ => .null
  | entriesOf _, entries => Json.ofList History.Entry.toJson entries
  | insertJob _, _ => .null
  | findJob _, job => Json.ofOption Job.toJson job
  | updateJob _, _ => .null
  | transitionJob .., status => status.toJson
  | jobsOf _, jobs => Json.ofList Job.toJson jobs
  | unfinishedJobs, jobs => Json.ofList Job.toJson jobs
  | insertAuthSystem _, _ => .null
  | findAuthSystem _, system => Json.ofOption AuthSystem.toJson system
  | updateAuthSystem _, _ => .null
  | authSystems, systems => Json.ofList AuthSystem.toJson systems

end Dispatch.Store.Call
