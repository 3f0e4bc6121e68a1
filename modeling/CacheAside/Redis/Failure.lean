import CacheAside.Redis.Value
import CacheAside.Store.Error

/-!
# Failures of a Redis session

What can go wrong between a command and its result, and how it is worded. Only what happens to the
connection itself is a connection error; whatever the server answers is an error of the command.
-/

namespace CacheAside.Redis

inductive Failure
  /-- The connection could not be opened, or has ended. -/
  | io (text : String)
  | answered (report : ServerReport)
  /-- What arrived is no reply. -/
  | garbled
  /-- The reply is of a kind that the command has no use for. -/
  | incompatible (reply : Value)
  /-- A text was expected and the bytes are not UTF-8. -/
  | notText
  | databaseRefused
  | loginFailed
  | loginGarbled
  deriving Repr

namespace Failure

/-- The end of a connection in the middle of a reply. -/
def ended : Failure := .io "unexpected end of file"

/-- The kinds of errors that have names of their own. -/
def kind? (code : String) : Option String :=
  [("ERR", "ResponseError"), ("EXECABORT", "ExecAbortError"), ("LOADING", "BusyLoadingError"),
    ("NOSCRIPT", "NoScriptError"), ("MOVED", "Moved"), ("ASK", "Ask"), ("TRYAGAIN", "TryAgain"),
    ("CLUSTERDOWN", "ClusterDown"), ("CROSSSLOT", "CrossSlot"), ("MASTERDOWN", "MasterDown"),
    ("READONLY", "ReadOnly"), ("NOTBUSY", "NotBusy")].lookup code

/-- What went wrong, its kind, and the detail if there is one. -/
def worded (what kind : String) : Option String → String
  | some detail => what ++ " - " ++ kind ++ ": " ++ detail
  | none => what ++ "- " ++ kind

def reportText (r : ServerReport) : String :=
  match kind? r.code with
  | some kind => worded "An error was signalled by the server" kind r.detail
  | none => r.code ++ ": " ++ r.detail.getD "Unknown extension error encountered"

def text : Failure → String
  | .io text => text
  | .answered report => reportText report
  | .garbled => worded "parse error" "ResponseError" none
  | .incompatible reply =>
    worded "Response was of incompatible type" "TypeError"
      (some ("\"Response type not string compatible.\" (response was " ++ reply.shown ++ ")"))
  | .notText => worded "Invalid UTF-8" "TypeError" none
  | .databaseRefused => worded "Redis server refused to switch database" "ResponseError" none
  | .loginFailed => worded "Password authentication failed" "AuthenticationFailed" none
  | .loginGarbled =>
    worded "Redis server refused to authenticate, returns Ok() != Value::Okay" "ResponseError" none

def storeError (f : Failure) : StoreError :=
  match f with
  | .io text => .connection text
  | f => .command f.text

end Failure

end CacheAside.Redis
