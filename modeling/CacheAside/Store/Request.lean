import CacheAside.Basic
import CacheAside.Store.Error

/-!
# Requests to a store

What a connection can be asked, and how it can answer. One type of answer serves all requests: a
read that finds a value answers with it, and every other success is an answer without a value.
-/

namespace CacheAside

/-- The kinds of requests. -/
inductive Verb
  | get | put | delete
  deriving DecidableEq, Repr

def Verb.name : Verb → String
  | .get => "GET"
  | .put => "PUT"
  | .delete => "DELETE"

/-- What a connection is asked to do. -/
inductive Request
  | get (key : Key)
  | put (key : Key) (value : Value)
  | delete (key : Key)
  deriving DecidableEq, Repr

namespace Request

def verb : Request → Verb
  | .get _ => .get
  | .put _ _ => .put
  | .delete _ => .delete

def key : Request → Key
  | .get key => key
  | .put key _ => key
  | .delete key => key

end Request

/-- How a request ends. -/
inductive Reply
  | answered (value : Option Value)
  | failed (cause : StoreError)
  /-- The connection's code broke down with this message, and whoever called it with it. -/
  | crashed (text : String)
  deriving DecidableEq, Repr

/-- Whether the connection is broken after this reply. -/
def Reply.isBroken : Reply → Bool
  | .failed cause => cause.isConnection
  | _ => false

end CacheAside
