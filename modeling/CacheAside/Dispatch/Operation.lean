import CacheAside.Basic

/-!
# Operations and outcomes

What a client asks for, and what becomes of it.
-/

namespace CacheAside

/-- An operation on the pairs. A write that names no value is kept as such: it is refused when it is
dispatched. -/
inductive Operation
  | read (key : Key)
  | write (key : Key) (value : Option Value)
  | delete (key : Key)
  deriving DecidableEq, Repr

def Operation.key : Operation → Key
  | .read key => key
  | .write key _ => key
  | .delete key => key

/-- How a dispatched operation ended. -/
inductive Status
  | ok | notFound | validationError | backendError
  deriving DecidableEq, Repr

/-- The status code of an answer with this status. -/
def Status.code : Status → Nat
  | .ok => 200
  | .validationError => 400
  | .notFound => 404
  | .backendError => 500

/-- The status, and for a read that found one, the value. -/
structure Outcome where
  status : Status
  value : Option Value := none
  deriving DecidableEq, Repr

def Outcome.found (value : Value) : Outcome := ⟨.ok, some value⟩

/-- What an operation leaves behind for whoever asked for it. -/
inductive Result
  | answered (outcome : Outcome)
  /-- The store broke down in the middle of it, with this message. -/
  | crashed (text : String)
  deriving DecidableEq, Repr

end CacheAside
