import CacheAside.Cache.Keep
import CacheAside.Dispatch.Operation
import CacheAside.Stats
import CacheAside.Store.Backend

/-!
# Dispatch

How an operation is carried out. A read asks the cache first and the store after it, and what the
store has goes into the cache. A write and a delete go to the store first, and only if the store
has taken them to the cache. So a request that the store fails leaves the cache as it is.

Every operation is counted, also one that is refused; a read of a key counts as a hit or a miss.
-/

namespace CacheAside

/-- What all workers share. -/
structure Shared where
  cache : Cache
  counters : Counters := {}

/-- An empty cache and counters at zero. -/
def Shared.fresh (capacity : Nat) : Shared := { cache := .empty capacity }

namespace Shared

def count (s : Shared) (k : Counter) : Shared := { s with counters := s.counters.record k }

/-- Looks a key up in the cache, and counts what came of it. -/
def find (s : Shared) (key : Key) : Option Value × Shared :=
  match s.cache.get key with
  | (some value, cache) => (some value, { s with cache }.count .hit)
  | (none, cache) => (none, { s with cache }.count .miss)

def keep (s : Shared) (key : Key) (value : Value) : Logged Shared := do
  let cache ← s.cache.keep key value
  return { s with cache }

def forget (s : Shared) (key : Key) : Shared := { s with cache := (s.cache.erase key).2 }

end Shared

/-- A store at hand: how it answers a request and what it is afterwards. -/
abbrev Answering (τ : Type) := Request → τ → Logged (Reply × τ)

/-- A connection of a backend, together with the store behind it. -/
def Backend.answering {σ γ : Type} (b : Backend σ γ) : Answering (γ × σ) :=
  fun r (c, s) => b.call r c s

namespace Dispatch

variable {τ : Type}

/-- Reports that the store failed a request; that is the outcome. -/
def backendError (r : Request) (cause : StoreError) : Logged Result := do
  Logged.report (.requestFailed r.verb r.key cause)
  return .answered ⟨.backendError, none⟩

def read (store : Answering τ) (key : Key) (s : Shared) (t : τ) : Logged (Result × Shared × τ) :=
  match s.find key with
  | (some value, s) => pure (.answered (.found value), s, t)
  | (none, s) => do
    let (reply, t) ← store (.get key) t
    match reply with
    | .answered (some value) =>
      let s ← s.keep key value
      return (.answered (.found value), s, t)
    | .answered none => return (.answered ⟨.notFound, none⟩, s, t)
    | .failed cause => return (← backendError (.get key) cause, s, t)
    | .crashed text => return (.crashed text, s, t)

/-- Sends a request that changes the store; `adopt` changes the cache if it was taken. -/
def change (store : Answering τ) (r : Request) (adopt : Shared → Logged Shared) (s : Shared)
    (t : τ) : Logged (Result × Shared × τ) := do
  let (reply, t) ← store r t
  match reply with
  | .answered _ =>
    let s ← adopt s
    return (.answered ⟨.ok, none⟩, s, t)
  | .failed cause => return (← backendError r cause, s, t)
  | .crashed text => return (.crashed text, s, t)

def write (store : Answering τ) (key : Key) (value : Value) (s : Shared) (t : τ) :
    Logged (Result × Shared × τ) :=
  change store (.put key value) (·.keep key value) s t

def delete (store : Answering τ) (key : Key) (s : Shared) (t : τ) :
    Logged (Result × Shared × τ) :=
  change store (.delete key) (fun s => pure (s.forget key)) s t

/-- The outcome of an operation that is refused: one without a key, or a write without a value. -/
def refused : Result := .answered ⟨.validationError, none⟩

end Dispatch

open Dispatch in
/-- Carries out one operation. -/
def dispatch {τ : Type} (store : Answering τ) (op : Operation) (s : Shared) (t : τ) :
    Logged (Result × Shared × τ) :=
  let s := s.count .request
  if op.key = "" then pure (refused, s, t)
  else match op with
    | .read key => read store key s t
    | .write key (some value) => write store key value s t
    | .write _ none => pure (refused, s, t)
    | .delete key => delete store key s t

end CacheAside
