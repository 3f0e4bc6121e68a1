import CacheAside.Dispatch.Basic

/-!
# Dispatch, one step at a time

Workers share the cache and the store, and between two calls of one worker the others may do
theirs. A task is an operation on its way: each step makes one call, on the cache or on the store,
and says what is left to do. No operation takes more than `Task.longest` steps, and a task that
nobody interrupts ends as `dispatch` does.
-/

namespace CacheAside

/-- What is left to do of an operation. -/
inductive Task
  /-- Everything; the operation has not been counted yet. -/
  | begun (op : Operation)
  /-- The cache is to be asked. -/
  | finding (key : Key)
  /-- The store is to be asked. -/
  | fetching (key : Key)
  /-- What the store had goes into the cache. -/
  | filling (key : Key) (value : Value)
  /-- The store is to take a pair. -/
  | storing (key : Key) (value : Value)
  /-- The store has taken a pair that goes into the cache. -/
  | adopting (key : Key) (value : Value)
  /-- The store is to drop a key. -/
  | removing (key : Key)
  /-- The store has dropped a key that leaves the cache. -/
  | forgetting (key : Key)
  /-- Nothing. -/
  | ended (result : Result)
  deriving DecidableEq, Repr

namespace Task

variable {τ : Type}

/-- The first call of an operation; an operation that is refused has none. -/
def plan (op : Operation) : Task :=
  if op.key = "" then .ended Dispatch.refused
  else match op with
    | .read key => .finding key
    | .write key (some value) => .storing key value
    | .write _ none => .ended Dispatch.refused
    | .delete key => .removing key

/-- Sends a request to the store. A success leads on to `next`. -/
def ask (store : Answering τ) (r : Request) (next : Option Value → Task) (s : Shared) (t : τ) :
    Logged (Task × Shared × τ) := do
  let (reply, t) ← store r t
  match reply with
  | .answered value => return (next value, s, t)
  | .failed cause => return (.ended (← Dispatch.backendError r cause), s, t)
  | .crashed text => return (.ended (.crashed text), s, t)

/-- Makes one step. -/
def step (store : Answering τ) (task : Task) (s : Shared) (t : τ) : Logged (Task × Shared × τ) :=
  match task with
  | .begun op => pure (plan op, s.count .request, t)
  | .finding key =>
    match s.find key with
    | (some value, s) => pure (.ended (.answered (.found value)), s, t)
    | (none, s) => pure (.fetching key, s, t)
  | .fetching key =>
    let next : Option Value → Task
      | some value => .filling key value
      | none => .ended (.answered ⟨.notFound, none⟩)
    ask store (.get key) next s t
  | .filling key value => do return (.ended (.answered (.found value)), ← s.keep key value, t)
  | .storing key value => ask store (.put key value) (fun _ => .adopting key value) s t
  | .adopting key value => do return (.ended (.answered ⟨.ok, none⟩), ← s.keep key value, t)
  | .removing key => ask store (.delete key) (fun _ => .forgetting key) s t
  | .forgetting key => pure (.ended (.answered ⟨.ok, none⟩), s.forget key, t)
  | .ended result => pure (.ended result, s, t)

/-- A read that the cache cannot answer takes the most steps. -/
def longest : Nat := 4

/-- Makes `n` steps. -/
def run (store : Answering τ) : Nat → Task → Shared → τ → Logged (Task × Shared × τ)
  | 0, task, s, t => pure (task, s, t)
  | n + 1, task, s, t => do
    let (task, s, t) ← task.step store s t
    run store n task s t

end Task

end CacheAside
