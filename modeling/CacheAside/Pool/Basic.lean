import CacheAside.Dispatch.Task

/-!
# The worker pool

A fixed number of workers, each with a connection of its own, take jobs from one bounded queue.
Whoever submits an operation waits for room in the queue, in order of arrival, and then for the
answer. Closing keeps later operations out; those that wait are still carried out. A worker whose
store breaks down is lost with its job; when the last worker is lost, so are all jobs that wait.

`Pool.act?` is one event in the life of a pool. Which events follow each other is left open: workers
may come and go in any order, and each makes its steps between those of the others.
-/

namespace CacheAside

/-- Why an operation has no outcome. -/
inductive DispatchError
  | closed
  deriving DecidableEq, Repr

def DispatchError.message : DispatchError → String
  | .closed => "Dispatcher is shut down"

/-- What comes back to whoever submitted an operation. -/
abbrev Answer := Except DispatchError Outcome

/-- What comes back when the operation has ended this way. -/
def Result.answer : Result → Answer
  | .answered outcome => .ok outcome
  | .crashed _ => .error .closed

/-- An operation and the number under which its answer is handed back. -/
structure Job where
  ticket : Nat
  op : Operation
  deriving DecidableEq, Repr

/-- What a worker is doing. -/
inductive Worker (γ : Type)
  | idle (connection : γ)
  | busy (ticket : Nat) (task : Task) (connection : γ)
  /-- It has ended and given its connection back. -/
  | stopped
  /-- The store broke down under it. -/
  | lost

namespace Worker

variable {γ : Type}

def isIdle : Worker γ → Bool
  | .idle _ => true
  | _ => false

def isLost : Worker γ → Bool
  | .lost => true
  | _ => false

/-- Whether the worker still takes jobs or has one. -/
def isAlive : Worker γ → Bool
  | .idle _ | .busy .. => true
  | _ => false

end Worker

structure Pool (σ γ : Type) where
  /-- The number of jobs that the queue holds. -/
  depth : Nat
  workers : List (Worker γ)
  shared : Shared
  store : σ
  /-- Whether operations are still taken. -/
  isOpen : Bool := true
  /-- The jobs that wait for room in the queue, the oldest first. -/
  waiting : List Job := []
  /-- The jobs that wait for a worker, the oldest first. -/
  queue : List Job := []
  /-- The answers, the newest first. -/
  answers : List (Nat × Answer) := []
  /-- The number of operations submitted so far. -/
  tickets : Nat := 0

/-- What can happen to a pool. -/
inductive Action
  /-- Somebody submits an operation. -/
  | submit (op : Operation)
  /-- The oldest waiting job enters the queue. -/
  | enqueue
  /-- An idle worker takes the oldest job. -/
  | take (worker : Nat)
  /-- A worker makes one step of its task. -/
  | work (worker : Nat)
  /-- A worker hands over the answer of a task that has ended. -/
  | reply (worker : Nat)
  | close
  /-- An idle worker finds the pool closed and nothing left to do. -/
  | stop (worker : Nat)
  deriving DecidableEq, Repr

namespace Pool

variable {σ γ : Type}

def isAlive (p : Pool σ γ) : Bool := p.workers.any Worker.isAlive

def setWorker (p : Pool σ γ) (w : Nat) (worker : Worker γ) : Pool σ γ :=
  { p with workers := p.workers.set w worker }

def hand (p : Pool σ γ) (ticket : Nat) (a : Answer) : Pool σ γ :=
  { p with answers := (ticket, a) :: p.answers }

/-- Gives up every job that no worker has taken. -/
def abandon (p : Pool σ γ) : Pool σ γ :=
  let closed (job : Job) : Nat × Answer := (job.ticket, .error .closed)
  { p with
    answers := ((p.queue ++ p.waiting).map closed).reverse ++ p.answers
    queue := [], waiting := [] }

def submit (p : Pool σ γ) (op : Operation) : Pool σ γ :=
  let ticket := p.tickets
  let p := { p with tickets := ticket + 1 }
  if p.isOpen && p.isAlive then { p with waiting := p.waiting ++ [⟨ticket, op⟩] }
  else p.hand ticket (.error .closed)

def enqueue? (p : Pool σ γ) : Option (Pool σ γ) :=
  match p.waiting with
  | job :: waiting =>
    if p.queue.length < p.depth then some { p with waiting, queue := p.queue ++ [job] } else none
  | [] => none

def take? (p : Pool σ γ) (w : Nat) : Option (Pool σ γ) :=
  match p.workers[w]?, p.queue with
  | some (.idle connection), job :: queue =>
    some ({ p with queue }.setWorker w (.busy job.ticket (.begun job.op) connection))
  | _, _ => none

/-- A task that has ended makes no further step. -/
def work? (b : Backend σ γ) (p : Pool σ γ) (w : Nat) : Option (Logged (Pool σ γ)) :=
  match p.workers[w]? with
  | some (.busy _ (.ended _) _) => none
  | some (.busy ticket task connection) => some do
    let (task, shared, connection, store) ← task.step b.answering p.shared (connection, p.store)
    return { p with shared, store }.setWorker w (.busy ticket task connection)
  | _ => none

def reply? (p : Pool σ γ) (w : Nat) : Option (Pool σ γ) :=
  match p.workers[w]? with
  | some (.busy ticket (.ended result) connection) =>
    let p := p.hand ticket result.answer
    match result with
    | .answered _ => some (p.setWorker w (.idle connection))
    | .crashed _ =>
      let p := p.setWorker w .lost
      some (if p.isAlive then p else p.abandon)
  | _ => none

def close (p : Pool σ γ) : Logged (Pool σ γ) :=
  if p.isOpen then do
    Logged.report .dispatcherClosed
    return { p with isOpen := false }
  else pure p

def stop? (p : Pool σ γ) (w : Nat) : Option (Logged (Pool σ γ)) :=
  match p.workers[w]?, p.isOpen, p.waiting, p.queue with
  | some (.idle _), false, [], [] => some do
    Logged.report (.workerStopped w)
    return p.setWorker w .stopped
  | _, _, _, _ => none

/-- What an event makes of a pool, if it can happen at all. -/
def act? (b : Backend σ γ) (p : Pool σ γ) : Action → Option (Logged (Pool σ γ))
  | .submit op => some (pure (p.submit op))
  | .enqueue => p.enqueue?.map pure
  | .take w => (p.take? w).map pure
  | .work w => p.work? b w
  | .reply w => (p.reply? w).map pure
  | .close => some p.close
  | .stop w => p.stop? w

/-- The answer to the operation that was submitted under a ticket. -/
def answer? (p : Pool σ γ) (ticket : Nat) : Option Answer := p.answers.lookup ticket

end Pool

end CacheAside
