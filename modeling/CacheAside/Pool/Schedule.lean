import CacheAside.Pool.Start

/-!
# Running a pool

One order of events among all that are possible: the jobs are carried out one after the other, in
the order in which they were submitted, and the idle workers take turns. Each part of it is made
of `Pool.act?`, so what holds of every order holds of this one.
-/

namespace CacheAside.Pool

variable {σ γ : Type}

/-- Lets an event happen, if it can. -/
def perform (b : Backend σ γ) (p : Pool σ γ) (a : Action) : Logged (Pool σ γ) :=
  (p.act? b a).getD (pure p)

def performAll (b : Backend σ γ) (p : Pool σ γ) (as : List Action) : Logged (Pool σ γ) :=
  as.foldlM (perform b) p

/-- The first idle worker from worker `w` on. -/
def nextIdle? (p : Pool σ γ) (w : Nat) : Option Nat :=
  let n := p.workers.length
  ((List.range n).map fun i => (w + i) % n).find? fun i => p.workers[i]?.any Worker.isIdle

/-- Worker `w` carries out one job from the queue to the answer. -/
def turn (w : Nat) : List Action :=
  [.enqueue, .take w] ++ List.replicate Task.longest (.work w) ++ [.reply w]

/-- Carries out at most `n` jobs; worker `w` has the first turn. -/
def settleFrom (b : Backend σ γ) : (n w : Nat) → Pool σ γ → Logged (Pool σ γ)
  | 0, _, p => pure p
  | n + 1, w, p =>
    match p.nextIdle? w with
    | none => pure p
    | some w => do settleFrom b n (w + 1) (← p.performAll b (turn w))

/-- Carries out all jobs that wait. -/
def settle (b : Backend σ γ) (p : Pool σ γ) : Logged (Pool σ γ) :=
  let jobs := p.waiting.length + p.queue.length
  settleFrom b jobs (p.tickets - jobs) p

/-- Hands out the answers to the `n` operations submitted last, and keeps none. -/
def collect (p : Pool σ γ) (n : Nat) : List Answer × Pool σ γ :=
  let answer (i : Nat) : Answer := (p.answer? (p.tickets - n + i)).getD (.error .closed)
  ((List.range n).map answer, { p with answers := [] })

/-- Submits operations together and carries them out. -/
def serveAll (b : Backend σ γ) (ops : List Operation) (p : Pool σ γ) :
    Logged (List Answer × Pool σ γ) := do
  let p ← (← p.performAll b (ops.map .submit)).settle b
  return p.collect ops.length

/-- Submits one operation and carries it out. -/
def serve (b : Backend σ γ) (op : Operation) (p : Pool σ γ) : Logged (Answer × Pool σ γ) := do
  let (answers, p) ← p.serveAll b [op]
  return (answers.headD (.error .closed), p)

/-- Closes the pool; what has been submitted is carried out, and then the workers stop. -/
def shutDown (b : Backend σ γ) (p : Pool σ γ) : Logged (Pool σ γ) := do
  let p ← (← p.perform b .close).settle b
  p.performAll b ((List.range p.workers.length).map .stop)

/-- Submits operations together and closes the pool while they wait. -/
def serveLast (b : Backend σ γ) (ops : List Operation) (p : Pool σ γ) :
    Logged (List Answer × Pool σ γ) := do
  let p ← (← p.performAll b (ops.map .submit)).shutDown b
  return p.collect ops.length

/-- Closes the pool and waits for its workers. -/
def join (b : Backend σ γ) (p : Pool σ γ) : Logged (Pool σ γ) := do
  let p ← p.shutDown b
  (List.range p.workers.length).forM fun w =>
    if p.workers[w]?.any Worker.isLost then Logged.report (.workerPanicked w) else pure ()
  Logged.report .workersStopped
  return p

end CacheAside.Pool
