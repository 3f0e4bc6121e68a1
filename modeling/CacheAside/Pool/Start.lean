import CacheAside.Pool.Basic

/-!
# Starting a pool

Each worker needs a connection before it can start. When one is refused, the workers that have
started are stopped again, no further connection is tried, and there is no pool.
-/

namespace CacheAside.Pool

variable {σ γ : Type}

/-- The greatest number of jobs that a queue can be made for. -/
def maxDepth : Nat := 0x1FFFFFFFFFFFFFFF

/-- Why there is no pool. -/
inductive StartError
  | refused (cause : ServerError)
  /-- The queue would be deeper than any queue can be. -/
  | tooDeep
  deriving DecidableEq, Repr

def StartError.message : StartError → String
  | .refused cause => cause.message
  | .tooDeep => s!"a semaphore may not have more than MAX_PERMITS permits ({maxDepth})"

/-- Opens `n` connections more, after those of the workers before `w`, until one is refused. -/
def connectAll (b : Backend σ γ) : (n w : Nat) → σ → Logged (Except StoreError (List γ) × σ)
  | 0, _, s => pure (.ok [], s)
  | n + 1, w, s => do
    let (opened, s) ← b.connect s
    match opened with
    | .error cause =>
      Logged.report (.workerFailed w (.store cause))
      (List.range w).forM fun i => Logged.report (.workerStopped i)
      return (.error cause, s)
    | .ok connection =>
      Logged.report (.workerStarted w)
      let (rest, s) ← connectAll b n (w + 1) s
      return (rest.map (connection :: ·), s)

/-- A pool of `size` workers with a queue of `depth` jobs. -/
def start (b : Backend σ γ) (size depth : Nat) (shared : Shared) (s : σ) :
    Logged (Except StartError (Pool σ γ) × σ) :=
  if size = 0 ∨ depth = 0 then
    pure (.error (.refused (.invalidConfig
      "worker pool size and queue depth must be positive")), s)
  else if maxDepth < depth then pure (.error .tooDeep, s)
  else do
    let (opened, s) ← connectAll b size 0 s
    match opened with
    | .error cause => return (.error (.refused (.store cause)), s)
    | .ok connections =>
      Logged.report (.workersStarted size b.describe depth)
      return (.ok { depth, workers := connections.map .idle, shared, store := s }, s)

end CacheAside.Pool
