import CacheAside.Redis.Session
import CacheAside.Server.Lifecycle
import CacheAside.Store.Location

/-!
# The program

A run from start to end: read the settings, find the store, start the server, serve until a signal
arrives, stop. A run that does not come to serving ends with an error text, which says what was
attempted and, one below the other, why it failed.

`begin`, `launch` and `finish` are the parts between which a program waits for the outside world;
`run` puts them together for a given list of requests.
-/

namespace CacheAside.Program

/-- What was attempted, and why it failed, the nearest reason first. -/
structure Failure where
  context : String
  causes : List String
  deriving DecidableEq, Repr

namespace Failure

/-- A reason in lines of its own. Several reasons are numbered, and further lines of one reason
stand below its first. -/
def entry (isNumbered : Bool) (n : Nat) (cause : String) : String :=
  let (head, margin) :=
    if isNumbered then
      let number := toString n
      (String.ofList (List.replicate (5 - number.length) ' ') ++ number ++ ": ", "       ")
    else ("    ", "    ")
  let lines := (cause.toList.splitOnP (· == '\n')).map String.ofList
  head ++ ("\n" ++ margin).intercalate lines

/-- The text with which the program ends. -/
def text (f : Failure) : String :=
  let entries := f.causes.mapIdx (entry (1 < f.causes.length))
  "Error: " ++ f.context ++ "\n\nCaused by:\n" ++ "\n".intercalate entries ++ "\n"

/-- The store cannot be used. -/
def ofStore (url : String) (e : StoreError) : Failure :=
  ⟨s!"unusable store url '{url}'", [e.message]⟩

/-- The server cannot be started. -/
def ofServer (e : ServerError) : Failure :=
  ⟨"failed to start server", e.message :: e.cause?.toList⟩

end Failure

/-- Reads the settings and finds the store. -/
def begin (env : Environment) : Logged (Except Failure (Config × Location)) := do
  Logged.report .programStarted
  let config := Config.ofEnvironment env
  Logged.report (.configured config)
  match Location.ofUrl config.storeUrl with
  | .ok location => return .ok (config, location)
  | .error e => return .error (.ofStore config.storeUrl e)

variable {σ γ κ : Type}

/-- Starts the server on what binding its listener came to. -/
def launch (s : Server σ γ) (binding : Binding) (now task : Nat) :
    Logged (Except Failure Unit × Server σ γ) := do
  let (started, s) ← s.start binding now task
  match started with
  | .ok _ => return (.ok (), s)
  | .error e => return (.error (.ofServer e), s)

/-- Stops the server after a signal. -/
def finish (s : Server σ γ) (signal : Signal) : Logged (Server σ γ) := do
  Logged.report (.signalled signal)
  let (_, s) ← s.trigger.stop
  Logged.report .programFinished
  return s

/-! ## Whole runs -/

/-- What a run finds outside. -/
structure Surroundings (σ κ : Type) where
  /-- How servers are reached, and what there is to reach. -/
  transport : Redis.Transport σ κ
  network : σ
  /-- What binding a listener to a port comes to. -/
  binding : UInt16 → Binding
  /-- Whether the listener can be reached. -/
  link : Link
  /-- The reading of the clock in milliseconds, and the time of day as answers show it. -/
  uptime : Nat
  now : String
  /-- The number of the task that brings up the workers. -/
  task : Nat

/-- What a run comes to: the answers to its requests, or a failure. -/
abbrev Ending := Except Failure (List (Except ExchangeError Http.Response))

/-- The exit code of the program. -/
def exitCode : Ending → Nat
  | .ok _ => 0
  | .error _ => 1

/-- The text on the error stream. -/
def errorText : Ending → String
  | .ok _ => ""
  | .error f => f.text

/-- Sends requests one after the other. -/
def exchangeAll (link : Link) (now : String) : List Http.Request → Server σ γ →
    Logged (List (Except ExchangeError Http.Response) × Server σ γ)
  | [], s => pure ([], s)
  | r :: rs, s => do
    let (answer, s) ← s.exchange link now r
    let (answers, s) ← exchangeAll link now rs s
    return (answer :: answers, s)

/-- Serves requests from a store, from the start of the server to the signal that ends it. -/
def serve (w : Surroundings σ κ) {τ : Type} (s : Server τ γ) (requests : List Http.Request)
    (signal : Signal) : Logged Ending := do
  match ← launch s (w.binding s.config.port) w.uptime w.task with
  | (.error f, _) => return .error f
  | (.ok (), s) =>
    let (answers, s) ← exchangeAll w.link w.now requests s
    let _ ← finish s signal
    return .ok answers

/-- A run of the program. -/
def run (w : Surroundings σ κ) (env : Environment) (requests : List Http.Request)
    (signal : Signal) : Logged Ending := do
  match ← begin env with
  | .error f => return .error f
  | .ok (config, .memory) =>
    serve w { config, backend := Memory.backend, store := {} } requests signal
  | .ok (config, .redis address) =>
    let backend := Redis.backend w.transport address Redis.defaultTable
    serve w { config, backend, store := w.network } requests signal

end CacheAside.Program
