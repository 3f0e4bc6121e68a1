import CacheAside.Api.Router
import CacheAside.Server.Reporter

/-!
# The server

A server is started and stopped, more than once if need be. Starting binds the listener and brings
up the workers before anything is accepted; each start begins with an empty cache and counters at
zero, while the store outlives them. Stopping lets the workers finish, gives their connections back
and tells the counters. Once shutdown has been requested no start succeeds any more, but a server
that runs keeps running until it is stopped.
-/

namespace CacheAside

inductive Lifecycle
  | stopped | running | stopping
  deriving DecidableEq, Repr

/-- What a started server holds. -/
structure Instance (σ γ : Type) where
  address : Net.SocketAddress
  pool : Pool σ γ
  reporter : Option Reporter

structure Server (σ γ : Type) where
  config : Config
  backend : Backend σ γ
  /-- The store while no workers have it. -/
  store : σ
  /-- Whether shutdown has been requested. -/
  isTriggered : Bool := false
  state : Lifecycle := .stopped
  running : Option (Instance σ γ) := none

/-- What a request to bind the listener comes to: a port, or the reason of a refusal. -/
abbrev Binding := Except String UInt16

/-- Whether the listener can be reached. -/
inductive Link
  | up | down
  deriving DecidableEq, Repr

/-- Why a request gets no answer. -/
inductive ExchangeError
  | notRunning | unreachable
  deriving DecidableEq, Repr

namespace Server

variable {σ γ : Type}

/-- Requests shutdown. -/
def trigger (s : Server σ γ) : Server σ γ := { s with isTriggered := true }

/-- The address of the listener while the server runs. -/
def address? (s : Server σ γ) : Option Net.SocketAddress := s.running.map Instance.address

/-- The counters while the server runs. -/
def counters? (s : Server σ γ) : Option Counters := s.running.map (·.pool.shared.counters)

/-- What the store holds now. -/
def currentStore (s : Server σ γ) : σ :=
  match s.running with
  | some i => i.pool.store
  | none => s.store

/-- Changes the store behind the back of the server. -/
def modifyStore (s : Server σ γ) (f : σ → σ) : Server σ γ :=
  match s.running with
  | some i => { s with running := some { i with pool := { i.pool with store := f i.pool.store } } }
  | none => { s with store := f s.store }

/-! ## Starting and stopping -/

/-- What is told of a task that has panicked, with the text of the panic between quotation marks. No
character of that text is one that would be escaped there. -/
def panicked (task : Nat) (text : String) : String :=
  s!"task {task} panicked with message \"{text}\""

/-- What a pool that does not start is reported as, if the task with this number has tried. -/
def startError (task : Nat) : Pool.StartError → ServerError
  | .refused cause => cause
  | .tooDeep => .spawn (panicked task Pool.StartError.tooDeep.message)

/-- The reporter of a configuration that asks for one, started at the time `now`. -/
def startReporter (c : Config) (now : Nat) : Logged (Option Reporter) :=
  if c.statsInterval = 0 then pure none else some <$> Reporter.start c.statsInterval.toNat now

/-- Brings up the workers behind a listener that has been bound. -/
def launch (s : Server σ γ) (address : Net.SocketAddress) (now task : Nat) :
    Logged (Except ServerError Net.SocketAddress × Server σ γ) := do
  let c := s.config
  let (started, store) ←
    Pool.start s.backend c.workers.toNat c.queueDepth.toNat (.fresh c.capacity.toNat) s.store
  match started with
  | .error e => return (.error (startError task e), { s with store })
  | .ok pool =>
    Logged.report (.listening address)
    let reporter ← startReporter c now
    return (.ok address, { s with state := .running, running := some { address, pool, reporter } })

/-- Starts the server at the time `now`; `binding` is what binding the listener comes to, and `task`
is the number of the task that brings up the workers. -/
def start (s : Server σ γ) (binding : Binding) (now task : Nat) :
    Logged (Except ServerError Net.SocketAddress × Server σ γ) :=
  if s.state ≠ .stopped then pure (.error .alreadyRunning, s)
  else
    match s.config.validate with
    | .error e => pure (.error e, s)
    | .ok () =>
      if s.isTriggered then pure (.error .shutdownRequested, s)
      else
        match binding with
        | .error reason => pure (.error (.bind s.config.listenAddress reason), s)
        | .ok port => s.launch { s.config with port }.listenAddress now task

/-- Stops the server and gives its counters, if it was running. -/
def stop (s : Server σ γ) : Logged (Option Counters × Server σ γ) :=
  match s.running with
  | none => pure (none, s)
  | some i => do
    Logged.report (.stopping i.address)
    let pool ← i.pool.join s.backend
    let counters := pool.shared.counters
    Logged.report (.stopped counters)
    return (some counters, { s with state := .stopped, running := none, store := pool.store })

/-! ## Serving -/

/-- Lets `ms` milliseconds pass, in which the reporter may report. -/
def elapse (s : Server σ γ) (ms : Nat) : Logged (Server σ γ) :=
  match s.running with
  | none => pure s
  | some i => do
    let reporter ← i.reporter.mapM fun r => r.sleep ms i.pool.shared.counters
    return { s with running := some { i with reporter } }

/-- Sends a request to the server at the time of day `now`. -/
def exchange (s : Server σ γ) (link : Link) (now : String) (r : Http.Request) :
    Logged (Except ExchangeError Http.Response × Server σ γ) :=
  match s.running, link with
  | none, _ => pure (.error .notRunning, s)
  | some _, .down => pure (.error .unreachable, s)
  | some i, .up => do
    let (response, pool) ← Api.handle s.backend now r i.pool
    return (.ok response, { s with running := some { i with pool } })

end Server

end CacheAside
