import CacheAside.Config
import CacheAside.Stats
import CacheAside.Store.Request

/-!
# Events

Everything that a server reports while it runs, by what happened. The level, the wording and the
part of the program that speaks are functions of the event, so a statement about a log is a
statement about events.
-/

namespace CacheAside

/-- How much an event matters. -/
inductive Level
  | error | warn | info | debug
  deriving DecidableEq, Repr

def Level.name : Level → String
  | .error => "ERROR"
  | .warn => "WARN"
  | .info => "INFO"
  | .debug => "DEBUG"

/-- The signals that end the program. -/
inductive Signal
  | interrupt | terminate
  deriving DecidableEq, Repr

def Signal.description : Signal → String
  | .interrupt => "Ctrl+C"
  | .terminate => "SIGTERM"

inductive Event
  -- The cache and the dispatcher.
  | evicted (key : Key)
  | requestFailed (verb : Verb) (key : Key) (cause : StoreError)
  -- Connections to the store.
  | connectionUnavailable
  | connectionLost (cause : StoreError)
  | connectionRestored
  | reconnectFailed (cause : StoreError)
  | sessionOpened
  | connected (store : String)
  -- Workers.
  | workerFailed (worker : Nat) (cause : ServerError)
  | workersStarted (size : Nat) (store : String) (depth : Nat)
  | workerStarted (worker : Nat)
  | workerStopped (worker : Nat)
  | workerPanicked (worker : Nat)
  | workersStopped
  | dispatcherClosed
  -- The server.
  | listening (address : Net.SocketAddress)
  | stopping (address : Net.SocketAddress)
  | stopped (counters : Counters)
  | reporterStarted (seconds : Nat)
  | reported (counters : Counters)
  -- The program.
  | programStarted
  | configured (config : Config)
  | signalled (signal : Signal)
  | programFinished
  deriving Repr

namespace Event

def level : Event → Level
  | .requestFailed .. => .error
  | .connectionUnavailable | .connectionLost _ | .reconnectFailed _ => .warn
  | .workerFailed .. | .workerPanicked _ => .warn
  | .evicted _ | .sessionOpened | .dispatcherClosed => .debug
  | .workerStarted _ | .workerStopped _ => .debug
  | _ => .info

/-- The counters as fields of a report. -/
def fields (c : Counters) : String :=
  " ".intercalate (c.members.map fun (name, value) => name ++ "=" ++ value.render)

/-- The settings in one line. -/
def settings (c : Config) : String :=
  ", ".intercalate
    ["port=" ++ toString c.port.toNat, "cache_size=" ++ toString c.capacity.toNat,
      "workers=" ++ toString c.workers.toNat, "queue_depth=" ++ toString c.queueDepth.toNat,
      "store=" ++ c.storeUrl, "stats_interval=" ++ toString c.statsInterval.toNat ++ "s"]

def message : Event → String
  | .evicted key => s!"Evicted LRU key '{key}'"
  | .requestFailed verb key cause =>
    verb.name ++ " failed for key '" ++ key ++ "': " ++ cause.message
  | .connectionUnavailable => "Store connection unavailable, attempting to reconnect"
  | .connectionLost cause =>
    "Store connection lost (" ++ cause.message ++ "), attempting to reconnect"
  | .connectionRestored => "Store connection re-established"
  | .reconnectFailed cause => "Store reconnect failed: " ++ cause.message
  | .sessionOpened => "Opened Redis session"
  | .connected store => "Connected to Redis store at " ++ store
  | .workerFailed worker cause => s!"Worker {worker} failed to start: " ++ cause.message
  | .workersStarted size store depth =>
    s!"Started {size} workers against {store} (queue depth {depth})"
  | .workerStarted worker => s!"Worker {worker} started"
  | .workerStopped worker => s!"Worker {worker} stopped, store connection released"
  | .workerPanicked worker => s!"Worker {worker} panicked"
  | .workersStopped => "All workers stopped"
  | .dispatcherClosed => "Dispatcher closed to new operations"
  | .listening address => "Server listening on http://" ++ address.render
  | .stopping address => "Stopping server on " ++ address.render
  | .stopped counters => "Server stopped " ++ fields counters
  | .reporterStarted seconds => s!"Stats reporter running every {seconds} seconds"
  | .reported counters => "Server stats " ++ fields counters
  | .programStarted => "Starting KV Cache Server"
  | .configured config => "Configuration loaded: " ++ settings config
  | .signalled signal => "Received " ++ signal.description ++ ", initiating shutdown..."
  | .programFinished => "Server shutdown complete"

/-- The part of the program that reports an event. -/
def source : Event → String
  | .evicted _ => "kv_cache_server::cache::shared"
  | .requestFailed .. => "kv_cache_server::dispatch::protocol"
  | .connectionUnavailable | .connectionLost _ | .connectionRestored | .reconnectFailed _ =>
    "kv_cache_server::backend::reconnect"
  | .sessionOpened | .connected _ => "kv_cache_server::backend::redis_store"
  | .workerFailed .. | .workersStarted .. | .workerStarted _ | .workerStopped _ =>
    "kv_cache_server::dispatch::pool"
  | .workerPanicked _ | .workersStopped | .dispatcherClosed => "kv_cache_server::dispatch::pool"
  | .listening _ | .stopping _ | .stopped _ => "kv_cache_server::server"
  | .reporterStarted _ | .reported _ => "kv_cache_server::tasks::stats_reporter"
  | .programStarted | .configured _ | .signalled _ | .programFinished => "kv_cache_server"

/-- The level and the message. -/
def line (e : Event) : String := e.level.name ++ " " ++ e.message

/-- The level, the part of the program and the message. -/
def fullLine (e : Event) : String := e.level.name ++ " " ++ e.source ++ ": " ++ e.message

/-- Whether the stats reporter reports it. -/
def isReporters : Event → Bool
  | .reporterStarted _ | .reported _ => true
  | _ => false

end Event

end CacheAside
