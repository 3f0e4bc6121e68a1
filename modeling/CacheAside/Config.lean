import CacheAside.Server.Error
import CacheAside.Text.Utf8
import CacheAside.Text.Numeral

/-!
# Configuration

The settings of a server and where they come from. Each field has a variable of its own in the
environment, and a variable that is unset, or whose text is not a value of the field, leaves the
field at its default. `Config.validate` names the first setting that a server cannot run with.
-/

namespace CacheAside

structure Config where
  /-- The port of the listener; zero lets the system choose one. -/
  port : UInt16 := 8080
  /-- The number of entries that the cache can hold. -/
  capacity : UInt64 := 1000
  /-- The number of workers, each with a connection to the store. -/
  workers : UInt64 := 8
  /-- The number of jobs that can wait for a worker. -/
  queueDepth : UInt64 := 1024
  /-- Where the store is. -/
  storeUrl : String := "memory://"
  /-- The seconds between two reports of the counters; zero means none. -/
  statsInterval : UInt64 := 60
  deriving DecidableEq, Repr

/-- The variables that are read. -/
inductive Variable
  | port | capacity | workers | queueDepth | storeUrl | statsInterval
  deriving DecidableEq, Repr

def Variable.all : List Variable :=
  [.port, .capacity, .workers, .queueDepth, .storeUrl, .statsInterval]

def Variable.name : Variable → String
  | .port => "SERVER_PORT"
  | .capacity => "CACHE_SIZE"
  | .workers => "THREAD_POOL_SIZE"
  | .queueDepth => "QUEUE_DEPTH"
  | .storeUrl => "STORE_URL"
  | .statsInterval => "STATS_INTERVAL"

/-- The variable of the given name, if it is one of those that are read. -/
def Variable.ofName? (name : String) : Option Variable :=
  Variable.all.find? (·.name = name)

/-- What a variable is set to. -/
inductive Setting
  | text (s : String)
  /-- Bytes that are not UTF-8. -/
  | garbled
  deriving DecidableEq, Repr

def Setting.ofBytes (bytes : List UInt8) : Setting :=
  match Utf8.decode? bytes with
  | some s => .text s
  | none => .garbled

def Setting.text? : Setting → Option String
  | .text s => some s
  | .garbled => none

/-- The variables that are set. -/
abbrev Environment := Variable → Option Setting

namespace Environment

/-- The text of a variable. -/
def text? (env : Environment) (v : Variable) : Option String := (env v).bind Setting.text?

/-- The number below `bound` that a variable spells, or else `default`. -/
def number (env : Environment) (v : Variable) (bound default : Nat) : Nat :=
  ((env.text? v).bind (Numeral.unsigned? bound)).getD default

def port (env : Environment) (v : Variable) (default : UInt16) : UInt16 :=
  UInt16.ofNat (env.number v UInt16.size default.toNat)

def count (env : Environment) (v : Variable) (default : UInt64) : UInt64 :=
  UInt64.ofNat (env.number v UInt64.size default.toNat)

end Environment

namespace Config

def ofEnvironment (env : Environment) : Config :=
  let default : Config := {}
  { port := env.port .port default.port
    capacity := env.count .capacity default.capacity
    workers := env.count .workers default.workers
    queueDepth := env.count .queueDepth default.queueDepth
    storeUrl := (env.text? .storeUrl).getD default.storeUrl
    statsInterval := env.count .statsInterval default.statsInterval }

/-- Refuses the settings that leave no room for an entry, a worker or a job. -/
def validate (c : Config) : Except ServerError Unit :=
  if c.capacity = 0 then .error (.invalidConfig "cache capacity must be positive")
  else if c.workers = 0 then .error (.invalidConfig "worker pool size must be positive")
  else if c.queueDepth = 0 then .error (.invalidConfig "queue depth must be positive")
  else .ok ()

/-- The listener hears all interfaces. -/
def listenAddress (c : Config) : Net.SocketAddress := .v4 .unspecified c.port

end Config

end CacheAside
