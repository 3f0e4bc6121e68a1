import CacheAside.Log.Filter
import CacheAside.Program
import CacheAside.Redis.Transcript
import Std.Async.DNS
import Std.Async.Signal
import Std.Async.Timer
import Std.Http.Server
import Std.Time.Format

/-!
# The program from outside

Carries out what the library decides. Everything that happens to a running server goes through one
queue (a request, the passing of time, a signal), and for each occurrence the server takes one
step. The events of a step are written as lines on the standard output.
-/

namespace CacheAside.Outside

open Std.Async

/-! ## Time and log -/

/-- The time of day in Greenwich. -/
def timeOfDay (format : String) : IO String := do
  let wall := Std.Time.WallTime.ofTimestamp (← Std.Time.Timestamp.now) Std.Time.TimeZone.Offset.zero
  return (Std.Time.PlainDateTime.ofWallTime wall).format format

/-- The time of day as answers show it. -/
def now : IO String := timeOfDay "uuuu-MM-dd'T'HH:mm:ss.SSSSSSSSS'+00:00'"

/-- Writes the events that pass the filter. -/
def write (filter : Filter) (events : List Event) : IO Unit := do
  for e in events.filter filter.passes do
    let time ← timeOfDay "uuuu-MM-dd'T'HH:mm:ss.SSSSSS'Z'"
    let margin := String.ofList (List.replicate (5 - e.level.name.length) ' ')
    IO.println (time ++ " " ++ margin ++ e.fullLine)
  (← IO.getStdout).flush

/-! ## The network -/

/-- What the system says about a refusal. -/
def reason (e : IO.Error) : String :=
  match e with
  | .otherError code text | .resourceBusy code text | .resourceVanished code text
  | .unsupportedOperation code text | .protocolError code text | .timeExpired code text
  | .illegalOperation code text | .unsatisfiedConstraints code text
  | .noSuchThing _ code text | .permissionDenied _ code text | .invalidArgument _ code text
  | .alreadyExists _ code text | .resourceExhausted _ code text =>
    text.capitalize ++ " (os error " ++ toString (0 - code).toNat ++ ")"
  | e => toString e

/-- The connections that have been opened. -/
abbrev Network := IO.Ref (Array TCP.Socket.Client)

/-- Opens a connection to the first address of a host that accepts one. -/
def dial (net : Network) (host : String) (port : Nat) : IO Nat := do
  let addresses ← (DNS.getAddrInfo host (toString port)).block
  let mut refusal := IO.userError "failed to lookup address information"
  for address in addresses do
    let client ← TCP.Socket.Client.mk
    try
      let port := UInt16.ofNat port
      (client.connect (match address with
        | .v4 ip => .v4 ⟨ip, port⟩
        | .v6 ip => .v6 ⟨ip, port⟩)).block
      return ← net.modifyGet fun clients => (clients.size, clients.push client)
    catch e => refusal := e
  throw refusal

/-- Receives one reply. What a closed connection leaves incomplete stays so. -/
partial def receive (client : TCP.Socket.Client) (arrived : ByteArray) : IO (List UInt8) := do
  let bytes := arrived.toList
  match Redis.Value.read bytes with
  | .incomplete =>
    match ← (client.recv? 65536).block with
    | some more => receive client (arrived ++ more)
    | none => return bytes
  | _ => return bytes

/-- Does what is asked of the network. -/
def answer (net : Network) : Redis.Ask → IO Redis.Answer
  | .dial (.host name port) =>
    try return .dialled (.ok (← dial net name port))
    catch e => return .dialled (.error (reason e))
  | .dial (.socket _) => return .dialled (.error "local sockets are not available")
  | .send connection command => do
    match (← net.get)[connection]? with
    | some client =>
      try
        (client.send ⟨(Redis.Command.encode command).toArray⟩).block
        return .arrived (← receive client .empty)
      catch _ => return .arrived []
    | none => return .arrived []

/-! ## Steps -/

/-- Carries out one step of a server whose store is reached in some way. -/
structure Carrier (σ γ : Type) where
  advance : {α : Type} → (Server σ γ → Logged (α × Server σ γ)) → Server σ γ →
    IO (Logged (α × Server σ γ))

/-- A store in memory asks for nothing. -/
def Carrier.inMemory {σ γ : Type} : Carrier σ γ := ⟨fun step s => pure (step s)⟩

/-- Takes a step again and again until the network has answered all that it asks. -/
partial def settle (net : Network) {γ α : Type}
    (step : Server Redis.Transcript γ → Logged (α × Server Redis.Transcript γ))
    (s : Server Redis.Transcript γ) (answers : List Redis.Answer) :
    IO (Logged (α × Server Redis.Transcript γ)) := do
  let taken := step (s.modifyStore fun _ => { answers })
  match taken.value.2.currentStore.unanswered with
  | some ask => settle net step s (answers ++ [← answer net ask])
  | none => return taken

def Carrier.overNetwork {γ : Type} (net : Network) : Carrier Redis.Transcript γ :=
  ⟨fun step s => settle net step s []⟩

/-! ## Occurrences -/

inductive Occurrence
  | elapsed
  | requested (request : Http.Request) (answer : IO.Promise Http.Response)
  | signalled (signal : Signal)

instance : Inhabited Occurrence := ⟨.elapsed⟩

abbrev Queue := Std.Channel Occurrence

/-- A request as the library knows it. -/
def incoming (head : Std.Http.Request.Head) (body : ByteArray) : Http.Request where
  method := toString head.method
  target := toString head.uri
  fields := head.headers.toList.map fun (name, value) => (name.value, value.value)
  body := body.toList

/-- A response as it is sent. -/
def outgoing (r : Http.Response) : Async (Std.Http.Response Std.Http.Body.Any) := do
  let status := (Std.Http.Status.ofCode none (UInt16.ofNat r.code)).getD .internalServerError
  let head := r.fields.foldl (fun b (name, value) => (b.header? name value).getD b)
    (Std.Http.Response.withStatus status)
  let full ← head.fromBytes r.body.toUTF8
  return { line := full.line, body := .ofBody full.body, extensions := full.extensions }

/-- The answer to a request that the server did not get to. -/
def unserved : Http.Response := { code := 500 }

instance : Inhabited Http.Response := ⟨unserved⟩

/-- Puts each request into the queue and waits until it is answered. -/
def handler (queue : Queue) : Std.Http.Server.StatelessHandler :=
  Std.Http.Server.Handler.ofFn fun r => do
    let body : ByteArray ← r.body.readAll
    let promise ← IO.Promise.new
    let _ ← queue.send (.requested (incoming r.line body) promise)
    let answered : Async (Option Http.Response) := await promise.result?
    outgoing ((← answered).getD unserved)

/-- Puts a signal into the queue when it arrives. -/
def watch (queue : Queue) (signal : Signal) : IO Unit := do
  let waiter ← Std.Async.Signal.Waiter.mk
    (match signal with
      | .interrupt => .sigint
      | .terminate => .sigterm) false
  let arrival ← waiter.wait
  let _ ← IO.mapTask (t := arrival) fun _ => do
    let _ ← queue.send (.signalled signal)

/-- Puts the passing of time into the queue, once a second and until it is told to stop. -/
partial def tick (queue : Queue) : IO Unit := do
  IO.sleep 1000
  unless ← IO.checkCanceled do
    let _ ← queue.send .elapsed
    tick queue

/-! ## Runs -/

variable {σ γ : Type}

/-- Takes steps until a signal arrives, and gives the signal. `last` is the reading of the clock up
to which the server knows the time. -/
partial def steps (c : Carrier σ γ) (filter : Filter) (queue : Queue) (last : Nat)
    (s : Server σ γ) : IO (Signal × Server σ γ) := do
  match ← queue.sync.recv with
  | .signalled signal => return (signal, s)
  | .elapsed =>
    let time ← IO.monoMsNow
    let taken ← c.advance (fun s => (fun s => ((), s)) <$> s.elapse (time - last)) s
    write filter taken.events
    steps c filter queue time taken.value.2
  | .requested request promise =>
    let time ← now
    let taken ← c.advance (fun s => s.exchange .up time request) s
    write filter taken.events
    promise.resolve (taken.value.1.toOption.getD unserved)
    steps c filter queue last taken.value.2

/-- The address that the system is asked to listen on. -/
def listenAddress (c : Config) : Std.Net.SocketAddress := .v4 ⟨.ofParts 0 0 0 0, c.port⟩

/-- Binds the listener, and lets every request that reaches it go to the queue. -/
def bind (config : Config) (queue : Queue) : IO (Except IO.Error Std.Http.Server) := do
  try
    let options : Std.Http.Config := { serverName := none }
    return .ok (← (Std.Http.Server.serve (listenAddress config) (handler queue) options).block)
  catch e => return .error e

/-- What binding came to. -/
def binding (config : Config) : Except IO.Error Std.Http.Server → Binding
  | .error e => .error (reason e)
  | .ok server =>
    match server.localAddr with
    | some (.v4 address) => .ok address.port
    | some (.v6 address) => .ok address.port
    | none => .ok config.port

/-- The number of the task that brings up the workers: a run has no other. -/
def task : Nat := 1

/-- Serves until a signal arrives. -/
def serve (c : Carrier σ γ) (filter : Filter) (s : Server σ γ) :
    IO (Except Program.Failure Unit) := do
  let queue ← Std.Channel.new
  let listener ← bind s.config queue
  let time ← IO.monoMsNow
  let taken ← c.advance (fun s => Program.launch s (binding s.config listener) time task) s
  write filter taken.events
  match taken.value with
  | (.error f, _) => return .error f
  | (.ok (), s) =>
    watch queue .interrupt
    watch queue .terminate
    let ticking ← IO.asTask (tick queue) .dedicated
    let (signal, s) ← steps c filter queue time s
    IO.cancel ticking
    if let .ok listener := listener then listener.shutdown.block
    let taken ← c.advance (fun s => (fun s => ((), s)) <$> Program.finish s signal) s
    write filter taken.events
    return .ok ()

/-- A run of the program. -/
def run (filter : Filter) (env : Environment) : IO (Except Program.Failure Unit) := do
  let begun := Program.begin env
  write filter begun.events
  match begun.value with
  | .error f => return .error f
  | .ok (config, .memory) =>
    serve .inMemory filter { config, backend := Memory.backend, store := ({} : Table) }
  | .ok (config, .redis address) =>
    let net ← IO.mkRef #[]
    let backend := Redis.backend Redis.Transcript.transport address Redis.defaultTable
    serve (.overNetwork net) filter { config, backend, store := {} }

/-- What a variable is set to. -/
def setting (name : String) : IO (Option Setting) := return (← IO.getEnv name).map .text

def environment : IO Environment := do
  let settings ← Variable.all.mapM fun v => return (v, ← setting v.name)
  return fun v => (settings.lookup v).join

end CacheAside.Outside

def main : IO UInt32 := do
  let filter := CacheAside.Filter.ofSetting (← CacheAside.Outside.setting "RUST_LOG")
  match ← CacheAside.Outside.run filter (← CacheAside.Outside.environment) with
  | .ok () => return 0
  | .error f =>
    IO.eprint f.text
    return 1
