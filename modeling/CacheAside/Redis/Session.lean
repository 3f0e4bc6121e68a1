import CacheAside.Redis.Address
import CacheAside.Redis.Failure
import CacheAside.Store.Reconnect

/-!
# Redis as a store

The pairs are the fields of one hash. A session logs in and selects its database when it is opened
and then sends one command a request. How bytes get to the server and back is left to a transport.
-/

namespace CacheAside.Redis

/-- Text that goes to the server, in parts. -/
abbrev Command := List String

/-- A way to reach servers: `κ` is one connection, `σ` whatever all connections share. -/
structure Transport (σ κ : Type) where
  /-- Opens a connection, or says why not. -/
  dial : Place → σ → Except String κ × σ
  /-- Sends a command, and gives the bytes that arrive in answer to it. If they are no complete
  reply, nothing more is to come. -/
  send : Command → κ → σ → List UInt8 × κ × σ

/-- An open session: its connection, and the bytes that have arrived and are not read yet. -/
structure Session (κ : Type) where
  connection : κ
  arrived : List UInt8 := []

variable {σ κ : Type}

/-- Sends a command and reads one reply. -/
def query (t : Transport σ κ) (c : Command) (session : Session κ) (s : σ) :
    Except Failure Value × Session κ × σ :=
  let (bytes, connection, s) := t.send c session.connection s
  match Value.read (session.arrived ++ bytes) with
  | .incomplete => (.error .ended, { connection }, s)
  | .malformed => (.error .garbled, { connection }, s)
  | .done value rest =>
    let result := match value.error? with
      | some report => .error (.answered report)
      | none => .ok value
    (result, { connection, arrived := rest }, s)

/-! ## Opening -/

def isOkay : Except Failure Value → Bool
  | .ok (.status text) => text = "OK"
  | _ => false

/-- The text in which servers that know no user names refuse one. -/
def wrongArity : String := "wrong number of arguments for 'auth' command"

/-- Whether a row of characters occurs in another. -/
def occurs (part : List Char) : List Char → Bool
  | [] => part.isEmpty
  | c :: cs => part.isPrefixOf (c :: cs) || occurs part cs

/-- Whether a refused login is worth a second attempt without a user name. -/
def isOldServer : Except Failure Value → Bool
  | .error (.answered r) =>
    let detail := if (Failure.kind? r.code).isSome then r.detail.getD ""
      else r.detail.getD "Unknown extension error encountered"
    occurs wrongArity.toList detail.toList
  | _ => false

/-- Logs in with a password. -/
def login (t : Transport σ κ) (username : Option String) (password : String) (session : Session κ)
    (s : σ) : Except Failure Unit × Session κ × σ :=
  let (result, session, s) := query t ("AUTH" :: username.toList ++ [password]) session s
  if isOkay result then (.ok (), session, s)
  else if result matches .ok _ then (.error .loginGarbled, session, s)
  else if isOldServer result then
    let (result, session, s) := query t ["AUTH", password] session s
    (if isOkay result then .ok () else .error .loginFailed, session, s)
  else (.error .loginFailed, session, s)

/-- Logs in if there is a password. -/
def authenticate (t : Transport σ κ) (a : Address) (session : Session κ) (s : σ) :
    Except Failure Unit × Session κ × σ :=
  match a.password with
  | some password => login t a.username password session s
  | none => (.ok (), session, s)

/-- Selects the database unless it is the first. -/
def select (t : Transport σ κ) (a : Address) (session : Session κ) (s : σ) :
    Except Failure Unit × Session κ × σ :=
  if a.database = 0 then (.ok (), session, s)
  else
    let (result, session, s) := query t ["SELECT", toString a.database] session s
    (if isOkay result then .ok () else .error .databaseRefused, session, s)

/-- Opens a session. -/
def openSession (t : Transport σ κ) (a : Address) (s : σ) : Except Failure (Session κ) × σ :=
  match t.dial a.place s with
  | (.error text, s) => (.error (.io text), s)
  | (.ok connection, s) =>
    match authenticate t a { connection } s with
    | (.error e, _, s) => (.error e, s)
    | (.ok (), session, s) =>
      match select t a session s with
      | (.error e, _, s) => (.error e, s)
      | (.ok (), session, s) => (.ok session, s)

/-! ## Requests -/

/-- The command of a request. -/
def command (table : String) : Request → Command
  | .get key => ["HGET", table, key]
  | .put key value => ["HSET", table, key, value]
  | .delete key => ["HDEL", table, key]

/-- What a read makes of a reply. -/
def readValue : Value → Except Failure (Option CacheAside.Value)
  | .nil => .ok none
  | .data bytes =>
    match Utf8.decode? bytes with
    | some s => .ok (some s)
    | none => .error .notText
  | .status text => .ok (some text)
  | reply => .error (.incompatible reply)

/-- What a request makes of a reply. A write or a delete takes any reply for success. -/
def accept (r : Request) (reply : Value) : Except Failure (Option CacheAside.Value) :=
  match r with
  | .get _ => readValue reply
  | _ => .ok none

/-- Sessions as the connections of a backend. -/
def sessions (t : Transport σ κ) (a : Address) (table : String) : Backend σ (Session κ) where
  describe := describe a table
  connect s :=
    match openSession t a s with
    | (.error e, s) => pure (.error e.storeError, s)
    | (.ok session, s) => do
      Logged.report .sessionOpened
      return (.ok session, s)
  call r session s :=
    let (result, session, s) := query t (command table r) session s
    match result.bind (accept r) with
    | .ok value => pure (.answered value, session, s)
    | .error e => pure (.failed e.storeError, session, s)

/-- A store on a Redis server. A session that is lost is opened again. -/
def backend (t : Transport σ κ) (a : Address) (table : String) :
    Backend σ (Option (Session κ)) :=
  let b := (sessions t a table).reconnecting
  { b with
    connect := fun s => do
      let (opened, s) ← b.connect s
      if opened matches .ok _ then Logged.report (.connected b.describe)
      return (opened, s) }

end CacheAside.Redis
