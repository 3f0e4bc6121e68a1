import CacheAside.Store.Error
import CacheAside.Url.Basic

/-!
# Addresses of a Redis server

A server is found at a host and port or at a local socket. The URL of the first kind has the
scheme `redis`, names the database in its path and has the credentials in front of the host; the
schemes `unix` and `redis+unix` name a socket by the path, and the query parameters `db`, `user`
and `pass` the rest. How an address is shown never includes the credentials.
-/

namespace CacheAside.Redis

inductive Place
  | host (name : String) (port : Nat)
  | socket (path : String)
  deriving DecidableEq, Repr

def Place.render : Place → String
  | .host name port => name ++ ":" ++ toString port
  | .socket path => path

/-- Where a server is and how to log in. -/
structure Address where
  place : Place
  database : Int := 0
  username : Option String := none
  password : Option String := none
  deriving DecidableEq, Repr

/-- Why a URL is no address. -/
inductive AddressError
  | malformed
  | missingHost
  | encrypted
  | badDatabase
  | badUsername
  | badPassword
  | missingPath
  deriving DecidableEq, Repr

namespace AddressError

def text : AddressError → String
  | .malformed => "Redis URL did not parse"
  | .missingHost => "Missing hostname"
  | .encrypted => "can't connect with TLS, the feature is not enabled"
  | .badDatabase => "Invalid database number"
  | .badUsername => "Username is not valid UTF-8 string"
  | .badPassword => "Password is not valid UTF-8 string"
  | .missingPath => "Missing path"

/-- An address that cannot be used is a refused command, not a broken connection. -/
def storeError (e : AddressError) : StoreError := .command (e.text ++ "- InvalidClientConfig")

end AddressError

namespace Address

/-- The port of a URL that names none. -/
def defaultPort : Nat := 6379

/-- A database number is a signed word of 64 bits. -/
def database? (s : String) : Except AddressError Int :=
  match Numeral.signedWord? s with
  | some n => .ok n
  | none => .error .badDatabase

/-- The path without the slashes at its ends. -/
def trimmedPath (u : Url) : String :=
  let isSlash (c : Char) := c = '/'
  let path := ("/".intercalate (u.path.getD [])).toList
  String.ofList ((path.dropWhile isSlash).reverse.dropWhile isSlash).reverse

/-- Credentials have to be UTF-8 once their escapes are resolved. -/
def credential (s : String) (e : AddressError) : Except AddressError String :=
  match Utf8.decode? (Url.decoded s) with
  | some s => .ok s
  | none => .error e

def ofHostUrl (u : Url) : Except AddressError Address := do
  let some host := u.host | .error .missingHost
  if u.scheme = "rediss" then .error .encrypted
  let path := trimmedPath u
  let database ← if path = "" then pure 0 else database? path
  let username ← if u.username = "" then pure none
    else some <$> credential u.username .badUsername
  let password ← match u.password with
    | some s => some <$> credential s .badPassword
    | none => pure none
  return { place := .host host.render (u.port.getD defaultPort), database, username, password }

/-- Whether a path ends like a drive, in a letter and a colon or bar. -/
def endsInDrive (path : List UInt8) : Bool :=
  match path.reverse with
  | mark :: letter :: _ :: _ =>
    (Char.ofNat letter.toNat).isAlpha && (mark = 0x3A || mark = 0x7C)
  | _ => false

/-- The path of a local socket. A drive at its end gets a slash after it. -/
def socketPath? (u : Url) : Option String :=
  match u.path with
  | some segments =>
    if u.host = none ∨ u.host = some (.name "localhost") then
      let path := segments.flatMap fun s => 0x2F :: Url.decoded s
      some (Utf8.decodeLossy (if endsInDrive path then path ++ [0x2F] else path))
    else none
  | none => none

def ofSocketUrl (u : Url) : Except AddressError Address := do
  let some path := socketPath? u | .error .missingPath
  let pairs := (Form.pairs (u.query.getD "")).reverse
  let database ← match Form.first? "db" pairs with
    | some s => database? s
    | none => pure 0
  return {
    place := .socket path, database
    username := Form.first? "user" pairs, password := Form.first? "pass" pairs }

def ofString (s : String) : Except AddressError Address :=
  match Url.ofString? s with
  | none => .error .malformed
  | some u =>
    if u.scheme = "redis" ∨ u.scheme = "rediss" then ofHostUrl u
    else if u.scheme = "unix" ∨ u.scheme = "redis+unix" then ofSocketUrl u
    else .error .malformed

end Address

/-- The hash that holds the pairs unless another is named. -/
def defaultTable : String := "kv_store"

/-- How a store is named in the log. -/
def describe (a : Address) (table : String) : String :=
  "redis " ++ a.place.render ++ " (hash '" ++ table ++ "')"

end CacheAside.Redis
