import CacheAside.Net.Address
import CacheAside.Text.Form

/-!
# URLs

The syntax of URLs, for schemes without rules of their own: scheme, credentials, host, port, path
and query. A host is kept as written, with everything but visible ASCII percent-encoded; a path
has its dot segments resolved. Credentials, path and query are kept as written: who needs them
decodes them.

Blanks and control characters around a URL are dropped, tabs and line ends everywhere.
-/

namespace CacheAside

/-- What a host can be. -/
inductive Host
  | name (text : String)
  | v6 (ip : Net.IPv6)
  deriving DecidableEq, Repr

/-- An IPv6 address is written without brackets. -/
def Host.render : Host → String
  | .name text => text
  | .v6 ip => ip.render

structure Url where
  scheme : String
  username : String := ""
  password : Option String := none
  host : Option Host := none
  port : Option Nat := none
  /-- The segments of a path that begins with a slash. -/
  path : Option (List String) := none
  query : Option String := none
  deriving DecidableEq, Repr

namespace Url

/-! ## Percent signs -/

/-- The bytes of a text, every escape replaced by the byte it stands for. -/
def decoded (s : String) : List UInt8 := Form.unescape (Utf8.encode s.toList)

def upperHex (b : UInt8) : List Char :=
  ((Nat.toDigits 16 (b.toNat + 256)).drop 1).map Char.toUpper

/-- Escapes the bytes of a character outside visible ASCII. -/
def escape (c : Char) : List Char :=
  if ' ' ≤ c ∧ c ≤ '~' then [c] else (Utf8.encodeChar c).flatMap fun b => '%' :: upperHex b

/-! ## Host and port -/

/-- The characters that a host cannot hold. -/
def isForbidden (c : Char) : Bool :=
  c = '\x00' || c = '\t' || c = '\n' || c = '\r' || "#/:<>?@[\\]^| ".contains c

def host? (cs : List Char) : Option Host :=
  match cs with
  | '[' :: inner =>
    if inner.getLast? = some ']' then (Net.IPv6.ofChars? inner.dropLast).map .v6 else none
  | _ => if cs.any isForbidden then none else some (.name (String.ofList (cs.flatMap escape)))

/-- The text before and after the first colon outside square brackets. -/
def splitHost (isInside : Bool) : List Char → List Char × List Char
  | [] => ([], [])
  | c :: rest =>
    if c = ':' && !isInside then ([], c :: rest)
    else
      let isInside := if c = '[' then true else if c = ']' then false else isInside
      let (host, port) := splitHost isInside rest
      (c :: host, port)

/-- Reads what follows the host: nothing, or a colon and a port, which may be empty. A backslash
ends the port and belongs to the path. -/
def port? (cs : List Char) : Option (Option Nat × List Char) :=
  match cs with
  | ':' :: cs =>
    let digits := cs.takeWhile Char.isDigit
    let rest := cs.dropWhile Char.isDigit
    if rest.head?.all (· = '\\') then
      if digits.isEmpty then some (none, rest)
      else ((Numeral.digits? digits).filter (· < UInt16.size)).map fun n => (some n, rest)
    else none
  | cs => some (none, cs)

/-! ## Credentials -/

/-- The text before and after the last at sign. -/
def splitAt? (cs : List Char) : Option (List Char × List Char) :=
  match cs with
  | [] => none
  | c :: rest =>
    match splitAt? rest with
    | some (before, after) => some (c :: before, after)
    | none => if c = '@' then some ([], rest) else none

/-- The user name up to the first colon and the password after it. An empty password is none. -/
def credentials (cs : List Char) : String × Option String :=
  let password := (cs.dropWhile (· ≠ ':')).drop 1
  (String.ofList (cs.takeWhile (· ≠ ':')),
    if password.isEmpty then none else some (String.ofList password))

/-! ## Path -/

/-- The spellings of a dot in a dot segment. -/
def dots : List String := [".", "%2e", "%2E"]

def isDot (segment : String) : Bool := dots.contains segment

def isDoubleDot (segment : String) : Bool :=
  dots.any fun a => dots.any fun b => segment = a ++ b

/-- A segment that begins like a drive, a letter and a colon or bar, with nothing or a backslash
after it. Such a segment stays where it is. -/
def isDrive (segment : String) : Bool :=
  match segment.toList with
  | letter :: mark :: rest =>
    letter.isAlpha && (mark = ':' || mark = '|') && rest.head?.all (· = '\\')
  | _ => false

/-- Takes back the last of the segments done so far. -/
def pop : List String → List String
  | [] => []
  | segment :: done => if isDrive segment then segment :: done else done

/-- Resolves dot segments. `done` holds the segments so far, last first; a dot segment at the end
leaves an empty segment. -/
def resolve (done : List String) : List String → List String
  | [] => done.reverse
  | segment :: rest =>
    let done' := if isDoubleDot segment then pop done else if isDot segment then done
      else segment :: done
    if rest.isEmpty && (isDoubleDot segment || isDot segment) then ("" :: done').reverse
    else resolve done' rest

/-- The segments of the text after a leading slash. -/
def segments (cs : List Char) : List String :=
  resolve [] ((cs.splitOnP (· == '/')).map String.ofList)

/-! ## The whole -/

/-- Whether a character ends the part before the path. -/
def endsAuthority (c : Char) : Bool := c = '/' || c = '?' || c = '#'

/-- Whether a character ends the path. -/
def endsPath (c : Char) : Bool := c = '?' || c = '#'

/-- Adds path and query. A path after a host begins with a slash, written or not. -/
def withTail (u : Url) (cs : List Char) : Url :=
  let path := cs.takeWhile (!endsPath ·)
  let query := match cs.dropWhile (!endsPath ·) with
    | '?' :: rest => some (String.ofList (rest.takeWhile (· ≠ '#')))
    | _ => none
  match path with
  | [] => { u with query }
  | '/' :: rest => { u with path := some (segments rest), query }
  | path => { u with path := if u.host.isSome then some (segments path) else none, query }

/-- Reads host and port, the part before the path without credentials. A host may be empty only if
neither port nor credentials stand with it. -/
def withHost? (u : Url) (cs rest : List Char) : Option Url := do
  let (host, port) := splitHost false cs
  if host.isEmpty then
    if port.isEmpty && u.username = "" && u.password.isNone then return u.withTail rest else none
  else
    let (port, before) ← port? port
    return { u with host := some (← host? host), port }.withTail (before ++ rest)

/-- Reads what follows two slashes. -/
def withAuthority? (u : Url) (cs : List Char) : Option Url :=
  let authority := cs.takeWhile (!endsAuthority ·)
  let rest := cs.dropWhile (!endsAuthority ·)
  match splitAt? authority with
  | none => u.withHost? authority rest
  | some (info, hostPort) =>
    if info.isEmpty && hostPort.isEmpty && !rest.isEmpty then none
    else
      let (username, password) := credentials info
      { u with username, password }.withHost? hostPort rest

def isSchemeChar (c : Char) : Bool := c.isAlphanum || c = '+' || c = '-' || c = '.'

/-- What is left of a text without the blanks around it and without tabs and line ends. -/
def cleaned (s : String) : List Char :=
  let isBlank (c : Char) := c ≤ ' '
  (((s.toList.dropWhile isBlank).reverse.dropWhile isBlank).reverse).filter
    fun c => c ≠ '\t' ∧ c ≠ '\n' ∧ c ≠ '\r'

def ofString? (s : String) : Option Url :=
  let cs := cleaned s
  let scheme := cs.takeWhile isSchemeChar
  if scheme.head?.all (!·.isAlpha) then none
  else
    let u : Url := { scheme := String.ofList (scheme.map Char.toLower) }
    match cs.dropWhile isSchemeChar with
    | ':' :: '/' :: '/' :: rest => u.withAuthority? rest
    | ':' :: rest => some (u.withTail rest)
    | _ => none

end Url

end CacheAside
