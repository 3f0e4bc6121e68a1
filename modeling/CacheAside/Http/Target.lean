/-!
# Request targets

A target is a path with a query, a whole URL of which the same parts count, a lone asterisk, or an
authority, which has no path. Nothing is decoded. What follows a number sign counts for nothing.
-/

namespace CacheAside.Http

structure Target where
  path : String
  query : Option String := none
  deriving DecidableEq, Repr

namespace Target

/-- Splits a path with a query. -/
def ofPath (cs : List Char) : Target :=
  let cs := cs.takeWhile (· ≠ '#')
  { path := String.ofList (cs.takeWhile (· ≠ '?'))
    query := match cs.dropWhile (· ≠ '?') with
      | _ :: query => some (String.ofList query)
      | [] => none }

/-- What follows the host of a URL. A missing path is the root. -/
def ofTail (cs : List Char) : Target :=
  let t := ofPath cs
  if t.path = "" then { t with path := "/" } else t

/-- Whether a character ends the host. -/
def endsHost (c : Char) : Bool := c = '/' || c = '?' || c = '#'

def ofString (s : String) : Target :=
  match s.toList with
  | '/' :: cs => ofPath ('/' :: cs)
  | ['*'] => { path := "*" }
  | cs =>
    match cs.dropWhile fun c => c ≠ ':' with
    | ':' :: '/' :: '/' :: rest => ofTail (rest.dropWhile (!endsHost ·))
    | _ => { path := "" }

/-- The query, empty if there is none. -/
def queryText (t : Target) : String := t.query.getD ""

end Target

end CacheAside.Http
