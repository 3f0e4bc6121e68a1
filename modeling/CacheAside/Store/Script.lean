import CacheAside.Store.Backend

/-!
# Scripted sessions

A backend that plays scripts: each attempt to connect takes the next of a list of openings, and each
session answers from its own script. A session whose script has ended answers every request with
success, and once the openings have run out every further attempt is refused. Attempts and requests
are counted.
-/

namespace CacheAside

/-- What a scripted session answers to one request. A value that is found shows only to a read. -/
inductive Line
  | found (value : Value)
  | done
  | fails (cause : StoreError)
  deriving DecidableEq, Repr

def Line.reply (r : Request) : Line → Reply
  | .found value => .answered (if r.verb = .get then some value else none)
  | .done => .answered none
  | .fails cause => .failed cause

/-- What an attempt to connect gets. -/
inductive Opening
  | session (script : List Line)
  | refused (cause : StoreError)
  deriving DecidableEq, Repr

/-- The openings that are left, and what has happened so far. -/
structure Stage where
  openings : List Opening
  attempts : Nat := 0
  requests : Nat := 0
  deriving DecidableEq, Repr

namespace Stage

/-- A connection is what is left of its script. -/
def backend : Backend Stage (List Line) where
  describe := "script"
  connect s :=
    let s := { s with attempts := s.attempts + 1 }
    match s.openings with
    | [] => pure (.error (.connection "connection refused"), s)
    | .session script :: openings => pure (.ok script, { s with openings })
    | .refused cause :: openings => pure (.error cause, { s with openings })
  call r script s :=
    let s := { s with requests := s.requests + 1 }
    match script with
    | [] => pure (.answered none, [], s)
    | line :: script => pure (line.reply r, script, s)

end Stage

end CacheAside
