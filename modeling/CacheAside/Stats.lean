import CacheAside.Json.Quote

/-!
# Counters

What a server counts from its start on: the operations dispatched, the reads answered from the
cache, and the reads that had to ask the store. Each counter is a word of 64 bits that starts at
zero and wraps. The hit rate is the number of hits divided by the number of all operations.
-/

namespace CacheAside

/-- What can be counted. -/
inductive Counter
  /-- An operation, whatever becomes of it. -/
  | request
  /-- A read answered from the cache. -/
  | hit
  /-- A read that asks the store. -/
  | miss
  deriving DecidableEq, Repr

structure Counters where
  requests : UInt64 := 0
  hits : UInt64 := 0
  misses : UInt64 := 0
  deriving DecidableEq, Repr, Inhabited

namespace Counters

/-- Counts `n` events of one kind. -/
def add (n : UInt64) (c : Counters) : Counter → Counters
  | .request => { c with requests := c.requests + n }
  | .hit => { c with hits := c.hits + n }
  | .miss => { c with misses := c.misses + n }

/-- Counts one event. -/
def record (c : Counters) (k : Counter) : Counters := c.add 1 k

/-- Hits per operation: both counts are rounded before they are divided. Before the first
operation the rate is zero. -/
def hitRate (c : Counters) : Binary64 :=
  if c.requests = 0 then .zero
  else (Binary64.ofNat c.hits.toNat).div (.ofNat c.requests.toNat)

/-- The counters and the rate as members of an answer. -/
def members (c : Counters) : List (String × Json.Scalar) :=
  [("total_requests", .count c.requests.toNat), ("cache_hits", .count c.hits.toNat),
    ("cache_misses", .count c.misses.toNat), ("hit_rate", .rate c.hitRate)]

/-- The counters as a JSON object. -/
def json (c : Counters) : String := Json.object c.members

end Counters

end CacheAside
