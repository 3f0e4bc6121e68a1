import CacheAside.Api.Error
import CacheAside.Stats

/-!
# Bodies of answers

The JSON objects that answers carry.
-/

namespace CacheAside.Body

/-- The answer to a read. -/
def found (key : Key) (value : Value) : String :=
  Json.object [("key", .text key), ("value", .text value)]

/-- The answer to a write or a delete. -/
def success : String := Json.object [("status", .text "success")]

/-- The answer that carries an error. -/
def failure (message : String) : String := Json.object [("error", .text message)]

/-- The counters, and how full the cache is. -/
def stats (c : Counters) (entries capacity : Nat) : String :=
  let sizes := [("cache_entries", .count entries), ("cache_capacity", .count capacity)]
  Json.object (c.members ++ sizes)

/-- The answer of a server that is alive, at the given time. -/
def health (time : String) : String :=
  Json.object [("status", .text "healthy"), ("timestamp", .text time)]

end CacheAside.Body
