import CacheAside.Cache.Basic
import CacheAside.Log.Logged

/-!
# Keeping a pair

`Cache.keep` is `Cache.put` for callers that do not ask what was displaced: the displaced key goes
to the log.
-/

namespace CacheAside.Cache

/-- Keeps a pair and reports the key that it displaced. -/
def keep (c : Cache) (key : Key) (value : Value) : Logged Cache :=
  match c.put key value with
  | (some evicted, c) => do
    Logged.report (.evicted evicted)
    return c
  | (none, c) => pure c

end CacheAside.Cache
