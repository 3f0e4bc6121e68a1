import CacheAside.Store.Backend
import Std.Data.TreeMap

/-!
# A store in memory

A table of keys and values that every connection sees. It never fails, and erasing a key that is
not there succeeds.
-/

namespace CacheAside

/-- What is kept under each key. -/
abbrev Table := Std.TreeMap Key Value

namespace Table

/-- The table that holds the given pairs, a later pair in place of an earlier one of its key. -/
def ofList (pairs : List (Key × Value)) : Table :=
  pairs.foldl (fun t (key, value) => t.insert key value) {}

/-- Serves a request. -/
def serve (t : Table) : Request → Option Value × Table
  | .get key => (t[key]?, t)
  | .put key value => (none, t.insert key value)
  | .delete key => (none, t.erase key)

end Table

namespace Memory

/-- Every connection is as good as any other and remembers nothing. -/
def backend : Backend Table Unit where
  describe := "memory"
  connect t := pure (.ok (), t)
  call r c t :=
    let (value, t) := t.serve r
    pure (.answered value, c, t)

end Memory

end CacheAside
