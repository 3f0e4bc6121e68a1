import CacheAside.Redis.Address
import CacheAside.Store.Memory

/-!
# Where the store is

The setting that names the store: `memory` for one in memory, or the URL of a Redis server. Only
lower-case schemes are taken here, and of those for local sockets only `redis+unix`.
-/

namespace CacheAside

inductive Location
  | memory
  | redis (address : Redis.Address)
  deriving DecidableEq, Repr

namespace Location

/-- How the store is named in the log. -/
def describe : Location → String
  | .memory => Memory.backend.describe
  | .redis address => Redis.describe address Redis.defaultTable

def unsupported (url : String) : StoreError := .connection (s!"unsupported store URL '{url}'")

def ofUrl (url : String) : Except StoreError Location :=
  if url = "memory" ∨ url = "memory://" then .ok .memory
  else if url.startsWith "redis://" || url.startsWith "redis+unix://" then
    match Redis.Address.ofString url with
    | .ok address => .ok (.redis address)
    | .error e => .error e.storeError
  else .error (unsupported url)

end Location

end CacheAside
