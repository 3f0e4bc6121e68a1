/-!
# Failures of a store

A store fails in one of two ways, and the difference decides whether the connection is still of
use: either the connection is broken or could not be opened, or the store refused the command.
-/

namespace CacheAside

inductive StoreError
  /-- The connection is broken, or there is none. -/
  | connection (text : String)
  /-- The store refused or failed the command. -/
  | command (text : String)
  deriving DecidableEq, Repr

namespace StoreError

def message : StoreError → String
  | .connection text => "Store connection error: " ++ text
  | .command text => "Store command failed: " ++ text

/-- Whether the connection has to be opened again. -/
def isConnection : StoreError → Bool
  | .connection _ => true
  | .command _ => false

end StoreError

end CacheAside
