import CacheAside.Net.Address
import CacheAside.Store.Error

/-!
# Failures to start

What can keep a server from running. Some failures have a cause of their own, the text of which
`ServerError.cause?` gives; a store error stands for itself and is not wrapped in another text.
-/

namespace CacheAside

inductive ServerError
  /-- A setting has a value that the server cannot run with. -/
  | invalidConfig (reason : String)
  /-- The listening socket was refused. -/
  | bind (address : Net.SocketAddress) (reason : String)
  /-- A worker got no connection to the store. -/
  | store (cause : StoreError)
  /-- A worker could not be started. -/
  | spawn (reason : String)
  | alreadyRunning
  | shutdownRequested
  deriving DecidableEq, Repr

namespace ServerError

def message : ServerError → String
  | .invalidConfig reason => "Invalid configuration: " ++ reason
  | .bind address reason => "Failed to bind " ++ address.render ++ ": " ++ reason
  | .store cause => cause.message
  | .spawn reason => "Failed to spawn worker thread: " ++ reason
  | .alreadyRunning => "Server is already running"
  | .shutdownRequested => "Shutdown already requested"

/-- The text of the failure underneath. -/
def cause? : ServerError → Option String
  | .bind _ reason => some reason
  | .spawn reason => some reason
  | _ => none

end ServerError

end CacheAside
