import CacheAside.Dispatch.Operation
import CacheAside.Json.Quote

/-!
# Errors of the interface

What a client is told when a request does not succeed. The status code of an error is that of the
dispatched operation it stems from; only a dispatcher that takes no operations has a code of its
own.
-/

namespace CacheAside

inductive ApiError
  | invalidRequest (text : String)
  | notFound (key : Key)
  | unknownRoute (path : String)
  | backend (text : String)
  | unavailable (text : String)
  deriving DecidableEq, Repr

namespace ApiError

def message : ApiError → String
  | .invalidRequest text => "Invalid request: " ++ text
  | .notFound key => "Key not found: " ++ key
  | .unknownRoute path => "Not found: " ++ path
  | .backend text => "Backend error: " ++ text
  | .unavailable text => "Service unavailable: " ++ text

def code : ApiError → Nat
  | .invalidRequest _ => Status.validationError.code
  | .notFound _ | .unknownRoute _ => Status.notFound.code
  | .backend _ => Status.backendError.code
  | .unavailable _ => 503

end ApiError

end CacheAside
