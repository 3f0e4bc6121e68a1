import CacheAside.Api.Handler

/-!
# Routes

Which request goes to which handler. Paths are compared as they are written. A path without a
route is answered with an error that names it, a method that a route does not serve with the
methods that it does. `HEAD` is served like `GET` and answered without the body. A request with
the method `OPTIONS` is answered before any route is tried, whatever its path: pages of every
origin may send every method and every header field.
-/

namespace CacheAside.Api

open Http (Response)

inductive Endpoint
  | pairs | stats | health
  deriving DecidableEq, Repr

def Endpoint.ofPath? (path : String) : Option Endpoint :=
  if path = "/api/kv" then some .pairs
  else if path = "/stats" then some .stats
  else if path = "/health" then some .health
  else none

/-- The methods that are served, as a refusal lists them. -/
def Endpoint.allowed : Endpoint → String
  | .pairs => "POST,GET,HEAD,DELETE"
  | .stats | .health => "GET,HEAD"

/-- What the handlers do. -/
inductive Service
  | write | read | delete | stats | health
  deriving DecidableEq, Repr

/-- The service that a method asks of an endpoint. -/
def Endpoint.service? (e : Endpoint) (method : String) : Option Service :=
  match e, method with
  | .pairs, "POST" => some .write
  | .pairs, "GET" | .pairs, "HEAD" => some .read
  | .pairs, "DELETE" => some .delete
  | .stats, "GET" | .stats, "HEAD" => some .stats
  | .health, "GET" | .health, "HEAD" => some .health
  | _, _ => none

/-! ## Fields for pages of other origins -/

/-- Every answer of the router may be read by pages of every origin, and says what it depends
on. -/
def anyOrigin : Http.Fields :=
  [("access-control-allow-origin", "*"),
    ("vary", "origin, access-control-request-method, access-control-request-headers")]

/-- What the answer to `OPTIONS` permits. -/
def permissions : Http.Fields :=
  [("access-control-allow-methods", "*"), ("access-control-allow-headers", "*")]

/-- The field that lists the methods of an endpoint. -/
def allow (e : Endpoint) : Http.Fields := [("allow", e.allowed)]

/-- The answer to `OPTIONS`. -/
def preflight (e : Option Endpoint) : Response :=
  { code := Status.ok.code, fields := permissions ++ (e.map allow).getD [] }

def notAllowed (e : Endpoint) : Response := { code := 405, fields := allow e }

def notFound (path : String) : Response := errorResponse (.unknownRoute path)

/-! ## The router -/

variable {σ γ : Type}

/-- Calls a handler at the time `now`. -/
def perform (b : Backend σ γ) (now : String) (r : Http.Request) (p : Pool σ γ) :
    Service → Logged (Response × Pool σ γ)
  | .write => write b (requestedWrite r) p
  | .read => read b (requestedKey (Http.Target.ofString r.target).queryText) p
  | .delete => delete b (requestedKey (Http.Target.ofString r.target).queryText) p
  | .stats => pure (stats p, p)
  | .health => pure (health now, p)

/-- The answer of a route, or of none. -/
def route (b : Backend σ γ) (now : String) (r : Http.Request) (p : Pool σ γ) :
    Logged (Response × Pool σ γ) :=
  let path := (Http.Target.ofString r.target).path
  let endpoint := Endpoint.ofPath? path
  if r.method = "OPTIONS" then pure (preflight endpoint, p)
  else match endpoint with
    | none => pure (notFound path, p)
    | some e =>
      match e.service? r.method with
      | none => pure (notAllowed e, p)
      | some service => do
        let (response, p) ← perform b now r p service
        return (if r.method = "HEAD" then response.withoutBody else response, p)

/-- Answers a request that arrives at the time `now`. -/
def handle (b : Backend σ γ) (now : String) (r : Http.Request) (p : Pool σ γ) :
    Logged (Response × Pool σ γ) := do
  let (response, p) ← route b now r p
  return (response.withFields anyOrigin, p)

end CacheAside.Api
