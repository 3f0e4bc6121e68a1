import CacheAside.Api.Body
import CacheAside.Api.WriteBody
import CacheAside.Http.MediaType
import CacheAside.Http.Message
import CacheAside.Http.Target
import CacheAside.Pool.Schedule
import CacheAside.Text.Form
import CacheAside.Text.Utf8

/-!
# Handlers

Each handler makes one operation out of a request, has the worker pool carry it out, and makes an
answer out of the outcome. A request that cannot be read is not answered on the spot: it becomes
an operation that is refused, so it is counted like any other.
-/

namespace CacheAside.Api

open Http (Response)

/-- The answer that reports an error. -/
def errorResponse (e : ApiError) : Response := .json e.code (Body.failure e.message)

/-- The answer to an operation on `key`. `context` is what is said of a failure, and `body` what a
success carries. -/
def respond (key : Key) (context : String) (body : Option Value → String) : Answer → Response
  | .error e => errorResponse (.unavailable e.message)
  | .ok outcome =>
    match outcome.status with
    | .ok => .json outcome.status.code (body outcome.value)
    | .validationError => errorResponse (.invalidRequest context)
    | .notFound => errorResponse (.notFound key)
    | .backendError => errorResponse (.backend (s!"{context} for key '{key}'"))

variable {σ γ : Type}

/-! ## Reading, writing, deleting -/

def write (b : Backend σ γ) (w : WriteBody) (p : Pool σ γ) : Logged (Response × Pool σ γ) := do
  let context := if w.key = "" ∨ w.value = none then "Invalid request body"
    else "Store write failed"
  let (a, p) ← p.serve b (.write w.key w.value)
  return (respond w.key context (fun _ => Body.success) a, p)

def read (b : Backend σ γ) (key : Key) (p : Pool σ γ) : Logged (Response × Pool σ γ) := do
  let context := if key = "" then "Missing key parameter" else "Store read failed"
  let (a, p) ← p.serve b (.read key)
  return (respond key context (fun value => Body.found key (value.getD "")) a, p)

def delete (b : Backend σ γ) (key : Key) (p : Pool σ γ) : Logged (Response × Pool σ γ) := do
  let context := if key = "" then "Missing key parameter" else "Store delete failed"
  let (a, p) ← p.serve b (.delete key)
  return (respond key context (fun _ => Body.success) a, p)

/-! ## Reading requests -/

/-- The key that a query asks for: the value of the first parameter `key`, or the empty key. -/
def requestedKey (query : String) : Key := (Form.first? "key" (Form.pairs query)).getD ""

/-- The number of bytes that a body can have. -/
def maxBody : Nat := 2 * 1024 * 1024

/-- Whether a request says that its body is JSON. -/
def isJson (r : Http.Request) : Bool :=
  ((r.field? "content-type").bind Http.MediaType.ofString?).any Http.MediaType.isJson

/-- The write that a request asks for. A body that is too long, of another type or malformed is
the empty write. -/
def requestedWrite (r : Http.Request) : WriteBody :=
  if isJson r && r.body.length ≤ maxBody then (WriteBody.ofFirst? (Utf8.scan r.body)).getD {}
  else {}

/-! ## Observing -/

def stats (p : Pool σ γ) : Response :=
  .json Status.ok.code
    (Body.stats p.shared.counters p.shared.cache.size p.shared.cache.capacity)

def health (now : String) : Response := .json Status.ok.code (Body.health now)

end CacheAside.Api
