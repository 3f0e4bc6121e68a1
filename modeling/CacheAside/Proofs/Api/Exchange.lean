import CacheAside.Api.Router
import CacheAside.Proofs.Dispatch.Origin
import CacheAside.Proofs.Pool.Serving
import CacheAside.Store.Faults
import CacheAside.Store.Memory

/-!
# One request, one dispatch

`Api.Asks` says which operation a request asks for, from the parts of the request: its path, its
method, its body and its query. A request that asks for one is answered by one dispatch of it, and
by nothing else that would leave a trace: `Api.Served` spells out what the pool is afterwards and
what the answer says of the result. Every other request leaves the pool as it is. Both hold at every
point of a sequence of visits, between which the store may change and faults may come and go
(`Api.visit_is_one_dispatch`).
-/

namespace CacheAside

/-! ## What a dispatch counts, over any cache -/

namespace Shared

theorem requests_find (s : Shared) (key : Key) :
    (s.find key).2.counters.requests = s.counters.requests := by
  unfold find
  rcases s.cache.get key with ⟨_ | value, cache⟩
  · rfl
  · rfl

theorem counters_keep (s : Shared) (key : Key) (value : Value) :
    (s.keep key value).value.counters = s.counters := rfl

end Shared

namespace Dispatch

variable {τ : Type} {store : Answering τ} {s : Shared} {t : τ}

/-- What adopts a change without counting leaves the counters to the dispatch. -/
theorem requests_change {adopt : Shared → Logged Shared}
    (adopts : ∀ s, (adopt s).value.counters = s.counters) (r : Request) :
    (change store r adopt s t).value.2.1.counters = s.counters := by
  unfold change
  rcases replied : (store r t).value with ⟨_ | _ | _, t'⟩
  · simp only [Logged.value_bind, replied]
    exact adopts s
  · simp only [Logged.value_bind, replied]
    rfl
  · simp only [Logged.value_bind, replied]
    rfl

/-- A read finds a value or does not succeed, and counts no further request. -/
theorem read_cases (store : Answering τ) (key : Key) (s : Shared) (t : τ) :
    ∃ result s' t', (read store key s t).value = (result, s', t') ∧
      s'.counters.requests = s.counters.requests ∧
      ((∃ value, result = .answered (.found value)) ∨ result.isOk = false) := by
  have same := s.requests_find key
  unfold read
  generalize s.find key = looked at same
  rcases looked with ⟨_ | value, asking⟩
  · rcases replied : (store (.get key) t).value with ⟨(_ | value) | cause | text, t'⟩
    · refine ⟨.answered ⟨.notFound, none⟩, asking, t', ?_, same, .inr rfl⟩
      simp only [Logged.value_bind, replied, Logged.value_pure]
    · refine ⟨.answered (.found value), (asking.keep key value).value, t', ?_, same,
        .inl ⟨value, rfl⟩⟩
      simp only [Logged.value_bind, replied, Logged.value_pure]
    · refine ⟨.answered ⟨.backendError, none⟩, asking, t', ?_, same, .inr rfl⟩
      simp only [Logged.value_bind, replied]
      rfl
    · refine ⟨.crashed text, asking, t', ?_, same, .inr rfl⟩
      simp only [Logged.value_bind, replied, Logged.value_pure]
  · exact ⟨.answered (.found value), asking, t, rfl, same, .inl ⟨value, rfl⟩⟩

/-- Whatever becomes of it, an operation is counted once. -/
theorem requests_dispatch (store : Answering τ) (op : Operation) (s : Shared) (t : τ) :
    (dispatch store op s t).value.2.1.counters.requests = s.counters.requests + 1 := by
  rcases op.valid_cases with invalid | ⟨key, named, rfl | ⟨value, rfl⟩ | rfl⟩
  · rw [dispatch_of_invalid invalid]
    rfl
  · rw [dispatch, Operation.key, if_neg named]
    obtain ⟨result, s', t', ends, same, -⟩ := read_cases store key (s.count .request) t
    rw [ends]
    exact same
  · rw [dispatch, Operation.key, if_neg named]
    exact congrArg Counters.requests (requests_change (fun s => s.counters_keep key value) _)
  · rw [dispatch, Operation.key, if_neg named]
    exact congrArg Counters.requests (requests_change (fun _ => rfl) _)

/-- A read that succeeds has a value. -/
theorem found_of_ok {key : Key} {outcome : Outcome}
    (answered : (dispatch store (.read key) s t).value.1 = .answered outcome)
    (ok : outcome.status = .ok) : ∃ value, outcome = .found value := by
  unfold dispatch at answered
  by_cases unnamed : (Operation.read key).key = ""
  · rw [if_pos unnamed] at answered
    cases answered
    cases ok
  · rw [if_neg unnamed] at answered
    obtain ⟨result, s', t', ends, -, found | failed⟩ := read_cases store key (s.count .request) t
    · obtain ⟨value, rfl⟩ := found
      dsimp only at answered
      rw [ends] at answered
      cases answered
      exact ⟨value, rfl⟩
    · dsimp only at answered
      rw [ends] at answered
      cases answered
      simp [Result.isOk, ok] at failed

end Dispatch

/-- What the target of a request stands for. -/
def Http.Request.resource (r : Http.Request) : Http.Target := .ofString r.target

namespace Api

open Http (Response)

/-! ## What a request asks for -/

/-- The key that the pairs of a query name: the value of the first pair `key`, or the empty key if
there is none. -/
inductive Names : List (String × String) → Key → Prop
  | nothing : Names [] ""
  | here (key : Key) (rest : List (String × String)) : Names (("key", key) :: rest) key
  | later {name value : String} {rest : List (String × String)} {key : Key} (other : name ≠ "key")
      (names : Names rest key) : Names ((name, value) :: rest) key

/-- A body is read as a write if it is sent as JSON, is not too long and begins with a write. -/
structure Accepts (r : Http.Request) (w : WriteBody) : Prop where
  typed : isJson r = true
  short : r.body.length ≤ maxBody
  decoded : WriteBody.ofFirst? (Utf8.scan r.body) = some w

/-- The operation that a request asks for. -/
inductive Asks (r : Http.Request) : Operation → Prop
  | write {w : WriteBody} (path : r.resource.path = "/api/kv")
      (method : r.method = "POST") (accepted : Accepts r w) : Asks r (.write w.key w.value)
  | emptyWrite (path : r.resource.path = "/api/kv")
      (method : r.method = "POST") (rejected : ∀ w, ¬ Accepts r w) : Asks r (.write "" none)
  | read {key : Key} (path : r.resource.path = "/api/kv")
      (method : r.method = "GET" ∨ r.method = "HEAD")
      (names : Names (Form.pairs r.resource.queryText) key) : Asks r (.read key)
  | delete {key : Key} (path : r.resource.path = "/api/kv")
      (method : r.method = "DELETE")
      (names : Names (Form.pairs r.resource.queryText) key) :
      Asks r (.delete key)

theorem first_of_ne {name value : String} {rest : List (String × String)} (other : name ≠ "key") :
    Form.first? "key" ((name, value) :: rest) = Form.first? "key" rest := by
  have apart : ("key" == name) = false := beq_false_of_ne (Ne.symm other)
  simp only [Form.first?, List.lookup_cons, apart]

/-- The handlers find the key that the pairs name. -/
theorem Names.eq {pairs : List (String × String)} {key : Key} (names : Names pairs key) :
    (Form.first? "key" pairs).getD "" = key := by
  induction names with
  | nothing => rfl
  | here key rest => simp [Form.first?]
  | @later name value rest key other names ih =>
      rw [first_of_ne other, ih]

theorem names_first (pairs : List (String × String)) :
    Names pairs ((Form.first? "key" pairs).getD "") := by
  induction pairs with
  | nil => exact .nothing
  | cons pair pairs ih =>
      rcases pair with ⟨name, value⟩
      by_cases own : name = "key"
      · subst own
        have first : (Form.first? "key" (("key", value) :: pairs)).getD "" = value := by
          simp [Form.first?]
        rw [first]
        exact .here value pairs
      · rw [first_of_ne own]
        exact .later own ih

/-- A body that is accepted is the write that the handler has carried out. -/
theorem Accepts.requestedWrite {r : Http.Request} {w : WriteBody} (accepted : Accepts r w) :
    requestedWrite r = w := by
  have usable : (isJson r && decide (r.body.length ≤ maxBody)) = true := by
    rw [accepted.typed, decide_eq_true accepted.short]
    rfl
  unfold Api.requestedWrite
  rw [if_pos usable, accepted.decoded]
  rfl

/-- Every other body stands for the empty write. -/
theorem requestedWrite_of_rejected {r : Http.Request} (rejected : ∀ w, ¬ Accepts r w) :
    requestedWrite r = {} := by
  unfold requestedWrite
  split
  · next usable =>
      rw [Bool.and_eq_true, decide_eq_true_iff] at usable
      obtain ⟨typed, short⟩ := usable
      cases decoded : WriteBody.ofFirst? (Utf8.scan r.body) with
      | none => rfl
      | some w => exact absurd ⟨typed, short, decoded⟩ (rejected w)
  · rfl

/-- The operation that a method asks of the pairs, by what the handlers make of the request. -/
def requested (r : Http.Request) : Option Operation :=
  match Endpoint.pairs.service? r.method with
  | some .write => some (.write (requestedWrite r).key (requestedWrite r).value)
  | some .read => some (.read (requestedKey r.resource.queryText))
  | some .delete => some (.delete (requestedKey r.resource.queryText))
  | _ => none

/-- The handlers ask for the operation that the request asks for. -/
theorem Asks.requested {r : Http.Request} {op : Operation} (asks : Asks r op) :
    requested r = some op := by
  unfold Api.requested
  cases asks with
  | write _ method accepted =>
      rw [method, accepted.requestedWrite]
      rfl
  | emptyWrite _ method rejected =>
      rw [method, requestedWrite_of_rejected rejected]
      rfl
  | read _ method names =>
      unfold requestedKey
      rcases method with get | head
      · rw [get, names.eq]
        rfl
      · rw [head, names.eq]
        rfl
  | delete _ method names =>
      unfold requestedKey
      rw [method, names.eq]
      rfl

/-- A request asks for one operation at most. -/
theorem Asks.unique {r : Http.Request} {op other : Operation} (asks : Asks r op)
    (asks' : Asks r other) : other = op :=
  Option.some.inj (asks'.requested.symm.trans asks.requested)

/-- Every request to a handler of pairs asks for an operation. -/
theorem exists_asks {r : Http.Request} (path : r.resource.path = "/api/kv")
    (method : r.method ∈ ["POST", "GET", "HEAD", "DELETE"]) : ∃ op, Asks r op := by
  have names := names_first (Form.pairs r.resource.queryText)
  simp only [List.mem_cons, List.not_mem_nil, or_false] at method
  rcases method with post | get | head | delete
  · by_cases accepted : ∃ w, Accepts r w
    · obtain ⟨w, accepted⟩ := accepted
      exact ⟨_, .write path post accepted⟩
    · exact ⟨_, .emptyWrite path post (not_exists.mp accepted)⟩
  · exact ⟨_, .read path (.inl get) names⟩
  · exact ⟨_, .read path (.inr head) names⟩
  · exact ⟨_, .delete path delete names⟩

/-! ## How a request is answered -/

/-- The status code that a result leads to. -/
def resultCode : Result → Nat
  | .answered outcome => outcome.status.code
  | .crashed _ => 503

theorem code_respond (key : Key) (context : String) (body : Option Value → String)
    (result : Result) : (respond key context body result.answer).code = resultCode result := by
  cases result with
  | answered outcome =>
      rcases outcome with ⟨status, value⟩
      cases status <;> rfl
  | crashed text => rfl

/-- What is done to every answer of a route that has a handler. -/
def finish (r : Http.Request) (response : Response) : Response :=
  (if r.method = "HEAD" then response.withoutBody else response).withFields anyOrigin

theorem code_finish (r : Http.Request) (response : Response) :
    (finish r response).code = response.code := by
  unfold finish
  split
  · rfl
  · rfl

/-- Unless only the head is asked for, the body is as the handler left it. -/
theorem body_finish {r : Http.Request} (seen : r.method ≠ "HEAD") (response : Response) :
    (finish r response).body = response.body := by
  unfold finish
  rw [if_neg seen]
  rfl

variable {σ γ : Type}

/-- A request to a route with a handler is answered by its service. -/
theorem handle_of_service {r : Http.Request} {e : Endpoint} {service : Service}
    (path : Endpoint.ofPath? r.resource.path = some e) (served : e.service? r.method = some service)
    (b : Backend σ γ) (now : String) (p : Pool σ γ) : handle b now r p = do
      let (response, p) ← perform b now r p service
      return (finish r response, p) := by
  have plain : r.method ≠ "OPTIONS" := by
    intro options
    rw [options] at served
    cases e <;> cases served
  unfold Http.Request.resource at path
  unfold handle route finish
  simp only [if_neg plain, path, served, bind_assoc, pure_bind]

/-- What a handler is going to say of a failure, before it has the operation carried out. -/
def context : Operation → String
  | .write key value =>
    if key = "" ∨ value = none then "Invalid request body" else "Store write failed"
  | .read key => if key = "" then "Missing key parameter" else "Store read failed"
  | .delete key => if key = "" then "Missing key parameter" else "Store delete failed"

/-- The body of an answer that tells of a success. -/
def success : Operation → Option Value → String
  | .read key, value => Body.found key (value.getD "")
  | .write .., _ | .delete _, _ => Body.success

/-- A request that asks for an operation has the pool serve it. -/
theorem handle_serves {r : Http.Request} {op : Operation} (asks : Asks r op) (b : Backend σ γ)
    (now : String) (p : Pool σ γ) : handle b now r p = do
      let (a, p) ← p.serve b op
      return (finish r (respond op.key (context op) (success op) a), p) := by
  have here : r.resource.path = "/api/kv" → Endpoint.ofPath? r.resource.path = some .pairs := by
    intro path
    rw [path]
    rfl
  cases asks with
  | @write w path method accepted =>
      have served : Endpoint.pairs.service? r.method = some .write := by rw [method]; rfl
      have handled := handle_of_service (here path) served b now p
      simp only [perform, accepted.requestedWrite, write, bind_assoc, pure_bind] at handled
      exact handled
  | emptyWrite path method rejected =>
      have served : Endpoint.pairs.service? r.method = some .write := by rw [method]; rfl
      have handled := handle_of_service (here path) served b now p
      simp only [perform, requestedWrite_of_rejected rejected, write, bind_assoc, pure_bind]
        at handled
      exact handled
  | @read key path method names =>
      have served : Endpoint.pairs.service? r.method = some .read := by
        rcases method with get | head
        · rw [get]; rfl
        · rw [head]; rfl
      have own : requestedKey (Http.Target.ofString r.target).queryText = key := names.eq
      have handled := handle_of_service (here path) served b now p
      simp only [perform, own, read, bind_assoc, pure_bind] at handled
      exact handled
  | @delete key path method names =>
      have served : Endpoint.pairs.service? r.method = some .delete := by rw [method]; rfl
      have own : requestedKey (Http.Target.ofString r.target).queryText = key := names.eq
      have handled := handle_of_service (here path) served b now p
      simp only [perform, own, delete, bind_assoc, pure_bind] at handled
      exact handled

theorem Endpoint.path_of_pairs {path : String} (found : ofPath? path = some .pairs) :
    path = "/api/kv" := by
  unfold ofPath? at found
  split at found
  · assumption
  · split at found
    · cases found
    · split at found <;> cases found

/-- Only the pairs have services that make an operation out of a request, and they have no
others. -/
theorem Endpoint.observing {e : Endpoint} {method : String} {service : Service}
    (served : e.service? method = some service)
    (elsewhere : ¬ (e = .pairs ∧ method ∈ ["POST", "GET", "HEAD", "DELETE"])) :
    service = .stats ∨ service = .health := by
  unfold service? at served
  split at served <;> simp_all

theorem Endpoint.path_of_stats {path : String} (found : ofPath? path = some .stats) :
    path = "/stats" := by
  unfold ofPath? at found
  split at found
  · cases found
  · split at found
    · assumption
    · split at found <;> cases found

/-- A request that asks for no operation leaves the pool as it is, and only an answer with the
counters depends on it. -/
theorem handle_aside {r : Http.Request}
    (elsewhere : ¬ (r.resource.path = "/api/kv" ∧ r.method ∈ ["POST", "GET", "HEAD", "DELETE"]))
    (b : Backend σ γ) (now : String) :
    ∃ response : Pool σ γ → Response, (∀ p, handle b now r p = pure (response p, p)) ∧
      (r.resource.path ≠ "/stats" → ∀ p q, response p = response q) := by
  by_cases options : r.method = "OPTIONS"
  · refine ⟨fun _ => (preflight (Endpoint.ofPath? r.resource.path)).withFields anyOrigin, ?_,
      fun _ _ _ => rfl⟩
    intro p
    unfold handle route Http.Request.resource
    simp only [if_pos options, pure_bind]
  · cases path : Endpoint.ofPath? r.resource.path with
    | none =>
        refine ⟨fun _ => (notFound r.resource.path).withFields anyOrigin, ?_, fun _ _ _ => rfl⟩
        intro p
        unfold Http.Request.resource at path ⊢
        unfold handle route
        simp only [if_neg options, path, pure_bind]
    | some e =>
        cases served : e.service? r.method with
        | none =>
            refine ⟨fun _ => (notAllowed e).withFields anyOrigin, ?_, fun _ _ _ => rfl⟩
            intro p
            unfold Http.Request.resource at path
            unfold handle route
            simp only [if_neg options, path, served, pure_bind]
        | some service =>
            have observes : service = .stats ∨ service = .health := by
              apply Endpoint.observing served
              rintro ⟨rfl, method⟩
              exact elsewhere ⟨Endpoint.path_of_pairs path, method⟩
            have handled := handle_of_service path served b now
            rcases observes with rfl | rfl
            · refine ⟨fun p => finish r (stats p), handled, fun unobserved => ?_⟩
              have counting : e = .stats := by
                unfold Endpoint.service? at served
                split at served <;> simp_all
              exact absurd (Endpoint.path_of_stats (counting ▸ path)) unobserved
            · exact ⟨fun _ => finish r (health now), handled, fun _ _ _ => rfl⟩

/-- A request that asks for no operation is answered without the pool. -/
theorem handle_elsewhere {r : Http.Request}
    (elsewhere : ¬ (r.resource.path = "/api/kv" ∧ r.method ∈ ["POST", "GET", "HEAD", "DELETE"]))
    (b : Backend σ γ) (now : String) (p : Pool σ γ) :
    ∃ response, handle b now r p = pure (response, p) := by
  obtain ⟨response, handled, -⟩ := handle_aside elsewhere b now
  exact ⟨response p, handled p⟩

/-- What answering a request comes to when it is one dispatch of an operation, over the connection
of a worker that was idle. The answer has the status code of the result, and an answer to `GET` that
reports a success carries the key that was read and the value that was found. -/
inductive Served (b : Backend σ γ) (r : Http.Request) (op : Operation) (p : Pool σ γ) :
    Logged (Response × Pool σ γ) → Prop
  | intro {w : Nat} {connection connection' : γ} {result : Result} {shared : Shared} {store : σ}
      {events : List Event} {response : Response}
      (idle : p.workers[w]? = some (.idle connection))
      (dispatched : dispatch b.answering op p.shared (connection, p.store) =
        ⟨(result, shared, connection', store), events⟩)
      (counted : shared.counters.requests = p.shared.counters.requests + 1)
      (code : response.code = resultCode result)
      (found : r.method = "GET" → response.code = 200 → ∃ key value, op = .read key ∧
        result = .answered (.found value) ∧ response.body = Body.found key value) :
      Served b r op p ⟨(response, { p with
        shared, store
        workers := p.workers.set w (.after connection' result)
        answers := []
        tickets := p.tickets + 1 }), events⟩

theorem Asks.read_of_get {r : Http.Request} {op : Operation} (asks : Asks r op)
    (get : r.method = "GET") : ∃ key, op = .read key := by
  have requested := asks.requested
  unfold Api.requested at requested
  rw [get] at requested
  exact ⟨_, (Option.some.inj requested).symm⟩

/-- Only a success has the code of a success. -/
theorem ok_of_resultCode {result : Result} (success : resultCode result = 200) :
    ∃ outcome, result = .answered outcome ∧ outcome.status = .ok := by
  rcases result with ⟨⟨status, value⟩⟩ | text
  · cases status with
    | ok => exact ⟨_, rfl, rfl⟩
    | notFound | validationError | backendError => cases success
  · cases success

/-- A request is served by one dispatch of what it asks for, if a worker is alive. -/
theorem served_of_asks {r : Http.Request} {op : Operation} {p : Pool σ γ} (asks : Asks r op)
    (resting : p.Resting) (opened : p.isOpen = true) (alive : p.isAlive = true)
    (b : Backend σ γ) (now : String) : Served b r op p (handle b now r p) := by
  obtain ⟨w, connection, idle, served⟩ := Pool.serve_eq resting opened alive b op
  rw [handle_serves asks, served]
  simp only [bind_assoc, pure_bind]
  have counted := Dispatch.requests_dispatch b.answering op p.shared (connection, p.store)
  rcases dispatched : dispatch b.answering op p.shared (connection, p.store) with
    ⟨⟨result, shared, connection', store⟩, events⟩
  rw [dispatched] at counted
  have code : (finish r (respond op.key (context op) (success op) result.answer)).code =
      resultCode result := by
    rw [code_finish, code_respond]
  have exchanged : Served b r op p ⟨(finish r
      (respond op.key (context op) (success op) result.answer), { p with
      shared, store
      workers := p.workers.set w (.after connection' result)
      answers := []
      tickets := p.tickets + 1 }), events⟩ := by
    refine .intro idle dispatched counted code ?_
    intro get success
    obtain ⟨own, rfl⟩ := asks.read_of_get get
    obtain ⟨outcome, rfl, ok⟩ := ok_of_resultCode (code.symm.trans success)
    obtain ⟨value, rfl⟩ := Dispatch.found_of_ok (congrArg (·.value.1) dispatched) ok
    have seen : r.method ≠ "HEAD" := by rw [get]; decide
    refine ⟨own, value, rfl, rfl, ?_⟩
    rw [body_finish seen]
    rfl
  refine (congrArg (Served b r op p) ?_).mpr exchanged
  exact Logged.ext rfl (List.append_nil events)

/-! ## A sequence of requests -/

/-- A request, the time at which it arrives, and what happens to the store until then. -/
structure Visit (σ : Type) where
  now : String
  request : Http.Request
  meanwhile : σ → σ := id

namespace Visit

/-- The pool that a visit meets, given the one that the visit before has left. -/
def meets (v : Visit σ) (p : Pool σ γ) : Pool σ γ := { p with store := v.meanwhile p.store }

/-- The pool that a visit leaves. -/
def leaves (b : Backend σ γ) (p : Pool σ γ) (v : Visit σ) : Pool σ γ :=
  (handle b v.now v.request (v.meets p)).value.2

end Visit

def visitAll (b : Backend σ γ) (visits : List (Visit σ)) (p : Pool σ γ) : Pool σ γ :=
  visits.foldl (Visit.leaves b) p

/-- The pool is left as serving the operation leaves it. -/
theorem left_of_asks {r : Http.Request} {op : Operation} (asks : Asks r op) (b : Backend σ γ)
    (now : String) (p : Pool σ γ) : (handle b now r p).value.2 = (p.serve b op).value.2 := by
  rw [handle_serves asks]
  rfl

theorem rests_handle {p : Pool σ γ} (rests : p.Resting ∧ p.isOpen = true) (b : Backend σ γ)
    (now : String) (r : Http.Request) :
    (handle b now r p).value.2.Resting ∧ (handle b now r p).value.2.isOpen = true := by
  by_cases elsewhere : r.resource.path = "/api/kv" ∧ r.method ∈ ["POST", "GET", "HEAD", "DELETE"]
  · obtain ⟨op, asks⟩ := exists_asks elsewhere.1 elsewhere.2
    rw [left_of_asks asks]
    exact Pool.rests_serve rests b op
  · obtain ⟨response, handled⟩ := handle_elsewhere elsewhere b now p
    rw [handled]
    exact rests

theorem Visit.meets_of_still {v : Visit σ} (still : v.meanwhile = id) (p : Pool σ γ) :
    v.meets p = p := by
  rw [meets, still]
  rfl

theorem Visit.rests_meets {p : Pool σ γ} (rests : p.Resting ∧ p.isOpen = true) (v : Visit σ) :
    (v.meets p).Resting ∧ (v.meets p).isOpen = true :=
  ⟨⟨rests.1.room, rests.1.waiting, rests.1.queue, rests.1.workers⟩, rests.2⟩

/-- The pool is at rest and open after any visits. -/
theorem rests_visitAll {p : Pool σ γ} (rests : p.Resting ∧ p.isOpen = true) (b : Backend σ γ)
    (visits : List (Visit σ)) :
    (visitAll b visits p).Resting ∧ (visitAll b visits p).isOpen = true := by
  induction visits generalizing p with
  | nil => exact rests
  | cons v visits ih =>
      exact ih (rests_handle (v.rests_meets rests) b v.now v.request)

/-- Whatever requests have come before, and whatever has happened to the store in between: a request
that asks for an operation is answered by one dispatch of it, as long as a worker is left, and every
other request leaves the pool as it meets it. -/
theorem visit_is_one_dispatch {b : Backend σ γ} {size depth : Nat} {shared : Shared} {s s' : σ}
    {start : Pool σ γ} (started : (Pool.start b size depth shared s).value = (.ok start, s'))
    (before : List (Visit σ)) (v : Visit σ) :
    let p := v.meets (visitAll b before start)
    let exchange := handle b v.now v.request p
    (v.request.resource.path = "/api/kv" ∧ v.request.method ∈ ["POST", "GET", "HEAD", "DELETE"] →
      ∃ op, Asks v.request op ∧ (∀ other, Asks v.request other → other = op) ∧
        (p.isAlive = true → Served b v.request op p exchange)) ∧
    (¬ (v.request.resource.path = "/api/kv" ∧
        v.request.method ∈ ["POST", "GET", "HEAD", "DELETE"]) →
      ∃ response, exchange = pure (response, p)) := by
  intro p exchange
  obtain ⟨resting, opened⟩ := rests_visitAll (Pool.rests_start started) b before
  have met : p.Resting := ⟨resting.room, resting.waiting, resting.queue, resting.workers⟩
  constructor
  · rintro ⟨path, method⟩
    obtain ⟨op, asks⟩ := exists_asks path method
    refine ⟨op, asks, fun other asks' => asks.unique asks', ?_⟩
    intro alive
    exact served_of_asks asks met opened alive b v.now
  · intro elsewhere
    exact handle_elsewhere elsewhere b v.now p

/-- A body of no type is written, and refused; then the store breaks down under a read, and a worker
is lost; the pair that the store has held from the start is read by the other worker, from a query
that names two keys. -/
theorem visit_is_one_dispatch_after_loss :
    let crash : FaultRule := { verb := .get, key := some "b", fault := .crash "lost" }
    let before : List (Visit (Faulty Table)) := [
      { now := "0", request := { method := "POST", target := "/api/kv", body := [0x5b, 0x5d] } },
      { now := "1", request := { method := "GET", target := "/api/kv?key=b" }
        meanwhile := fun store => store.inject crash }]
    let get : Http.Request := { method := "GET", target := "/api/kv?x=1&key=a&key=c" }
    let start : Pool (Faulty Table) Unit := {
      depth := 1, workers := [.idle (), .idle ()], shared := .fresh 2
      store := { store := .ofList [("a", "1")], attempts := 2 } }
    let left := visitAll Memory.backend.faulty before start
    (Pool.start Memory.backend.faulty 2 1 (.fresh 2) { store := .ofList [("a", "1")] }).value =
        (.ok start, start.store) ∧
      left.workers.map Worker.isLost = [false, true] ∧ left.shared.counters.requests = 2 ∧
      Served Memory.backend.faulty get (.read "a") left
        (handle Memory.backend.faulty "2" get left) := by
  intro crash before get start left
  have started : (Pool.start Memory.backend.faulty 2 1 (.fresh 2)
    { store := .ofList [("a", "1")] }).value = (.ok start, start.store) := rfl
  have pairs : Form.pairs get.resource.queryText = [("x", "1"), ("key", "a"), ("key", "c")] := by
    decide +kernel
  have asks : Asks get (.read "a") := by
    refine .read (by decide +kernel) (.inl rfl) ?_
    rw [pairs]
    exact .later (by decide) (.here _ _)
  obtain ⟨op, -, unique, served⟩ := (visit_is_one_dispatch started before
    { now := "2", request := get }).1 ⟨by decide +kernel, by decide +kernel⟩
  obtain rfl := unique _ asks
  exact ⟨started, by decide +kernel, by decide +kernel, served (by decide +kernel)⟩

end Api

end CacheAside
