import CacheAside.Proofs.Api.Answers
import CacheAside.Proofs.Api.Exchange
import CacheAside.Proofs.Cache.Representation
import CacheAside.Proofs.Dispatch.Ledger

/-!
# Handlers and dispatch agree

Whether an operation can be carried out is decided twice: by the handler, which picks what it is
going to say of a failure, and by the dispatch, which refuses the operation or sends it to the
store. `Operation.code` tells the status code of an answer from the operation, from what is cached
under its key and from what the store replies. The code and what is said go together, whatever the
request, the cache and the store are: `Api.handlers_agree_with_dispatch`.
-/

namespace CacheAside

namespace Operation

/-- Whether an operation lacks a key, or a write its value. -/
def isUnusable : Operation → Bool
  | .read key | .delete key => key = ""
  | .write key value => key = "" ∨ value = none

theorem isUnusable_iff (op : Operation) :
    op.isUnusable = true ↔ op.key = "" ∨ op.request = none := by
  rcases op with key | ⟨key, _ | value⟩ | key <;> simp [isUnusable, Operation.key, request]

theorem not_isUnusable {op : Operation} {r : Request} (named : op.key ≠ "")
    (asked : op.request = some r) : op.isUnusable = false := by
  refine Bool.of_not_eq_true fun unusable => ?_
  rcases op.isUnusable_iff.mp unusable with unnamed | nothing
  · exact named unnamed
  · rw [asked] at nothing
    cases nothing

/-- The status code that a reply of the store leads to. -/
def replyCode (op : Operation) : Reply → Nat
  | .answered none => if op.looksUp then 404 else 200
  | .answered (some _) => 200
  | .failed _ => 500
  | .crashed _ => 503

/-- The status code of an operation, by what is cached under its key and by what the store replies
to a request. -/
def code (op : Operation) (cached : Option Value) (reply : Request → Reply) : Nat :=
  if op.isUnusable then 400
  else (op.sends cached).elim 200 fun r => op.replyCode (reply r)

/-- The code of an operation that asks the store is told by the reply. -/
theorem code_of_sent (op : Operation) {cached : Option Value} {r : Request} (named : op.key ≠ "")
    (uncached : ∀ key, op = .read key → cached = none) (asked : op.request = some r)
    (reply : Request → Reply) : op.code cached reply = op.replyCode (reply r) := by
  unfold code
  rw [not_isUnusable named asked, sends_of_named named uncached, asked]
  rfl

end Operation

namespace Dispatch

variable {τ : Type} {store : Answering τ} {s s' : Shared} {t t' : τ} {op : Operation}
  {result : Result}

/-- However a dispatch ends, its code is told by what was cached and what the store replied. -/
theorem Ending.code (ending : Ending store s t op (result, s', t')) :
    Api.resultCode result = op.code (s.cache.peek op.key) fun r => (store r t).value.1 := by
  have alone {own : Key} (uncached : s.cache.peek own = none) (key : Key)
      (_ : Operation.read own = .read key) : s.cache.peek (Operation.read own).key = none :=
    uncached
  cases ending with
  | refused invalid => exact (if_pos (op.isUnusable_iff.mpr invalid)).symm
  | @hit key value named cached =>
      have usable : (Operation.read key).isUnusable = false := Operation.not_isUnusable named rfl
      have silent : (Operation.read key).sends (some value) = none := if_pos (.inr rfl)
      rw [Operation.code, Operation.key, cached, usable, silent]
      rfl
  | filled named uncached replied =>
      rw [Operation.code_of_sent (.read _) named (alone uncached) rfl, replied]
      rfl
  | @absent key _ named uncached replied =>
      have looks : (Operation.read key).looksUp = true := decide_eq_true named
      rw [Operation.code_of_sent (.read key) named (alone uncached) rfl, replied,
        Operation.replyCode, looks]
      rfl
  | @written key value answer _ named replied =>
      rw [Operation.code_of_sent (.write key (some value)) named (fun _ same => by cases same) rfl,
        replied]
      cases answer <;> rfl
  | @deleted key answer _ named replied =>
      rw [Operation.code_of_sent (.delete key) named (fun _ same => by cases same) rfl, replied]
      cases answer <;> rfl
  | @failed _ r reply _ _ named uncached asked replied trouble =>
      have missing : ∀ key, op = .read key → s.cache.peek op.key = none := by
        rintro key rfl
        exact uncached key rfl
      rw [op.code_of_sent named missing asked, replied]
      cases reply with
      | answered answer => cases trouble
      | failed cause | crashed text =>
          cases trouble
          rfl

end Dispatch

namespace Operation

/-! ## What a code tells -/

variable {op : Operation} {cached : Option Value} {reply : Request → Reply}

theorem sends_of_isUnusable (unusable : op.isUnusable = true) (cached : Option Value) :
    op.sends cached = none := sends_of_invalid (op.isUnusable_iff.mp unusable) cached

/-- An operation is refused, or answered without the store, or it comes to what the store
replies. -/
theorem code_cases (op : Operation) (cached : Option Value) (reply : Request → Reply) :
    (op.isUnusable = true ∧ op.sends cached = none ∧ op.code cached reply = 400) ∨
      (op.isUnusable = false ∧ op.sends cached = none ∧ op.code cached reply = 200) ∨
      ∃ r, op.isUnusable = false ∧ op.sends cached = some r ∧
        op.code cached reply = op.replyCode (reply r) := by
  unfold code
  cases unusable : op.isUnusable with
  | true => exact .inl ⟨rfl, sends_of_isUnusable unusable cached, rfl⟩
  | false =>
      cases op.sends cached with
      | none => exact .inr (.inl ⟨rfl, rfl, rfl⟩)
      | some r => exact .inr (.inr ⟨r, rfl, rfl, rfl⟩)

theorem replyCode_cases (op : Operation) (reply : Reply) :
    (op.replyCode reply = 200 ∧ ∃ answer, reply = .answered answer) ∨
      (op.replyCode reply = 404 ∧ op.looksUp = true ∧ reply = .answered none) ∨
      (op.replyCode reply = 500 ∧ ∃ cause, reply = .failed cause) ∨
      op.replyCode reply = 503 ∧ ∃ text, reply = .crashed text := by
  rcases reply with (_ | value) | cause | text
  · cases looks : op.looksUp with
    | true => exact .inr (.inl ⟨by rw [replyCode, looks]; rfl, rfl, rfl⟩)
    | false => exact .inl ⟨by rw [replyCode, looks]; rfl, none, rfl⟩
  · exact .inl ⟨rfl, some value, rfl⟩
  · exact .inr (.inr (.inl ⟨rfl, cause, rfl⟩))
  · exact .inr (.inr (.inr ⟨rfl, text, rfl⟩))

/-- The code 400 is that of an operation that cannot be used. -/
theorem code_eq_refused : op.code cached reply = 400 ↔ op.isUnusable = true := by
  rcases op.code_cases cached reply with
    ⟨unusable, -, code⟩ | ⟨usable, -, code⟩ | ⟨r, usable, -, code⟩
  · simp [unusable, code]
  · simp [usable, code]
  · rcases op.replyCode_cases (reply r) with ⟨same, -⟩ | ⟨same, -⟩ | ⟨same, -⟩ | ⟨same, -⟩ <;>
      simp [usable, code, same]

/-- The code 500 is that of a request that the store has failed. -/
theorem code_eq_failed : op.code cached reply = 500 ↔
    ∃ r cause, op.sends cached = some r ∧ reply r = .failed cause := by
  rcases op.code_cases cached reply with
    ⟨-, silent, code⟩ | ⟨-, silent, code⟩ | ⟨r, -, sent, code⟩
  · simp [silent, code]
  · simp [silent, code]
  · rcases op.replyCode_cases (reply r) with
      ⟨same, _, replied⟩ | ⟨same, -, replied⟩ | ⟨same, _, replied⟩ | ⟨same, _, replied⟩ <;>
      simp [sent, code.trans same, replied]

/-- The code 503 is that of a request under which the store has broken down. -/
theorem code_eq_lost : op.code cached reply = 503 ↔
    ∃ r text, op.sends cached = some r ∧ reply r = .crashed text := by
  rcases op.code_cases cached reply with
    ⟨-, silent, code⟩ | ⟨-, silent, code⟩ | ⟨r, -, sent, code⟩
  · simp [silent, code]
  · simp [silent, code]
  · rcases op.replyCode_cases (reply r) with
      ⟨same, _, replied⟩ | ⟨same, -, replied⟩ | ⟨same, _, replied⟩ | ⟨same, _, replied⟩ <;>
      simp [sent, code.trans same, replied]

theorem get_of_sends {key : Key} {r : Request} (sent : (read key).sends cached = some r) :
    r = .get key := by
  have asked : (if key = "" ∨ cached.isSome then none else some (.get key)) = some r := sent
  split at asked
  · cases asked
  · exact (Option.some.inj asked).symm

/-- Only a read can miss its key. -/
theorem code_eq_missing : op.code cached reply = 404 ↔
    ∃ key, op = .read key ∧ op.sends cached = some (.get key) ∧
      reply (.get key) = .answered none := by
  constructor
  · intro missing
    rcases op.code_cases cached reply with
      ⟨-, -, code⟩ | ⟨-, -, code⟩ | ⟨r, -, sent, code⟩
    · cases code.symm.trans missing
    · cases code.symm.trans missing
    · rw [code] at missing
      rcases op.replyCode_cases (reply r) with
        ⟨same, -⟩ | ⟨-, looks, replied⟩ | ⟨same, -⟩ | ⟨same, -⟩
      · cases same.symm.trans missing
      · cases op with
        | read key =>
            obtain rfl := get_of_sends sent
            exact ⟨key, rfl, sent, replied⟩
        | write | delete => cases looks
      · cases same.symm.trans missing
      · cases same.symm.trans missing
  · rintro ⟨key, rfl, sent, replied⟩
    rcases (Operation.read key).code_cases cached reply with
      ⟨-, silent, -⟩ | ⟨-, silent, -⟩ | ⟨r, usable, sent', code⟩
    · cases silent.symm.trans sent
    · cases silent.symm.trans sent
    · cases sent'.symm.trans sent
      have looks : (Operation.read key).looksUp = true := by
        simpa [looksUp, isUnusable] using usable
      rw [code, replied, replyCode, looks]
      rfl

end Operation

/-- The message of an error can be told from the body. -/
theorem Body.failure_inj {message message' : String}
    (same : Body.failure message = Body.failure message') : message = message' := by
  have spells := Body.spells_failure message'
  rw [← same] at spells
  have data := (Body.spells_failure message).alone _ spells
  injection data with members
  injection members with member
  injection member with _ text
  injection text with text
  exact text.symm

namespace Api

open Http (Response)

/-! ## What is said -/

/-- What is said of an operation that is refused. -/
def refusal : Operation → String
  | .write .. => "Invalid request body"
  | .read _ | .delete _ => "Missing key parameter"

/-- What is said of an operation that the store has failed. -/
def apology : Operation → String
  | .write .. => "Store write failed"
  | .read _ => "Store read failed"
  | .delete _ => "Store delete failed"

theorem context_eq (op : Operation) :
    context op = if op.isUnusable then refusal op else apology op := by
  cases op with
  | write key value =>
      by_cases unusable : key = "" ∨ value = none
      · rw [Operation.isUnusable, decide_eq_true unusable]
        exact if_pos unusable
      · rw [Operation.isUnusable, decide_eq_false unusable]
        exact if_neg unusable
  | read key | delete key =>
      by_cases unnamed : key = ""
      · rw [Operation.isUnusable, decide_eq_true unnamed]
        exact if_pos unnamed
      · rw [Operation.isUnusable, decide_eq_false unnamed]
        exact if_neg unnamed

/-- The handler expects a refusal exactly of an operation that it finds unusable. -/
theorem context_eq_refusal {op : Operation} :
    context op = refusal op ↔ op.isUnusable = true := by
  rw [context_eq]
  cases op.isUnusable with
  | true => simp
  | false =>
      cases op <;> simp [refusal, apology]

theorem body_respond (key : Key) (context : String) (body : Option Value → String)
    (result : Result) :
    let response := respond key context body result.answer
    (resultCode result = 400 → response.body = Body.failure ("Invalid request: " ++ context)) ∧
      (resultCode result = 404 → response.body = Body.failure ("Key not found: " ++ key)) ∧
      (resultCode result = 500 →
        response.body = Body.failure ("Backend error: " ++ s!"{context} for key '{key}'")) := by
  rcases result with ⟨⟨status, value⟩⟩ | text
  · cases status with
    | ok => exact ⟨nofun, nofun, nofun⟩
    | validationError => exact ⟨fun _ => rfl, nofun, nofun⟩
    | notFound => exact ⟨nofun, fun _ => rfl, nofun⟩
    | backendError => exact ⟨nofun, nofun, fun _ => rfl⟩
  · exact ⟨nofun, nofun, nofun⟩

/-- A text that begins like a refusal does not begin like an apology. -/
theorem refused_ne_failed (text text' : String) :
    "Invalid request: " ++ text ≠ "Backend error: " ++ text' := by
  intro same
  have first := congrArg (·.toList.head?) same
  simp only [String.toList_append] at first
  cases first

/-! ## Every answer -/

variable {σ γ : Type}

/-- How the answer to a request agrees with what becomes of its operation, over a connection. -/
structure Agrees (b : Backend σ γ) (r : Http.Request) (op : Operation) (p : Pool σ γ)
    (connection : γ) (response : Response) : Prop where
  /-- The handler expects a refusal exactly if the dispatch is going to refuse. -/
  foreseen : context op = refusal op ↔
    (dispatch b.answering op p.shared (connection, p.store)).value.1 = Dispatch.refused
  refused : response.code = 400 ↔ op.isUnusable = true
  /-- The store has failed the request that the operation has sent to it. -/
  failed : response.code = 500 ↔ ∃ sent cause,
    op.sends (p.shared.cache.peek op.key) = some sent ∧
      (b.call sent connection p.store).value.1 = .failed cause
  missing : response.code = 404 ↔ ∃ key, op = .read key ∧
    op.sends (p.shared.cache.peek op.key) = some (.get key) ∧
      (b.call (.get key) connection p.store).value.1 = .answered none
  /-- The store has broken down under the request. -/
  lost : response.code = 503 ↔ ∃ sent text,
    op.sends (p.shared.cache.peek op.key) = some sent ∧
      (b.call sent connection p.store).value.1 = .crashed text
  told : r.method ≠ "HEAD" →
    (response.code = 400 → response.body = Body.failure ("Invalid request: " ++ refusal op)) ∧
    (response.code = 404 → response.body = Body.failure ("Key not found: " ++ op.key)) ∧
    (response.code = 500 → response.body =
      Body.failure ("Backend error: " ++ s!"{apology op} for key '{op.key}'"))
  untold : r.method = "HEAD" → response.body = ""
  /-- A refusal never carries a text about the store, nor a failure of the store one about the
  request. -/
  apart : r.method ≠ "HEAD" → ∀ text,
    (response.code = 400 → response.body ≠ Body.failure ("Backend error: " ++ text)) ∧
    (response.code = 500 → response.body ≠ Body.failure ("Invalid request: " ++ text))

/-- A request for a pair asks for one operation, and its answer agrees with what becomes of it,
whatever the cache holds and whatever the store does. -/
theorem handlers_agree_with_dispatch {capacity : Nat} {p : Pool σ γ} {r : Http.Request}
    (resting : p.Resting) (opened : p.isOpen = true) (alive : p.isAlive = true)
    (reachable : Cache.Reachable capacity p.shared.cache) (path : r.resource.path = "/api/kv")
    (method : r.method ∈ ["POST", "GET", "HEAD", "DELETE"]) (b : Backend σ γ) (now : String) :
    ∃ (op : Operation) (w : Nat) (connection : γ), Asks r op ∧
      p.workers[w]? = some (.idle connection) ∧
      Agrees b r op p connection (handle b now r p).value.1 := by
  obtain ⟨op, asks⟩ := exists_asks path method
  obtain ⟨w, connection, idle, served⟩ := Pool.serve_eq resting opened alive b op
  refine ⟨op, w, connection, asks, idle, ?_⟩
  have ending := Dispatch.ending reachable.intact.1 b.answering op (connection, p.store)
  let result : Result := (dispatch b.answering op p.shared (connection, p.store)).value.1
  have answer : (handle b now r p).value.1 =
      finish r (respond op.key (context op) (success op) result.answer) := by
    rw [handle_serves asks, served]
    rfl
  have same : resultCode result = op.code (p.shared.cache.peek op.key) fun sent =>
      (b.call sent connection p.store).value.1 := ending.code
  have code : (handle b now r p).value.1.code = resultCode result := by
    rw [answer, code_finish, code_respond]
  obtain ⟨invalid, missing, failed⟩ := body_respond op.key (context op) (success op) result
  have told : r.method ≠ "HEAD" → (handle b now r p).value.1.body =
      (respond op.key (context op) (success op) result.answer).body := by
    intro seen
    rw [answer, body_finish seen]
  have refused : resultCode result = 400 ↔ op.isUnusable = true := by
    rw [same]
    exact Operation.code_eq_refused
  have unusable : resultCode result = 400 → context op = refusal op :=
    fun code => context_eq_refusal.mpr (refused.mp code)
  have usable : resultCode result = 500 → context op = apology op := by
    intro code
    rw [context_eq, if_neg]
    intro unusable
    cases code.symm.trans (refused.mpr unusable)
  refine {
    foreseen := ?_
    refused := by rw [code]; exact refused
    failed := by rw [code, same]; exact Operation.code_eq_failed
    missing := by rw [code, same]; exact Operation.code_eq_missing
    lost := by rw [code, same]; exact Operation.code_eq_lost
    told := ?_
    untold := ?_
    apart := ?_ }
  · rw [context_eq_refusal]
    constructor
    · intro unusable
      rw [Dispatch.dispatch_of_invalid (op.isUnusable_iff.mp unusable)]
      rfl
    · intro ends
      exact refused.mp (congrArg resultCode ends)
  · intro seen
    rw [code, told seen]
    refine ⟨fun code => ?_, missing, fun code => ?_⟩
    · rw [invalid code, unusable code]
    · rw [failed code, usable code]
  · intro head
    rw [answer, finish, if_pos head]
    rfl
  · intro seen text
    rw [code, told seen]
    refine ⟨fun code same => ?_, fun code same => ?_⟩
    · rw [invalid code] at same
      exact refused_ne_failed _ _ (Body.failure_inj same)
    · rw [failed code] at same
      exact refused_ne_failed _ _ (Body.failure_inj same).symm

/-- A write that names nothing, a read of a key that is not there, and a delete that the store
fails. -/
theorem handlers_agree_with_dispatch_over_faults :
    let rule : FaultRule := { verb := .delete, key := none, fault := .error (.command "readonly") }
    let p : Pool (Faulty Table) Unit := {
      depth := 1, workers := [.idle ()], shared := .fresh 2
      store := { store := .ofList [("a", "1")], rules := [rule] } }
    let post : Http.Request := { method := "POST", target := "/api/kv", body := [0x5b, 0x5d] }
    let get : Http.Request := { method := "GET", target := "/api/kv?key=b" }
    let delete : Http.Request := { method := "DELETE", target := "/api/kv?key=a" }
    let answer (r : Http.Request) : Response := (handle Memory.backend.faulty "0" r p).value.1
    p.Resting ∧ p.isOpen = true ∧ p.isAlive = true ∧ Cache.Reachable 2 p.shared.cache ∧
      (∀ r ∈ [post, get, delete], ∃ op,
        Asks r op ∧ Agrees Memory.backend.faulty r op p () (answer r)) ∧
      (answer post).code = 400 ∧ (answer get).code = 404 ∧ (answer delete).code = 500 ∧
      (answer post).body = Body.failure "Invalid request: Invalid request body" ∧
      (answer get).body = Body.failure "Key not found: b" ∧
      (answer delete).body = Body.failure "Backend error: Store delete failed for key 'a'" := by
  intro rule p post get delete answer
  have resting : p.Resting := by
    refine ⟨by decide, rfl, rfl, ?_⟩
    intro worker member _
    rw [List.mem_singleton.mp member]
    rfl
  have reachable : Cache.Reachable 2 p.shared.cache := .new rfl
  have agrees : ∀ r ∈ [post, get, delete], ∃ op,
      Asks r op ∧ Agrees Memory.backend.faulty r op p () (answer r) := by
    intro r member
    have places : ∀ r ∈ [post, get, delete], r.resource.path = "/api/kv" ∧
        r.method ∈ ["POST", "GET", "HEAD", "DELETE"] := by decide +kernel
    obtain ⟨path, method⟩ := places r member
    obtain ⟨op, w, _, asks, -, agrees⟩ := handlers_agree_with_dispatch resting rfl rfl reachable
      path method Memory.backend.faulty "0"
    exact ⟨op, asks, agrees⟩
  exact ⟨resting, rfl, rfl, reachable, agrees, by decide +kernel, by decide +kernel,
    by decide +kernel, by decide +kernel, by decide +kernel, by decide +kernel⟩

end Api

end CacheAside
