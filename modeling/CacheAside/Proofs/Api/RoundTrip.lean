import CacheAside.Proofs.Api.Decoding
import CacheAside.Proofs.Api.Exchange
import CacheAside.Proofs.Dispatch.Staleness
import CacheAside.Proofs.Dispatch.Transparency
import CacheAside.Proofs.Json.Writing
import CacheAside.Proofs.Pool.Delivery
import CacheAside.Proofs.Text.Form

/-!
# A pair and its round trip

A pair is written in a body and asked for in a query, and the answer is a body again. Whatever
texts the key and the value are and however they are spelled, a pair that was written is read back,
and a key that was deleted is not found, until another request changes it: `Api.round_trip`.

The invariant is about one key: `Pool.Holds` says that the store has a content under it, and that
the cache has nothing else.
-/

namespace CacheAside

/-! ## One key of the store -/

/-- Whether an operation can only leave a content under a key as it is. -/
def Operation.Spares (op : Operation) (key : Key) (content : Option Value) : Prop :=
  (∀ value, op ≠ .write key (some value)) ∧ (op = .delete key → content = none)

/-- What an operation spares is left alone on the map. -/
theorem Plain.settle_of_spares {p : Plain} {op : Operation} {key : Key} {content : Option Value}
    (spares : op.Spares key content) (same : p key = content) (result : Result) :
    p.settle op result key = content := by
  unfold settle
  split
  · rcases op with own | ⟨own, _ | value⟩ | own
    · exact same
    · exact same
    · have apart : key ≠ own := by
        rintro rfl
        exact spares.1 value rfl
      exact (if_neg apart).trans same
    · by_cases here : key = own
      · subst here
        exact (if_pos rfl).trans (spares.2 rfl).symm
      · exact (if_neg here).trans same
  · exact same

/-- Operations leave the rules for faults as they are. -/
theorem Dispatch.Ending.fault? {s s' : Shared} {c c' : Unit} {f f' : Faulty Table} {op : Operation}
    {result : Result}
    (ending : Ending Memory.backend.faulty.answering s (c, f) op (result, s', c', f'))
    (r : Request) : f'.fault? r = f.fault? r := by
  cases ending with
  | refused _ => rfl
  | hit _ _ => rfl
  | filled _ _ replied => exact Memory.fault?_of_replied replied r
  | absent _ _ replied => exact Memory.fault?_of_replied replied r
  | written _ replied => exact Memory.fault?_of_replied replied r
  | deleted _ replied => exact Memory.fault?_of_replied replied r
  | failed _ _ _ replied _ => exact Memory.fault?_of_replied replied r

/-- Without faults every operation is answered, and a change that is not refused is answered Ok. -/
theorem Dispatch.Ending.answered {s s' : Shared} {c c' : Unit} {f f' : Faulty Table}
    {op : Operation} {result : Result}
    (ending : Ending Memory.backend.faulty.answering s (c, f) op (result, s', c', f'))
    (quiet : ∀ r, f.fault? r = none) : ∃ outcome, result = .answered outcome ∧
      (op.key ≠ "" → op.request ≠ none → (∀ key, op ≠ .read key) → outcome.status = .ok) := by
  cases ending with
  | refused invalid =>
      exact ⟨_, rfl, fun named asked _ => absurd invalid (not_or.mpr ⟨named, asked⟩)⟩
  | hit _ _ => exact ⟨_, rfl, fun _ _ change => absurd rfl (change _)⟩
  | filled _ _ _ => exact ⟨_, rfl, fun _ _ change => absurd rfl (change _)⟩
  | absent _ _ _ => exact ⟨_, rfl, fun _ _ change => absurd rfl (change _)⟩
  | written _ _ => exact ⟨_, rfl, fun _ _ _ => rfl⟩
  | deleted _ _ => exact ⟨_, rfl, fun _ _ _ => rfl⟩
  | failed _ _ _ replied trouble =>
      obtain ⟨⟨fault, struck, -⟩, -⟩ := Memory.struck_of_trouble replied trouble
      cases (quiet _).symm.trans struck

/-! ## One pool -/

namespace Pool

/-- A pool that serves what it is asked, over a store that does not fail. -/
structure Working (p : Pool (Faulty Table) Unit) : Prop where
  rests : p.Resting ∧ p.isOpen = true
  alive : p.isAlive = true
  intact : p.shared.cache.Intact
  quiet : ∀ r, p.store.fault? r = none

/-- The store has this content under the key, and the cache nothing else. -/
structure Holds (p : Pool (Faulty Table) Unit) (key : Key) (content : Option Value) : Prop where
  working : p.Working
  stored : p.store.store[key]? = content
  cached : ∀ value, p.shared.cache.peek key = some value → content = some value

end Pool

namespace Api

open Http (Response)

/-! ## What requests spell -/

/-- A request to write a pair: its body is an object, spelled in any way that the grammar allows,
that has this key and this value, once each and among any other members. -/
structure Writes (r : Http.Request) (key : Key) (value : Value) : Prop where
  path : r.resource.path = "/api/kv"
  method : r.method = "POST"
  typed : isJson r = true
  short : r.body.length ≤ maxBody
  spelled : ∃ text members, r.body = Utf8.encode text ∧
    Json.Spells (.element (.object members)) text ∧
    WriteBody.named "key" members = [.text key] ∧ WriteBody.named "value" members = [.text value]

/-- A request whose query carries the key, spelled in any way, as its first parameter `key`. -/
structure Addresses (r : Http.Request) (method : String) (key : Key) : Prop where
  path : r.resource.path = "/api/kv"
  method : r.method = method
  carries : Form.Carries "key" key r.resource.queryText.toList

/-- A request after which a key is to have this content: it writes the value, or deletes the key. -/
inductive Sets (r : Http.Request) (key : Key) : Option Value → Prop
  | write {value : Value} (writes : Writes r key value) : Sets r key (some value)
  | delete (addresses : Addresses r "DELETE" key) : Sets r key none

/-- What the answer to a read says of the content of the key. -/
inductive Tells (key : Key) (response : Response) : Option Value → Prop
  | found {value : Value} (code : response.code = 200)
      (spells : Json.Spells (.value (.object [("key", .text key), ("value", .text value)]))
        response.body.toList)
      (decoded : WriteBody.ofWhole? (response.body.toList.map some) = some ⟨key, some value⟩) :
    Tells key response (some value)
  | absent (code : response.code = 404) : Tells key response none

variable {r : Http.Request} {key : Key} {value : Value} {content : Option Value}

/-- The marks of a token as a list: a search in a text does not compute. -/
theorem isToken_eq : Http.isToken = fun c =>
    c.isAlphanum || decide (c ∈ "!#$%&'*+-.^_\x60|~".toList) := by
  funext c
  rw [Http.isToken, String.contains_char_eq]

theorem isJson_of_field (typed : r.field? "content-type" = some "application/json") :
    isJson r = true := by
  rw [isJson, typed]
  change Option.any Http.MediaType.isJson (Http.MediaType.ofString? "application/json") = true
  unfold Http.MediaType.ofString?
  rw [isToken_eq]
  decide +kernel

theorem Writes.asks (writes : Writes r key value) : Asks r (.write key (some value)) := by
  obtain ⟨text, members, body, spells, keyed, valued⟩ := writes.spelled
  have accepted : Accepts r ⟨key, some value⟩ := by
    refine ⟨writes.typed, writes.short, ?_⟩
    rw [body, Utf8.scan_encode]
    exact (WriteBody.decode_pair spells keyed valued).1
  exact .write writes.path writes.method accepted

theorem Addresses.names {method : String} (addresses : Addresses r method key) :
    Names (Form.pairs r.resource.queryText) key := by
  have names := names_first (Form.pairs r.resource.queryText)
  rw [Form.first?_eq_some_iff.mpr addresses.carries] at names
  exact names

theorem tells_found {response : Response} (code : response.code = 200)
    (body : response.body = Body.found key value) : Tells key response (some value) := by
  refine .found code ?_ ?_
  · exact body ▸ Json.spells_found key value
  · exact body ▸ (WriteBody.decode_pair (Json.spells_found key value).bare rfl rfl).2

/-- The answer to a read can be sent as it is to write the pair again. -/
theorem writes_of_answer (path : r.resource.path = "/api/kv") (method : r.method = "POST")
    (typed : r.field? "content-type" = some "application/json") (short : r.body.length ≤ maxBody)
    (body : r.body = Utf8.encode (Body.found key value).toList) : Writes r key value :=
  ⟨path, method, isJson_of_field typed, short, _, _, body, (Json.spells_found key value).bare,
    rfl, rfl⟩

/-! ## One request -/

section Handling

variable {p : Pool (Faulty Table) Unit} {op : Operation}

/-- What a pool that works comes to when it is asked for an operation. -/
theorem handle_working (working : p.Working) (asks : Asks r op) (now : String) :
    ∃ outcome response p', (handle Memory.backend.faulty now r p).value = (response, p') ∧
      p'.Working ∧ Dispatch.Ending Memory.backend.faulty.answering p.shared ((), p.store) op
        (.answered outcome, p'.shared, (), p'.store) ∧
      response.code = outcome.status.code ∧
      (r.method = "GET" → response.code = 200 → ∃ own value, op = .read own ∧
        outcome = .found value ∧ response.body = Body.found own value) := by
  have served := served_of_asks asks working.rests.1 working.rests.2 working.alive
    Memory.backend.faulty now
  have rests := rests_handle working.rests Memory.backend.faulty now r
  generalize handle Memory.backend.faulty now r p = exchange at served rests
  cases served with
  | @intro w connection connection' result shared store events response idle dispatched _ code
      found =>
      have ending :=
        Dispatch.ending working.intact Memory.backend.faulty.answering op (connection, p.store)
      rw [dispatched] at ending
      obtain ⟨outcome, rfl, -⟩ := ending.answered working.quiet
      have quiet : ∀ r, store.fault? r = none := fun r =>
        (ending.fault? r).trans (working.quiet r)
      refine ⟨outcome, response, _, rfl,
        ⟨rests, Pool.alive_set idle rfl, ending.intact working.intact, quiet⟩, ending, code, ?_⟩
      intro get success
      obtain ⟨own, value, read, same, body⟩ := found get success
      exact ⟨own, value, read, Result.answered.inj same, body⟩

/-- A request that spares a key leaves what is held under it. -/
theorem holds_handle (holds : p.Holds key content)
    (spares : ∀ op, Asks r op → op.Spares key content) (now : String) :
    (handle Memory.backend.faulty now r p).value.2.Holds key content := by
  by_cases elsewhere : r.resource.path = "/api/kv" ∧ r.method ∈ ["POST", "GET", "HEAD", "DELETE"]
  · obtain ⟨op, asks⟩ := exists_asks elsewhere.1 elsewhere.2
    obtain ⟨outcome, response, p', handled, working, ending, -⟩ :=
      handle_working holds.working asks now
    have stored : p'.store.store[key]? = content :=
      (ending.settles (p := fun key => p.store.store[key]?) rfl).trans
        (Plain.settle_of_spares (spares op asks) holds.stored _)
    rw [handled]
    refine ⟨working, stored, fun value held => ?_⟩
    -- A pair that is cached now was put there from the store, or it was cached before.
    rcases ending.origin holds.working.intact held with ⟨-, stores⟩ | ⟨-, before, -⟩
    · exact stored.symm.trans stores
    · exact holds.cached value before
  · obtain ⟨response, handled⟩ := handle_elsewhere elsewhere Memory.backend.faulty now p
    rw [handled]
    exact holds

/-- A pool holds its content over all visits that spare the key. -/
theorem holds_visitAll (holds : p.Holds key content) {later : List (Visit (Faulty Table))}
    (spares : ∀ v ∈ later, v.meanwhile = id ∧ ∀ op, Asks v.request op → op.Spares key content) :
    (visitAll Memory.backend.faulty later p).Holds key content := by
  induction later generalizing p with
  | nil => exact holds
  | cons v later ih =>
      obtain ⟨still, spared⟩ := spares v List.mem_cons_self
      refine ih ?_ fun v member => spares v (List.mem_cons_of_mem _ member)
      rw [Visit.leaves, v.meets_of_still still]
      exact holds_handle holds spared v.now

/-- A read tells what is held, whether it is cached or not. -/
theorem tells_of_holds (holds : p.Holds key content) (named : key ≠ "")
    (addresses : Addresses r "GET" key) (now : String) :
    Tells key (handle Memory.backend.faulty now r p).value.1 content := by
  have asks : Asks r (.read key) :=
    .read addresses.path (.inl addresses.method) addresses.names
  obtain ⟨outcome, response, p', handled, -, ending, code, found⟩ :=
    handle_working holds.working asks now
  have coherent : ∀ value, p.shared.cache.peek key = some value →
      p.store.store[key]? = some value := fun value held =>
    holds.stored.trans (holds.cached value held)
  have read : outcome = .ofRead content := by
    rcases ending.outcome (p := fun key => p.store.store[key]?) rfl coherent with
      same | ⟨r, fault, struck, -⟩
    · rw [Result.answered.inj same, Plain.outcome, Operation.key, if_neg named, holds.stored]
    · cases (holds.working.quiet r).symm.trans struck
  rw [handled]
  cases content with
  | none =>
      rw [read] at code
      exact .absent code
  | some value =>
      rw [read] at code
      obtain ⟨own, other, same, same', body⟩ := found addresses.method code
      cases same
      cases read.symm.trans same'
      exact tells_found code body

end Handling

/-! ## Before and after a change -/

section Changing

variable {σ γ : Type}

/-- A pool that has lost its workers answers no operation. -/
theorem code_of_lost {p : Pool σ γ} {op : Operation} (asks : Asks r op) (resting : p.Resting)
    (lost : p.isAlive = false) (b : Backend σ γ) (now : String) :
    (handle b now r p).value.1.code = 503 := by
  rw [handle_serves asks, Pool.serve_rejected resting (.inr lost) b op]
  exact code_finish r _

theorem intact_handle {p : Pool σ γ} (rests : p.Resting ∧ p.isOpen = true)
    (intact : p.shared.cache.Intact) (b : Backend σ γ) (now : String) (r : Http.Request) :
    (handle b now r p).value.2.shared.cache.Intact := by
  by_cases elsewhere : r.resource.path = "/api/kv" ∧ r.method ∈ ["POST", "GET", "HEAD", "DELETE"]
  · obtain ⟨op, asks⟩ := exists_asks elsewhere.1 elsewhere.2
    cases alive : p.isAlive with
    | true =>
        have served := served_of_asks asks rests.1 rests.2 alive b now
        generalize handle b now r p = exchange at served
        cases served with
        | @intro w connection _ _ _ _ _ _ _ dispatched =>
            have ending := Dispatch.ending intact b.answering op (connection, p.store)
            rw [dispatched] at ending
            exact ending.intact intact
    | false =>
        rw [left_of_asks asks, Pool.serve_rejected rests.1 (.inr alive) b op]
        exact intact
  · obtain ⟨response, handled⟩ := handle_elsewhere elsewhere b now p
    rw [handled]
    exact intact

theorem intact_visitAll {p : Pool σ γ} (rests : p.Resting ∧ p.isOpen = true)
    (intact : p.shared.cache.Intact) (b : Backend σ γ) (visits : List (Visit σ)) :
    (visitAll b visits p).shared.cache.Intact := by
  induction visits generalizing p with
  | nil => exact intact
  | cons v visits ih =>
      have met := v.rests_meets rests
      exact ih (rests_handle met b v.now v.request) (intact_handle met intact b v.now v.request)

/-- A request that sets a key asks for an operation that leaves the content under it. -/
theorem Sets.asks (sets : Sets r key content) : ∃ op, Asks r op ∧ op.key = key ∧
    op.request ≠ none ∧ (∀ own, op ≠ .read own) ∧ ∀ p : Plain, p.apply op key = content := by
  cases sets with
  | write writes => exact ⟨_, writes.asks, rfl, nofun, nofun, fun _ => if_pos rfl⟩
  | delete addresses =>
      have asks : Asks r (.delete key) :=
        .delete addresses.path addresses.method addresses.names
      exact ⟨_, asks, rfl, nofun, nofun, fun _ => if_pos rfl⟩

/-- A change that is answered 200 has taken effect in the store and in the cache, whatever was there
before. -/
theorem holds_of_sets {p : Pool (Faulty Table) Unit} (rests : p.Resting ∧ p.isOpen = true)
    (intact : p.shared.cache.Intact) (quiet : ∀ r, p.store.fault? r = none) (named : key ≠ "")
    (sets : Sets r key content) (now : String) :
    let exchange := (handle Memory.backend.faulty now r p).value
    (p.isAlive = true → exchange.1.code = 200) ∧
      (exchange.1.code = 200 → exchange.2.Holds key content) := by
  intro exchange
  obtain ⟨op, asks, rfl, asked, change, applied⟩ := sets.asks
  cases alive : p.isAlive with
  | false =>
      refine ⟨nofun, fun success => ?_⟩
      have code : exchange.1.code = 503 := code_of_lost asks rests.1 alive Memory.backend.faulty now
      cases success.symm.trans code
  | true =>
      obtain ⟨outcome, response, p', handled, working, ending, code, -⟩ :=
        handle_working ⟨rests, alive, intact, quiet⟩ asks now
      obtain ⟨_, ⟨⟩, ok⟩ := ending.answered quiet
      have ok : outcome.status = .ok := ok named asked change
      have done : (Result.answered outcome).isOk = true := decide_eq_true ok
      have agree := ending.agree intact change done
      have stored : p'.store.store[op.key]? = content := by
        rw [ending.settles (p := fun key => p.store.store[key]?) rfl, Plain.settle, done]
        exact applied _
      have left : exchange = (response, p') := handled
      rw [left]
      refine ⟨fun _ => ?_, fun _ => ⟨working, stored, fun value held => ?_⟩⟩
      · exact code.trans (congrArg Status.code ok)
      · exact stored.symm.trans (agree.symm.trans held)

/-- Whatever has come before, operations side by side or requests one after the other, and whatever
has become of the store until then: a request that writes a pair or deletes a key is answered 200,
if a worker is left and no fault strikes it. From then on, as long as the store does not fail and is
not changed directly, and up to a request that changes the key again, every read of the key is
answered with the pair, or with 404. -/
theorem round_trip {capacity size depth : Nat} (positive : 0 < capacity) {s s' : Faulty Table}
    {start p : Pool (Faulty Table) Unit} {history : List (Pool.Moment (Faulty Table) Unit)}
    (started : (Pool.start Memory.backend.faulty size depth (.fresh capacity) s).value =
      (.ok start, s')) (run : Pool.Run Memory.backend.faulty start history p)
    (rests : p.Resting ∧ p.isOpen = true) (before : List (Visit (Faulty Table)))
    (change : Visit (Faulty Table)) {key : Key} (named : key ≠ "") {content : Option Value}
    (sets : Sets change.request key content) :
    let b := Memory.backend.faulty
    let met := change.meets (visitAll b before p)
    let exchange := (handle b change.now change.request met).value
    (∀ r, met.store.fault? r = none) →
      (met.isAlive = true → exchange.1.code = 200) ∧
        (exchange.1.code = 200 → ∀ later : List (Visit (Faulty Table)),
          (∀ v ∈ later, v.meanwhile = id ∧ ∀ op, Asks v.request op → op.Spares key content) →
          ∀ now get, Addresses get "GET" key →
            Tells key (handle b now get (visitAll b later exchange.2)).value.1 content) := by
  intro b met exchange quiet
  obtain ⟨sound, -⟩ := run.books_of_started (.empty positive) started
  have intact : met.shared.cache.Intact := intact_visitAll rests sound.intact b before
  have rests : met.Resting ∧ met.isOpen = true :=
    change.rests_meets (rests_visitAll rests b before)
  obtain ⟨answered, changed⟩ := holds_of_sets rests intact quiet named sets change.now
  refine ⟨answered, fun success later spares now get addresses => ?_⟩
  exact tells_of_holds (holds_visitAll (changed success) spares) named addresses now

/-- The pair is displaced by another one before it is read. Its key and value hold what is special
in a query and in a text, and the read escapes some of it and some of the name `key`. -/
theorem round_trip_displaced :
    let key := "a&b=c+d%é"
    let value := "\"\n"
    let b := Memory.backend.faulty
    let put (key value : String) : Http.Request := {
      method := "POST", target := "/api/kv", fields := [("Content-Type", "application/json")]
      body := Utf8.encode (Body.found key value).toList }
    let get : Http.Request :=
      { method := "GET", target := "/api/kv?x=1&&%6bey=a%26b=c%2bd%%C3%a9&key=b" }
    let start : Pool (Faulty Table) Unit := {
      depth := 1, workers := [.idle ()], shared := .fresh 1
      store := { store := {}, attempts := 1 } }
    let exchange := (handle b "0" (put key value) start).value
    let displacing : Visit (Faulty Table) := { now := "1", request := put "b" "2" }
    let left := visitAll b [displacing] exchange.2
    left.shared.cache.peek key = none ∧ Tells key (handle b "2" get left).value.1 (some value) := by
  intro key value b put get start exchange displacing left
  have started : (Pool.start b 1 1 (.fresh 1) { store := {} }).value = (.ok start, start.store) :=
    rfl
  have body : ∀ key value, (put key value).body = Utf8.encode (Body.found key value).toList := by
    intro key value
    dsimp only [put]
  have writes : Writes (put key value) key value :=
    writes_of_answer (by decide +kernel) rfl (by decide +kernel) (by decide +kernel) (body _ _)
  have displaces : Writes (put "b" "2") "b" "2" :=
    writes_of_answer (by decide +kernel) rfl (by decide +kernel) (by decide +kernel) (body _ _)
  have addresses : Addresses get "GET" key :=
    ⟨by decide +kernel, rfl, Form.first?_eq_some_iff.mp (by decide +kernel)⟩
  obtain ⟨answered, told⟩ := round_trip (by decide) started .start
    (Pool.rests_start started) [] { now := "0", request := put key value } (by decide)
    (.write writes) fun _ => rfl
  have served : left = ((start.serve b (.write key (some value))).value.2.serve b
      (.write "b" (some "2"))).value.2 := by
    have first : exchange.2 = (start.serve b (.write key (some value))).value.2 :=
      left_of_asks writes.asks b "0" start
    have last : left = (handle b "1" (put "b" "2") (displacing.meets exchange.2)).value.2 := rfl
    rw [last, displacing.meets_of_still rfl, left_of_asks displaces.asks, first]
  have displaced : left.shared.cache.peek key = none := by
    rw [served]
    decide +kernel
  refine ⟨displaced, told (answered (by decide)) [displacing] ?_ "2" get addresses⟩
  intro v member
  obtain rfl := List.mem_singleton.mp member
  refine ⟨rfl, fun op asks => ?_⟩
  obtain rfl := displaces.asks.unique asks
  exact ⟨fun _ same => absurd (Operation.write.inj same).1 (by decide), nofun⟩

end Changing

end Api

end CacheAside
