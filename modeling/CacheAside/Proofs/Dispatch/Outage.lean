import CacheAside.Proofs.Dispatch.Inclusion
import CacheAside.Proofs.Dispatch.Ledger

/-!
# Through an outage

While every request to the store fails, reads of cached keys are all that succeeds. They move their
keys to the front, and nothing else changes: no pair comes, goes or takes another value, however
long the outage lasts, so what is answered throughout is known from its beginning
(`Operation.offline`). `InMemory.outage` says so of every run.

One operation is `Dispatch.Ending.offline`, over any store that fails. `InMemory.Weathered` is the
invariant of a run; it compares the cache and the store with those at the beginning.
-/

namespace CacheAside

/-- The outcome of an operation that the store cannot serve, by what is cached under its key. -/
def Operation.offline (op : Operation) (cached : Option Value) : Outcome :=
  match op, cached with
  | .read _, some value => .found value
  | .write _ none, _ => ⟨.validationError, none⟩
  | op, _ => if op.key = "" then ⟨.validationError, none⟩ else ⟨.backendError, none⟩

namespace Operation

variable {op : Operation} {key : Key} {cached : Option Value}

theorem offline_of_invalid (invalid : op.key = "" ∨ op.request = none)
    (uncached : op.key = "" → cached = none) : op.offline cached = ⟨.validationError, none⟩ := by
  rcases op with key | ⟨key, _ | value⟩ | key
  · have unnamed : key = "" := invalid.resolve_right nofun
    rw [uncached unnamed]
    exact if_pos unnamed
  · rfl
  · exact if_pos (invalid.resolve_right nofun)
  · exact if_pos (invalid.resolve_right nofun)

theorem offline_of_named {r : Request} (named : op.key ≠ "") (asks : op.request = some r)
    (uncached : ∀ key, op = .read key → cached = none) :
    op.offline cached = ⟨.backendError, none⟩ := by
  rcases op with key | ⟨key, _ | value⟩ | key
  · rw [uncached key rfl]
    exact if_neg named
  · cases asks
  · exact if_neg named
  · exact if_neg named

/-- Only a read that hits is answered Ok. -/
theorem read_of_offline (ok : (Result.answered (op.offline cached)).isOk = true) :
    ∃ key value, op = .read key ∧ cached = some value := by
  have refused : ∀ key : Key, (Result.answered (if key = "" then ⟨.validationError, none⟩
      else ⟨.backendError, none⟩)).isOk = false := by
    intro key
    split <;> rfl
  rcases op with key | ⟨key, _ | value⟩ | key
  · cases cached with
    | some value => exact ⟨key, value, rfl, rfl⟩
    | none => cases (refused key).symm.trans ok
  · cases ok
  · cases (refused key).symm.trans ok
  · cases (refused key).symm.trans ok

end Operation

/-! ## Moving to the front -/

/-- A read that hits moves its key to the front of the others. -/
theorem Cache.Intact.keys_get {c : Cache} {key : Key} {value : Value} (intact : c.Intact)
    (held : c.peek key = some value) : (c.get key).2.keys = key :: c.keys.erase key := by
  rw [intact.peek_eq] at held
  rw [Cache.keys, intact.toList_get, Recency.get_known held, intact.keys_nodup.erase_eq_filter,
    Cache.keys, List.filter_map, List.map_cons]
  congr 2
  exact List.filter_congr fun pair _ => Bool.eq_iff_iff.mpr (by simp)

namespace Dispatch

variable {τ : Type} {store : Answering τ} {op : Operation} {s s' : Shared} {t t' : τ}
  {result : Result}

/-! ## One operation -/

/-- Every request to the store fails and leaves it as it is. -/
def Down (store : Answering τ) (t : τ) : Prop :=
  ∀ r, ∃ cause, (store r t).value = (.failed cause, t)

theorem Down.unanswered (down : Down store t) {r : Request} {answer : Option Value}
    (replied : (store r t).value = (.answered answer, t')) : False := by
  obtain ⟨cause, failed⟩ := down r
  cases failed.symm.trans replied

/-- An operation over a store that is down is a hit, or it leaves the cache as it is. -/
theorem Ending.offline (ending : Ending store s t op (result, s', t')) (down : Down store t)
    (unnamed : s.cache.peek "" = none) :
    result = .answered (op.offline (s.cache.peek op.key)) ∧ t' = t ∧
      s'.cache = if result.isOk then (s.cache.get op.key).2 else s.cache := by
  cases ending with
  | refused invalid =>
      rw [Operation.offline_of_invalid invalid fun none => none ▸ unnamed]
      exact ⟨rfl, rfl, rfl⟩
  | @hit key value _ cached =>
      rw [Operation.key, cached]
      exact ⟨rfl, rfl, rfl⟩
  | @failed op r reply result t' named uncached asked replied trouble =>
      obtain ⟨cause, failed⟩ := down r
      cases failed.symm.trans replied
      cases trouble
      have missing : ∀ key, op = .read key → s.cache.peek op.key = none := by
        rintro key rfl
        exact uncached key rfl
      rw [Operation.offline_of_named named asked missing]
      exact ⟨rfl, rfl, s.cache_asking op⟩
  | filled _ _ replied | absent _ _ replied | written _ replied | deleted _ replied =>
      exact (down.unanswered replied).elim

/-- A hit reports nothing. -/
theorem events_read_of_cached {key : Key} (intact : s.cache.Intact)
    (cached : s.cache.peek key ≠ none) : (read store key s t).events = [] := by
  obtain ⟨value, held⟩ := Option.ne_none_iff_exists'.mp cached
  have here : s.cache.get key = (some value, (s.cache.get key).2) :=
    Prod.ext ((intact.get_holds key).2.1.trans held) rfl
  rw [read, Shared.find, here]
  rfl

/-- Nothing is ever cached without a key. -/
theorem Ending.unnamed (ending : Ending store s t op (result, s', t')) (intact : s.cache.Intact)
    (unnamed : s.cache.peek "" = none) : s'.cache.peek "" = none := by
  have put : ∀ {key value}, key ≠ "" → (s.cache.put key value).2.peek "" = none := by
    intro key value named
    rcases intact.put_displaces named.symm value with same | gone
    · exact same.trans unnamed
    · exact gone
  cases ending with
  | refused _ | absent _ _ _ => exact unnamed
  | @hit key _ _ _ => exact ((intact.get_holds key).2.2 "").trans unnamed
  | filled named _ _ | written named _ => exact put named
  | @deleted key _ _ named _ =>
      exact ((intact.erase_holds key).2 "").trans ((if_neg named.symm).trans unnamed)
  | failed _ _ _ _ _ => rwa [Shared.cache_asking]

end Dispatch

namespace InMemory

variable {n : Nat} {d e : InMemory n} {turn : Turn n}

/-- What is reported while turns are taken. -/
def reported (d : InMemory n) : List (Turn n) → List Event
  | [] => []
  | turn :: turns =>
    ((d.struck turn.fault).dispatch Memory.backend.faulty turn.connection turn.op).events ++
      (d.take turn).2.reported turns

theorem unnamed_play {d : InMemory n} (intact : d.shared.cache.Intact)
    (unnamed : d.cached "" = none) (moves : List (Move n)) : (d.play moves).cached "" = none := by
  induction moves generalizing d with
  | nil => exact unnamed
  | cons m moves ih =>
      refine ih (intact_move intact m) ?_
      cases m with
      | dispatch i op => exact (ending intact i op).unnamed intact unnamed
      | inject | heal | put | delete => exact unnamed

/-! ## One turn -/

theorem down_struck (d : InMemory n) (cause : StoreError) :
    Dispatch.Down Memory.backend.faulty.answering ((), (d.struck (some (.error cause))).store) :=
  fun r => ⟨cause, Memory.faulty_struck (Faulty.fault?_struck d.store _ r)⟩

/-- `e` is what `d` has come to in an outage in which the keys `reads` have been read. -/
structure Weathered (d e : InMemory n) (reads : List Key) : Prop where
  intact : e.shared.cache.Intact
  cached : ∀ key, e.cached key = d.cached key
  store : e.store.store = d.store.store
  order : e.shared.cache.keys =
    reads.foldl (fun order key => key :: order.erase key) d.shared.cache.keys

theorem Weathered.refl (intact : d.shared.cache.Intact) : d.Weathered d [] :=
  ⟨intact, fun _ => rfl, rfl, rfl⟩

variable {reads : List Key}

/-- A read that hits moves its key to the front. -/
theorem Weathered.hit (weathered : d.Weathered e reads) {value : Value} {key : Key}
    (held : e.cached key = some value) {after : InMemory n}
    (moved : after.shared.cache = (e.shared.cache.get key).2)
    (store : after.store.store = e.store.store) : d.Weathered after (reads ++ [key]) := by
  obtain ⟨intact, -, same⟩ := weathered.intact.get_holds key
  rw [← moved] at intact same
  refine ⟨intact, fun other => (same other).trans (weathered.cached other),
    store.trans weathered.store, ?_⟩
  rw [moved, weathered.intact.keys_get held, weathered.order, List.foldl_append]
  rfl

theorem Weathered.take (weathered : d.Weathered e reads) (unnamed : d.cached "" = none)
    (down : ∃ cause, turn.fault = some (.error cause)) :
    (e.take turn).1 = .answered (turn.op.offline (d.cached turn.op.key)) ∧
      d.Weathered (e.take turn).2
        (reads ++ if (e.take turn).1.isOk then [turn.op.key] else []) := by
  obtain ⟨cause, struck⟩ := down
  have intact : (e.struck turn.fault).shared.cache.Intact := weathered.intact
  have failing : Dispatch.Down Memory.backend.faulty.answering
      ((), (e.struck turn.fault).store) := struck ▸ down_struck e cause
  have unnamed : e.cached "" = none := (weathered.cached "").trans unnamed
  obtain ⟨outcome, kept, cache⟩ := (ending intact turn.connection turn.op).offline failing unnamed
  have outcome : (e.take turn).1 = .answered (turn.op.offline (e.cached turn.op.key)) := outcome
  have store : (e.take turn).2.store.store = e.store.store := by
    refine (congrArg (fun t : Unit × Faulty Table => t.2.store) kept).trans ?_
    exact Faulty.store_struck e.store turn.fault
  refine ⟨outcome.trans (by rw [weathered.cached]), ?_⟩
  by_cases ok : (e.take turn).1.isOk
  · have hit : (Result.answered (turn.op.offline (e.cached turn.op.key))).isOk = true :=
      outcome ▸ ok
    obtain ⟨-, value, -, held⟩ := Operation.read_of_offline hit
    rw [if_pos ok]
    exact weathered.hit held (cache.trans (if_pos ok)) store
  · have same : (e.take turn).2.shared.cache = e.shared.cache := cache.trans (if_neg ok)
    rw [if_neg ok, List.append_nil]
    refine ⟨same ▸ weathered.intact, fun key => ?_, store.trans weathered.store,
      same ▸ weathered.order⟩
    exact (congrArg (·.peek key) same).trans (weathered.cached key)

/-- What is reported in an outage is no displaced pair. -/
theorem Weathered.quiet (weathered : d.Weathered e reads) (unnamed : d.cached "" = none)
    (down : ∃ cause, turn.fault = some (.error cause)) (key : Key) :
    .evicted key ∉ ((e.struck turn.fault).dispatch Memory.backend.faulty turn.connection
      turn.op).events := by
  intro evicted
  -- All that is reported comes from the dispatch.
  have same : ((e.struck turn.fault).dispatch Memory.backend.faulty turn.connection
      turn.op).events = (dispatch Memory.backend.faulty.answering turn.op e.shared
        ((e.struck turn.fault).connections[turn.connection], (e.struck turn.fault).store)).events :=
    List.append_nil _
  rw [same] at evicted
  have silent : ∀ r t, .evicted key ∉ (Memory.backend.faulty.answering r t).events := by
    intro r t
    rw [events_faulty]
    exact List.not_mem_nil
  have ok : (e.take turn).1.isOk = true := Dispatch.isOk_of_evicted silent evicted
  rw [(weathered.take unnamed down).1] at ok
  obtain ⟨own, value, read, held⟩ := Operation.read_of_offline ok
  rw [read] at held evicted
  have cached : e.cached own = some value := (weathered.cached own).trans held
  have named : own ≠ "" := by
    rintro rfl
    cases unnamed.symm.trans held
  have found : (e.shared.count .request).cache.peek own ≠ none := by
    have kept : (e.shared.count .request).cache.peek own = some value := cached
    rw [kept]
    exact nofun
  have intact : (e.shared.count .request).cache.Intact := weathered.intact
  rw [Dispatch.dispatch_read named, Dispatch.events_read_of_cached intact found] at evicted
  cases evicted

/-! ## All turns -/

variable {turns : List (Turn n)}

theorem Weathered.takeAll (weathered : d.Weathered e reads) (unnamed : d.cached "" = none)
    (down : ∀ turn ∈ turns, ∃ cause, turn.fault = some (.error cause)) :
    (e.takeAll turns).1 =
        turns.map (fun turn => (turn.op, .answered (turn.op.offline (d.cached turn.op.key)))) ∧
      d.Weathered (e.takeAll turns).2
        (reads ++ ((e.takeAll turns).1.filter (·.2.isOk)).map (·.1.key)) := by
  induction turns generalizing e reads with
  | nil => exact ⟨rfl, (List.append_nil reads).symm ▸ weathered⟩
  | cons turn turns ih =>
      obtain ⟨outcome, after⟩ := weathered.take unnamed (down turn List.mem_cons_self)
      obtain ⟨outcomes, later⟩ := ih after fun other member =>
        down other (List.mem_cons_of_mem _ member)
      rw [takeAll_cons]
      refine ⟨by rw [outcomes, outcome, List.map_cons], ?_⟩
      rw [List.append_assoc] at later
      by_cases ok : (e.take turn).1.isOk
      · dsimp only
        rw [if_pos ok] at later
        rw [List.filter_cons, if_pos ok]
        exact later
      · dsimp only
        rw [if_neg ok] at later
        rw [List.filter_cons, if_neg ok]
        exact later

theorem Weathered.quiet_all (weathered : d.Weathered e reads) (unnamed : d.cached "" = none)
    (down : ∀ turn ∈ turns, ∃ cause, turn.fault = some (.error cause)) (key : Key) :
    .evicted key ∉ e.reported turns := by
  induction turns generalizing e reads with
  | nil => exact List.not_mem_nil
  | cons turn turns ih =>
      have first := down turn List.mem_cons_self
      rw [reported, List.mem_append, not_or]
      exact ⟨weathered.quiet unnamed first key, ih (weathered.take unnamed first).2
        fun other member => down other (List.mem_cons_of_mem _ member)⟩

/-- What is counted depends on what is cached, and that stays the same. -/
theorem Weathered.counters (weathered : d.Weathered e reads) (unnamed : d.cached "" = none)
    (down : ∀ turn ∈ turns, ∃ cause, turn.fault = some (.error cause)) :
    (e.takeAll turns).2.shared.counters = e.shared.counters.recordAll
      (turns.flatMap fun turn => turn.op.counts (d.cached turn.op.key)) := by
  induction turns generalizing e reads with
  | nil => rfl
  | cons turn turns ih =>
      have after := (weathered.take unnamed (down turn List.mem_cons_self)).2
      have later := ih after fun other member => down other (List.mem_cons_of_mem _ member)
      have first := counters_take weathered.intact turn
      rw [weathered.cached] at first
      rw [takeAll_cons, List.flatMap_cons, Counters.recordAll_append, ← first]
      exact later

/-! ## Runs -/

/-- From any moment of any run on, every request that is made fails with an error. As the turns
taken then are arbitrary, their end is any moment of the outage: the cached pairs and the store are
those at its beginning, and no pair was displaced. Reads of what was cached then are answered Ok
with the value and counted as hits; every other operation that asks the store for something comes to
an error of the store, and the rest are refused. The keys answered are the most recently used ones
since, in their order. -/
theorem outage {capacity : Nat} (positive : 0 < capacity) (connections : Vector Unit n)
    (store : Faulty Table) (moves : List (Move n)) {turns : List (Turn n)}
    (down : ∀ turn ∈ turns, ∃ cause, turn.fault = some (.error cause)) :
    let d := (fresh capacity connections store).play moves
    let run := d.takeAll turns
    let before := d.shared.counters
    let read := (run.1.filter (·.2.isOk)).map (·.1.key)
    (∀ key, run.2.cached key = d.cached key) ∧ run.2.store.store = d.store.store ∧
      (∀ key, .evicted key ∉ d.reported turns) ∧
      run.1 =
        turns.map (fun turn => (turn.op, .answered (turn.op.offline (d.cached turn.op.key)))) ∧
      run.2.shared.counters = {
        requests := before.requests + .ofNat turns.length
        hits := before.hits + .ofNat (turns.countP fun turn =>
          turn.op.isHit (d.cached turn.op.key))
        misses := before.misses + .ofNat (turns.countP fun turn =>
          turn.op.isMiss (d.cached turn.op.key)) } ∧
      run.2.shared.cache.keys =
        read.foldl (fun order key => key :: order.erase key) d.shared.cache.keys := by
  intro d run before read
  have sound := intact_fresh positive connections store
  have intact : d.shared.cache.Intact := intact_play sound moves
  have unnamed : d.cached "" = none :=
    unnamed_play sound (cached_fresh capacity connections store "") moves
  have start := Weathered.refl intact
  obtain ⟨outcomes, after⟩ := start.takeAll unnamed down
  have requests : (turns.flatMap fun turn => turn.op.counts (d.cached turn.op.key)).count .request =
      turns.countP fun _ => true :=
    countP_flatMap (fun turn => (turn.op.count_counts _).1) turns
  have hits : (turns.flatMap fun turn => turn.op.counts (d.cached turn.op.key)).count .hit =
      turns.countP fun turn => turn.op.isHit (d.cached turn.op.key) :=
    countP_flatMap (fun turn => (turn.op.count_counts _).2.1) turns
  have misses : (turns.flatMap fun turn => turn.op.counts (d.cached turn.op.key)).count .miss =
      turns.countP fun turn => turn.op.isMiss (d.cached turn.op.key) :=
    countP_flatMap (fun turn => (turn.op.count_counts _).2.2) turns
  rw [List.countP_true] at requests
  refine ⟨after.cached, after.store, start.quiet_all unnamed down, outcomes, ?_, after.order⟩
  rw [start.counters unnamed down, Counters.recordAll_eq, requests, hits, misses]

/-- Two cached pairs outlast an outage in which a third key would come, one of them would be
deleted, and a stored key that is not cached is read. -/
theorem outage_mixed :
    let moves : List (Move 1) := [.dispatch 0 (.write "a" (some "1")),
      .dispatch 0 (.write "b" (some "2")), .inject ⟨.put, some "b", .crash "full"⟩]
    let d := (fresh 2 #v[()] { store := .ofList [("z", "0")] }).play moves
    let ops : List Operation := [.read "a", .write "c" (some "3"), .delete "b", .read "z",
      .write "" (some "4"), .read "b", .write "a" none, .read "a"]
    let turns : List (Turn 1) := ops.map (⟨0, ·, some (.error (.command "down"))⟩)
    0 < 2 ∧ (∀ turn ∈ turns, ∃ cause, turn.fault = some (.error cause)) ∧
      (d.takeAll turns).1 = ops.zip ([.found "1", ⟨.backendError, none⟩, ⟨.backendError, none⟩,
        ⟨.backendError, none⟩, ⟨.validationError, none⟩, .found "2", ⟨.validationError, none⟩,
        .found "1"].map .answered) ∧
      d.shared.counters = ⟨2, 0, 0⟩ ∧ (d.takeAll turns).2.shared.counters = ⟨10, 3, 1⟩ ∧
      d.shared.cache.keys = ["b", "a"] ∧ (d.takeAll turns).2.shared.cache.keys = ["a", "b"] ∧
      (d.takeAll turns).2.cached "b" = some "2" := by
  intro moves d ops turns
  have down : ∀ turn ∈ turns, ∃ cause, turn.fault = some (.error cause) :=
    List.forall_mem_map.mpr fun _ _ => ⟨_, rfl⟩
  have known :
      turns.map (fun turn => (turn.op, Result.answered (turn.op.offline (d.cached turn.op.key)))) =
        ops.zip ([.found "1", ⟨.backendError, none⟩, ⟨.backendError, none⟩,
          ⟨.backendError, none⟩, ⟨.validationError, none⟩, .found "2", ⟨.validationError, none⟩,
          .found "1"].map .answered) := by
    decide +kernel
  have counted : d.shared.counters = ⟨2, 0, 0⟩ := by decide +kernel
  have hits : (turns.countP fun turn => turn.op.isHit (d.cached turn.op.key)) = 3 := by
    decide +kernel
  have misses : (turns.countP fun turn => turn.op.isMiss (d.cached turn.op.key)) = 1 := by
    decide +kernel
  have length : turns.length = 8 := by decide
  have listed : d.shared.cache.keys = ["b", "a"] := by decide +kernel
  have held : d.cached "b" = some "2" := by decide +kernel
  clear_value moves turns
  obtain ⟨cached, -, -, outcomes, counters, order⟩ :=
    outage (by decide : 0 < 2) #v[()] { store := .ofList [("z", "0")] } moves down
  refine ⟨by decide, down, outcomes.trans known, counted, ?_, listed, ?_, (cached "b").trans held⟩
  · refine counters.trans ?_
    rw [counted, hits, misses, length]
    rfl
  · refine order.trans ?_
    rw [listed, outcomes, known]
    rfl

end InMemory

end CacheAside
