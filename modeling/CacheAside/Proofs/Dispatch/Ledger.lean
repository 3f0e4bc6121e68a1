import CacheAside.Proofs.Dispatch.Deployment
import CacheAside.Proofs.Dispatch.Failure
import CacheAside.Proofs.Store.Record

/-!
# Exact accounts

A run over any backend is a list of steps: operations, sent over any of the connections, and changes
of the store that no operation makes, faults that come and go among them. What a run has counted is
told by the operations it has dispatched, each with what was cached under its key at that moment
(`Deployment.seen`), and so is what it has asked of the store. `Deployment.accounts_are_exact` says
both at every moment of a run.

What the store is asked is read off the record that `Backend.recorded` keeps. The record is all that
this adds: `Dispatch.Follows` relates two stores of which one is a view of the other, and dispatched
operations keep to it.
-/

namespace CacheAside

/-- If every element contributes one or none, by whether it is of one kind, the total is the number
of elements of that kind. -/
theorem countP_flatMap {α β : Type} {f : α → List β} {P : β → Bool} {Q : α → Bool}
    (each : ∀ a, (f a).countP P = if Q a then 1 else 0) (as : List α) :
    (as.flatMap f).countP P = as.countP Q := by
  induction as with
  | nil => rfl
  | cons a as ih =>
      rw [List.flatMap_cons, List.countP_append, List.countP_cons, ih, each, Nat.add_comm]

namespace Operation

/-- The request that an operation sends to the store, by what is cached under its key: none if it is
refused, or if it is a read that the cache can answer. -/
def sends (op : Operation) (cached : Option Value) : Option Request :=
  match op with
  | .read key => if key = "" ∨ cached.isSome then none else some (.get key)
  | .write key value => if key = "" then none else value.map (.put key)
  | .delete key => if key = "" then none else some (.delete key)

theorem sends_of_invalid {op : Operation} (invalid : op.key = "" ∨ op.request = none)
    (cached : Option Value) : op.sends cached = none := by
  rcases op with key | ⟨key, _ | value⟩ | key
  · exact if_pos (.inl (invalid.resolve_right nofun))
  · exact ite_self _
  · exact if_pos (invalid.resolve_right nofun)
  · exact if_pos (invalid.resolve_right nofun)

/-- Otherwise it is the request that the operation is about. -/
theorem sends_of_named {op : Operation} {cached : Option Value} (named : op.key ≠ "")
    (uncached : ∀ key, op = .read key → cached = none) : op.sends cached = op.request := by
  rcases op with key | ⟨key, _ | value⟩ | key
  · have named : key ≠ "" := named
    have missing : cached = none := uncached key rfl
    rw [missing]
    exact if_neg (by simp [named])
  · exact if_neg named
  · exact if_neg named
  · exact if_neg named

/-- Whether the operation is a read that the cache answers, if this is cached under its key. -/
def isHit (op : Operation) (cached : Option Value) : Bool := op.looksUp && cached.isSome

/-- Whether the operation is a read that has to ask the store. -/
def isMiss (op : Operation) (cached : Option Value) : Bool := op.looksUp && cached.isNone

/-- Whether the store is to take a pair. -/
def stores : Operation → Bool
  | .write key (some _) => key ≠ ""
  | _ => false

/-- Whether the store is to drop a key. -/
def drops : Operation → Bool
  | .delete key => key ≠ ""
  | _ => false

/-- An operation counts one request, and a hit or a miss only if it looks up its key. -/
theorem count_counts (op : Operation) (cached : Option Value) :
    (op.counts cached).count .request = 1 ∧
      (op.counts cached).count .hit = (if op.isHit cached then 1 else 0) ∧
      (op.counts cached).count .miss = (if op.isMiss cached then 1 else 0) := by
  rcases op with key | ⟨key, value⟩ | key
  · by_cases unnamed : key = ""
    · subst unnamed
      exact ⟨rfl, rfl, rfl⟩
    · have looked : (Operation.read key).looksUp = true := decide_eq_true unnamed
      rw [counts_read unnamed, isHit, isMiss, looked]
      cases cached <;> exact ⟨rfl, rfl, rfl⟩
  · exact ⟨rfl, rfl, rfl⟩
  · exact ⟨rfl, rfl, rfl⟩

/-- What is sent is a read exactly for a miss, and a change exactly for an operation that asks for
one. -/
theorem countP_sends (op : Operation) (cached : Option Value) :
    (op.sends cached).toList.countP (·.verb = .get) = (if op.isMiss cached then 1 else 0) ∧
      (op.sends cached).toList.countP (·.verb = .put) = (if op.stores then 1 else 0) ∧
      (op.sends cached).toList.countP (·.verb = .delete) = (if op.drops then 1 else 0) := by
  rcases op with key | ⟨key, _ | value⟩ | key <;> by_cases unnamed : key = "" <;> cases cached <;>
    simp [sends, isMiss, looksUp, stores, drops, unnamed, Request.verb]

end Operation

/-- The requests among what a backend was asked. -/
def Recorded.requests {σ γ : Type} (s : Recorded σ γ) : List Request :=
  s.contacts.filterMap fun contact => contact.call?.map (·.2.1)

/-! ## One operation -/

namespace Dispatch

variable {τ τ' : Type} {store : Answering τ} {store' : Answering τ'} {view : τ → τ'}
  {op : Operation} {s s' : Shared} {t t' : τ} {result : Result}

/-- The second store answers as the first one does, and is a view of it before and after. -/
def Follows (view : τ → τ') (store : Answering τ) (store' : Answering τ') : Prop :=
  ∀ r t, (store' r (view t)).value = ((store r t).value.1, view (store r t).value.2)

/-- What an operation has come to, as seen through a view of the store. -/
def seenThrough (view : τ → τ') (ended : Result × Shared × τ) : Result × Shared × τ' :=
  (ended.1, ended.2.1, view ended.2.2)

theorem Follows.read (follows : Follows view store store') (key : Key) (s : Shared) (t : τ) :
    (read store' key s (view t)).value = seenThrough view (read store key s t).value := by
  have same := follows (.get key) t
  unfold Dispatch.read
  rcases s.find key with ⟨_ | value, s⟩
  · rcases replied : (store (.get key) t).value with ⟨⟨_ | value⟩ | cause | text, t'⟩
    all_goals
      rw [replied] at same
      simp only [Logged.value_bind, same, replied]
      rfl
  · rfl

theorem Follows.change (follows : Follows view store store') (r : Request)
    (adopt : Shared → Logged Shared) (s : Shared) (t : τ) :
    (change store' r adopt s (view t)).value =
      seenThrough view (change store r adopt s t).value := by
  have same := follows r t
  unfold Dispatch.change
  rcases replied : (store r t).value with ⟨answer | cause | text, t'⟩
  all_goals
    rw [replied] at same
    simp only [Logged.value_bind, same, replied]
    rfl

/-- An operation does over the view what it does over the store itself. -/
theorem Follows.dispatch (follows : Follows view store store') (op : Operation) (s : Shared)
    (t : τ) :
    (dispatch store' op s (view t)).value = seenThrough view (dispatch store op s t).value := by
  rcases op.valid_cases with invalid | ⟨key, named, rfl | ⟨value, rfl⟩ | rfl⟩
  · rw [dispatch_of_invalid invalid, dispatch_of_invalid invalid]
    rfl
  · rw [dispatch_read named, dispatch_read named]
    exact follows.read key _ t
  · rw [dispatch_write named, dispatch_write named]
    exact follows.change _ _ _ t
  · rw [dispatch_delete named, dispatch_delete named]
    exact follows.change _ _ _ t

variable {σ γ : Type} {b : Backend σ γ}

/-- A recorded backend, without the record and the numbers of the connections. -/
def unrecorded (t : (Nat × γ) × Recorded σ γ) : γ × σ := (t.1.2, t.2.store)

/-- Without its record, a recorded backend answers as the backend does. -/
theorem follows_recorded (b : Backend σ γ) :
    Follows unrecorded b.recorded.answering b.answering := fun _ _ => rfl

theorem requests_called {r : Request} {reply : Reply} {t t' : (Nat × γ) × Recorded σ γ}
    (replied : (b.recorded.answering r t).value = (reply, t')) :
    t'.2.requests = t.2.requests ++ [r] := by
  cases replied
  exact List.filterMap_append

/-- An operation asks the store for what it sends, once, and for nothing else. -/
theorem Ending.requests {t t' : (Nat × γ) × Recorded σ γ}
    (ending : Ending b.recorded.answering s t op (result, s', t')) :
    t'.2.requests = t.2.requests ++ (op.sends (s.cache.peek op.key)).toList := by
  cases ending with
  | refused invalid =>
      rw [Operation.sends_of_invalid invalid]
      exact (List.append_nil _).symm
  | @hit key value named cached =>
      have silent : (Operation.read key).sends (some value) = none := if_pos (.inr rfl)
      rw [Operation.key, cached, silent]
      exact (List.append_nil _).symm
  | @filled key _ _ named uncached replied | @absent key _ named uncached replied =>
      have sent : (Operation.read key).sends (s.cache.peek key) = some (.get key) :=
        Operation.sends_of_named named fun _ _ => uncached
      rw [Operation.key, sent]
      exact requests_called replied
  | @written key value _ _ named replied =>
      have sent : ∀ cached, (Operation.write key (some value)).sends cached =
          some (.put key value) := by
        intro cached
        exact Operation.sends_of_named named fun _ same => by cases same
      rw [sent]
      exact requests_called replied
  | @deleted key _ _ named replied =>
      have sent : ∀ cached, (Operation.delete key).sends cached = some (.delete key) := by
        intro cached
        exact Operation.sends_of_named named fun _ same => by cases same
      rw [sent]
      exact requests_called replied
  | failed named uncached asked replied _ =>
      have missing : ∀ key, op = .read key → s.cache.peek op.key = none := by
        rintro key rfl
        exact uncached key rfl
      rw [Operation.sends_of_named named missing, asked]
      exact requests_called replied

end Dispatch

/-! ## Runs -/

namespace Deployment

variable {σ γ : Type} {n : Nat} {b : Backend σ γ} {d : Deployment σ γ n}

/-- One step of a run. -/
inductive Step (σ : Type) (n : Nat)
  | dispatch (connection : Fin n) (op : Operation)
  /-- The store is changed, or its faults are, and no operation does it. -/
  | meanwhile (change : σ → σ)

def Step.op? : Step σ n → Option Operation
  | .dispatch _ op => some op
  | .meanwhile _ => none

/-- The same step over a store that keeps a record, which only operations add to. -/
def Step.recorded : Step σ n → Step (Recorded σ γ) n
  | .dispatch i op => .dispatch i op
  | .meanwhile change => .meanwhile fun s => { s with store := change s.store }

def step (b : Backend σ γ) (d : Deployment σ γ n) : Step σ n → Deployment σ γ n
  | .dispatch i op => (d.dispatch b i op).value.2
  | .meanwhile change => { d with store := change d.store }

def run (b : Backend σ γ) (d : Deployment σ γ n) (steps : List (Step σ n)) : Deployment σ γ n :=
  steps.foldl (step b) d

/-- The operations of a run, each with what is cached under its key when it is dispatched. -/
def seen (b : Backend σ γ) : Deployment σ γ n → List (Step σ n) → List (Operation × Option Value)
  | _, [] => []
  | d, .dispatch i op :: steps =>
    (op, d.cached op.key) :: seen b (d.step b (.dispatch i op)) steps
  | d, .meanwhile change :: steps => seen b (d.step b (.meanwhile change)) steps

/-- The same deployment over a store that keeps a record, which is empty so far. -/
def recording (d : Deployment σ γ n) : Deployment (Recorded σ γ) (Nat × γ) n where
  shared := d.shared
  connections := d.connections.mapIdx fun i connection => (i, connection)
  store := { store := d.store }

/-- The one deployment is the other without its record. -/
structure Unrecorded (r : Deployment (Recorded σ γ) (Nat × γ) n) (d : Deployment σ γ n) : Prop where
  shared : r.shared = d.shared
  connections : r.connections.map Prod.snd = d.connections
  store : r.store.store = d.store

theorem unrecorded_recording (d : Deployment σ γ n) : d.recording.Unrecorded d := by
  refine ⟨rfl, ?_, rfl⟩
  ext i inside
  simp [recording]

/-- A step keeps the two deployments the same but for the record. -/
theorem Unrecorded.step {r : Deployment (Recorded σ γ) (Nat × γ) n} (same : r.Unrecorded d)
    (step : Step σ n) : (r.step b.recorded step.recorded).Unrecorded (d.step b step) := by
  cases step with
  | meanwhile change => exact ⟨same.shared, same.connections, congrArg change same.store⟩
  | dispatch i op =>
      have here :
          Dispatch.unrecorded (r.connections[i], r.store) = (d.connections[i], d.store) := by
        rw [← same.connections, ← same.store]
        simp [Dispatch.unrecorded]
      have ended : (CacheAside.dispatch b.answering op d.shared (d.connections[i], d.store)).value =
          Dispatch.seenThrough Dispatch.unrecorded (CacheAside.dispatch b.recorded.answering op
            r.shared (r.connections[i], r.store)).value := by
        rw [← here, ← same.shared]
        exact (Dispatch.follows_recorded b).dispatch op r.shared _
      refine ⟨(congrArg (·.2.1) ended).symm, ?_, (congrArg (·.2.2.2) ended).symm⟩
      have last := congrArg (·.2.2.1) ended
      refine (Vector.map_set (h := i.isLt)).trans ?_
      rw [same.connections]
      exact congrArg (d.connections.set i · i.isLt) last.symm

/-- A run keeps the two deployments the same but for the record. -/
theorem Unrecorded.run {r : Deployment (Recorded σ γ) (Nat × γ) n} (same : r.Unrecorded d)
    (steps : List (Step σ n)) :
    (r.run b.recorded (steps.map .recorded)).Unrecorded (d.run b steps) := by
  induction steps generalizing d r with
  | nil => exact same
  | cons step steps ih => exact ih (same.step step)

theorem seen_append (b : Backend σ γ) (d : Deployment σ γ n) (steps later : List (Step σ n)) :
    d.seen b (steps ++ later) = d.seen b steps ++ (d.run b steps).seen b later := by
  induction steps generalizing d with
  | nil => rfl
  | cons step steps ih =>
      cases step with
      | dispatch i op => exact congrArg (_ :: ·) (ih _)
      | meanwhile change => exact ih _

theorem map_fst_seen (b : Backend σ γ) (d : Deployment σ γ n) (steps : List (Step σ n)) :
    (d.seen b steps).map Prod.fst = steps.filterMap Step.op? := by
  induction steps generalizing d with
  | nil => rfl
  | cons step steps ih =>
      cases step with
      | dispatch i op => exact congrArg (op :: ·) (ih _)
      | meanwhile change => exact ih _

theorem intact_step (intact : d.shared.cache.Intact) (step : Step σ n) :
    (d.step b step).shared.cache.Intact := by
  cases step with
  | meanwhile change => exact intact
  | dispatch i op =>
      obtain ⟨_, ending⟩ := ending intact b i op
      exact ending.intact intact

theorem intact_run (intact : d.shared.cache.Intact) (steps : List (Step σ n)) :
    (d.run b steps).shared.cache.Intact := by
  induction steps generalizing d with
  | nil => exact intact
  | cons step steps ih => exact ih (intact_step intact step)

/-! ## What a run has counted -/

/-- The counters after a run are the events of its operations, by what each found cached. -/
theorem counters_run (intact : d.shared.cache.Intact) (steps : List (Step σ n)) :
    (d.run b steps).shared.counters = d.shared.counters.recordAll
      ((d.seen b steps).flatMap fun (op, cached) => op.counts cached) := by
  induction steps generalizing d with
  | nil => rfl
  | cons step steps ih =>
      refine (ih (intact_step intact step)).trans ?_
      cases step with
      | meanwhile change => rfl
      | dispatch i op =>
          obtain ⟨_, ending⟩ := ending intact b i op
          have counted : (d.step b (.dispatch i op)).shared.counters =
              d.shared.counters.recordAll (op.counts (d.cached op.key)) := ending.counters
          rw [counted, ← Counters.recordAll_append]
          rfl

/-! ## What a run has asked of the store -/

/-- An operation puts on record what it sends, by what is cached under its key. -/
theorem requests_step {r : Deployment (Recorded σ γ) (Nat × γ) n}
    (intact : r.shared.cache.Intact) (i : Fin n) (op : Operation) :
    (r.step b.recorded (.dispatch i op)).store.requests =
      r.store.requests ++ (op.sends (r.cached op.key)).toList := by
  obtain ⟨_, ending⟩ := ending intact b.recorded i op
  exact ending.requests

/-- The record of a run is what its operations send, by what each found cached. -/
theorem requests_run {r : Deployment (Recorded σ γ) (Nat × γ) n} (same : r.Unrecorded d)
    (intact : d.shared.cache.Intact) (steps : List (Step σ n)) :
    (r.run b.recorded (steps.map .recorded)).store.requests =
      r.store.requests ++
        (d.seen b steps).flatMap fun (op, cached) => (op.sends cached).toList := by
  induction steps generalizing d r with
  | nil => exact (List.append_nil _).symm
  | cons step steps ih =>
      refine (ih (same.step step) (intact_step intact step)).trans ?_
      cases step with
      | meanwhile change => rfl
      | dispatch i op =>
          have sent := requests_step (b := b) (same.shared ▸ intact) i op
          rw [cached, same.shared] at sent
          exact (congrArg (· ++ _) sent).trans (List.append_assoc ..)

/-! ## The accounts -/

/-- The counters are the numbers of operations, of hits and of misses among them. -/
structure Tallies (c : Counters) (seen : List (Operation × Option Value)) : Prop where
  requests : c.requests.toNat = seen.length
  hits : c.hits.toNat = seen.countP fun (op, cached) => op.isHit cached
  misses : c.misses.toNat = seen.countP fun (op, cached) => op.isMiss cached

/-- From zero on the counters are exact until the number of operations no longer fits. -/
theorem tallies_of_few {seen : List (Operation × Option Value)} (few : seen.length < UInt64.size) :
    Tallies (Counters.recordAll {} (seen.flatMap fun (op, cached) => op.counts cached)) seen := by
  have requests : (seen.flatMap fun (op, cached) => op.counts cached).count .request =
      seen.countP fun _ => true :=
    countP_flatMap (fun (op, cached) => (op.count_counts cached).1) seen
  have hits : (seen.flatMap fun (op, cached) => op.counts cached).count .hit =
      seen.countP fun (op, cached) => op.isHit cached :=
    countP_flatMap (fun (op, cached) => (op.count_counts cached).2.1) seen
  have misses : (seen.flatMap fun (op, cached) => op.counts cached).count .miss =
      seen.countP fun (op, cached) => op.isMiss cached :=
    countP_flatMap (fun (op, cached) => (op.count_counts cached).2.2) seen
  rw [List.countP_true] at requests
  have fits : ∀ P : Operation × Option Value → Bool, seen.countP P < UInt64.size := fun P =>
    Nat.lt_of_le_of_lt List.countP_le_length few
  rw [Counters.recordAll_eq, requests, hits, misses]
  refine ⟨?_, ?_, ?_⟩
  · exact (congrArg UInt64.toNat (UInt64.zero_add _)).trans (UInt64.toNat_ofNat_of_lt' few)
  · exact (congrArg UInt64.toNat (UInt64.zero_add _)).trans (UInt64.toNat_ofNat_of_lt' (fits _))
  · exact (congrArg UInt64.toNat (UInt64.zero_add _)).trans (UInt64.toNat_ofNat_of_lt' (fits _))

/-- A read of a key is a hit or a miss, and nothing else is one. -/
theorem countP_isHit_add (seen : List (Operation × Option Value)) :
    (seen.countP fun (op, cached) => op.isHit cached) +
        (seen.countP fun (op, cached) => op.isMiss cached) =
      (seen.map Prod.fst).countP Operation.looksUp := by
  induction seen with
  | nil => rfl
  | cons first seen ih =>
      rcases first with ⟨op, cached⟩
      simp only [List.countP_cons, List.map_cons]
      rw [← ih]
      cases looked : op.looksUp <;> cases cached <;>
        simp [Operation.isHit, Operation.isMiss, looked] <;> omega

/-- Counters that tell the operations never go down when more are seen. -/
theorem Tallies.monotone {c c' : Counters} {seen later : List (Operation × Option Value)}
    (first : Tallies c seen) (last : Tallies c' (seen ++ later)) :
    c.requests ≤ c'.requests ∧ c.hits ≤ c'.hits ∧ c.misses ≤ c'.misses := by
  simp only [UInt64.le_iff_toNat_le, first.requests, first.hits, first.misses, last.requests,
    last.hits, last.misses, List.length_append, List.countP_append]
  omega

/-- At every moment of a run, from an empty cache and counters at zero on, whatever the store does
and whatever is done to it: as long as the number of operations fits into a word, the counters are
the numbers of operations, of reads of a key that was cached when it was read, and of all other
reads of a key, and none of them has ever been greater. The store has been asked once for each such
other read, for each write of a pair and for each delete of a key, in their order, and for nothing
else: a hit and a refused operation ask for nothing. -/
theorem accounts_are_exact {capacity : Nat} (positive : 0 < capacity) (b : Backend σ γ)
    (connections : Vector γ n) (store : σ) (steps : List (Step σ n)) :
    let start : Deployment σ γ n := { shared := .fresh capacity, connections, store }
    let d := start.run b steps
    let r := start.recording.run b.recorded (steps.map .recorded)
    let ops := steps.filterMap Step.op?
    let seen := start.seen b steps
    let counters := d.shared.counters
    let asked := r.store.requests
    r.Unrecorded d ∧ seen.map Prod.fst = ops ∧
      (ops.length < UInt64.size →
        counters.requests.toNat = ops.length ∧
        counters.hits.toNat = (seen.countP fun (op, cached) => op.isHit cached) ∧
        counters.misses.toNat = (seen.countP fun (op, cached) => op.isMiss cached) ∧
        counters.misses.toNat = asked.countP (·.verb = .get) ∧
        counters.hits.toNat + counters.misses.toNat = ops.countP Operation.looksUp ∧
        counters.hits.toNat + counters.misses.toNat ≤ counters.requests.toNat ∧
        ∀ earlier, earlier <+: steps →
          let before := (start.run b earlier).shared.counters
          before.requests ≤ counters.requests ∧ before.hits ≤ counters.hits ∧
            before.misses ≤ counters.misses) ∧
      asked.countP (·.verb = .put) = ops.countP Operation.stores ∧
      asked.countP (·.verb = .delete) = ops.countP Operation.drops ∧
      ∀ i op, (r.step b.recorded (.dispatch i op)).store.requests =
        asked ++ (op.sends (d.cached op.key)).toList := by
  intro start d r ops seen counters asked
  have sound : start.shared.cache.Intact := .empty positive
  have unrecorded : r.Unrecorded d := (unrecorded_recording start).run steps
  have names : seen.map Prod.fst = ops := map_fst_seen b start steps
  have length : seen.length = ops.length := by rw [← names, List.length_map]
  have sent : asked = seen.flatMap fun (op, cached) => (op.sends cached).toList :=
    requests_run (unrecorded_recording start) sound steps
  have tallied : ∀ earlier, (start.seen b earlier).length < UInt64.size →
      Tallies (start.run b earlier).shared.counters (start.seen b earlier) := by
    intro earlier few
    rw [counters_run sound]
    exact tallies_of_few few
  refine ⟨unrecorded, names, ?_, ?_, ?_, ?_⟩
  · intro few
    have tallies : Tallies counters seen := tallied steps (length ▸ few)
    have asks :
        asked.countP (·.verb = .get) = seen.countP fun (op, cached) => op.isMiss cached := by
      rw [sent]
      exact countP_flatMap (fun (op, cached) => (op.countP_sends cached).1) seen
    have reads : counters.hits.toNat + counters.misses.toNat = ops.countP Operation.looksUp := by
      rw [tallies.hits, tallies.misses, countP_isHit_add, names]
    refine ⟨tallies.requests.trans length, tallies.hits, tallies.misses,
      tallies.misses.trans asks.symm, reads, ?_, ?_⟩
    · rw [reads, tallies.requests, length]
      exact List.countP_le_length
    · rintro earlier ⟨later, rfl⟩ before
      have split : seen = start.seen b earlier ++ (start.run b earlier).seen b later :=
        seen_append b start earlier later
      have fewer : (start.seen b earlier).length < UInt64.size := by
        rw [← length, split, List.length_append] at few
        omega
      have last : Tallies counters (start.seen b earlier ++ (start.run b earlier).seen b later) :=
        split ▸ tallies
      exact (tallied earlier fewer).monotone last
  · rw [sent, ← names, List.countP_map]
    exact countP_flatMap (fun (op, cached) => (op.countP_sends cached).2.1) seen
  · rw [sent, ← names, List.countP_map]
    exact countP_flatMap (fun (op, cached) => (op.countP_sends cached).2.2) seen
  · intro i op
    have cached : r.cached op.key = d.cached op.key := by
      rw [Deployment.cached, unrecorded.shared]
      rfl
    have intact : r.shared.cache.Intact := unrecorded.shared ▸ intact_run sound steps
    rw [← cached]
    exact requests_step intact i op

/-- A fill, a hit, a refused write, a write that displaces the cached pair, a change of the store
behind it that a later read notices, a delete, and a read under which the store breaks down. -/
theorem accounts_are_exact_mixed :
    let b := Memory.backend.faulty
    let start : Deployment (Faulty Table) Unit 2 := {
      shared := .fresh 1, connections := #v[(), ()], store := { store := .ofList [("a", "1")] } }
    let steps : List (Step (Faulty Table) 2) := [.dispatch 0 (.read "a"), .dispatch 1 (.read "a"),
      .dispatch 0 (.write "" (some "2")), .dispatch 0 (.write "b" (some "2")),
      .meanwhile fun s => { s with store := s.store.erase "a" }, .dispatch 1 (.read "a"),
      .dispatch 0 (.delete "b"), .meanwhile (·.inject ⟨.get, some "b", .crash "down"⟩),
      .dispatch 1 (.read "b")]
    let d := start.run b steps
    let r := start.recording.run b.recorded (steps.map .recorded)
    0 < 1 ∧ (steps.filterMap Step.op?).length < UInt64.size ∧
      d.shared.counters = ⟨7, 1, 3⟩ ∧ r.store.requests =
        [.get "a", .put "b" "2", .get "a", .delete "b", .get "b"] ∧
      d.shared.counters.misses.toNat = r.store.requests.countP (·.verb = .get) ∧
      (r.step b.recorded (.dispatch 0 (.read ""))).store.requests = r.store.requests := by
  intro b start steps d r
  have few : (steps.filterMap Step.op?).length < UInt64.size := by decide
  have counters : d.shared.counters = ⟨7, 1, 3⟩ := by decide +kernel
  have requests : r.store.requests =
      [.get "a", .put "b" "2", .get "a", .delete "b", .get "b"] := by decide +kernel
  have silent : ∀ cached, (Operation.read "").sends cached = none := fun _ => rfl
  clear_value steps
  obtain ⟨-, -, tallied, -, -, next⟩ := accounts_are_exact (by decide : 0 < 1) b #v[(), ()]
    { store := .ofList [("a", "1")] } steps
  obtain ⟨-, -, -, misses, -, -, -⟩ := tallied few
  have unasked := next 0 (.read "")
  rw [silent, Option.toList_none, List.append_nil] at unasked
  exact ⟨by decide, few, counters, requests, misses, unasked⟩

end Deployment

end CacheAside
