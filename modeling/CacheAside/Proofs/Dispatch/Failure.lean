import CacheAside.Proofs.Cache.Representation
import CacheAside.Proofs.Dispatch.Accounting
import CacheAside.Proofs.Dispatch.Transparency
import CacheAside.Proofs.Dispatch.Uninterrupted

/-!
# Failed operations leave no trace

An operation that is not answered Ok leaves the cache and the store as they were and displaces no
pair; only the counters tell of it. So it makes no difference to the other operations of a run
whether it was there at all: `InMemory.failures_leave_no_trace`.

The second statement compares a run with the run that is left when the failed operations are taken
out. The two differ in their counters, and in which requests fail next; `InMemory.Alike` says that
they do not differ in anything else, and neither of the two matters to an operation that brings its
own fault along.
-/

namespace CacheAside

/-- Whether the operation looks up a key that it may use. -/
def Operation.looksUp : Operation → Bool
  | .read key => key ≠ ""
  | .write _ _ | .delete _ => false

namespace Dispatch

variable {τ : Type} {store : Answering τ} {op : Operation} {s s' : Shared} {t : τ}
  {key : Key} {result : Result}

/-! ## One failed operation -/

theorem counters_asking_of_named (named : op.key ≠ "") (s : Shared) :
    (s.asking op).counters = {
      requests := s.counters.requests + 1
      hits := s.counters.hits
      misses := s.counters.misses + if op.looksUp then 1 else 0 } := by
  cases op with
  | read key =>
      have looked : (Operation.read key).looksUp = true := decide_eq_true named
      rw [looked]
      rfl
  | write | delete => exact congrArg _ (UInt64.add_zero _).symm

theorem counters_refused (invalid : op.key = "" ∨ op.request = none) (s : Shared) :
    (s.count .request).counters = {
      requests := s.counters.requests + 1
      hits := s.counters.hits
      misses := s.counters.misses + if op.looksUp then 1 else 0 } := by
  have unlooked : op.looksUp = false := by
    cases op with
    | read key => exact decide_eq_false (not_not_intro (invalid.resolve_right nofun))
    | write | delete => rfl
  rw [unlooked]
  exact congrArg _ (UInt64.add_zero _).symm

/-- A dispatched operation that fails has changed nothing that is shared but the counters. -/
theorem Ending.failure {t' : τ} (ending : Ending store s t op (result, s', t'))
    (failed : result.isOk = false) :
    s'.cache = s.cache ∧ s'.counters = {
      requests := s.counters.requests + 1
      hits := s.counters.hits
      misses := s.counters.misses + if op.looksUp then 1 else 0 } := by
  cases ending with
  | refused invalid => exact ⟨rfl, counters_refused invalid s⟩
  | @absent key _ named _ _ =>
      have named : (Operation.read key).key ≠ "" := named
      exact ⟨rfl, counters_asking_of_named named s⟩
  | failed named _ _ _ _ => exact ⟨s.cache_asking op, counters_asking_of_named named s⟩
  | hit | filled | written | deleted => cases failed

theorem dispatch_read (named : key ≠ "") (store : Answering τ) (s : Shared) (t : τ) :
    dispatch store (.read key) s t = read store key (s.count .request) t := if_neg named

theorem dispatch_write (named : key ≠ "") (store : Answering τ) (value : Value) (s : Shared)
    (t : τ) : dispatch store (.write key (some value)) s t =
      change store (.put key value) (·.keep key value) (s.count .request) t := if_neg named

theorem dispatch_delete (named : key ≠ "") (store : Answering τ) (s : Shared) (t : τ) :
    dispatch store (.delete key) s t =
      change store (.delete key) (fun s => pure (s.forget key)) (s.count .request) t :=
  if_neg named

/-- Sending a change to the store displaces a pair only if the store has taken it. -/
theorem isOk_of_evicted_change {r : Request} {adopt : Shared → Logged Shared}
    (quiet : .evicted key ∉ (store r t).events)
    (evicted : .evicted key ∈ (change store r adopt s t).events) :
    (change store r adopt s t).value.1.isOk = true := by
  unfold change at evicted ⊢
  rcases replied : store r t with ⟨⟨answer | cause | text, t'⟩, events⟩
  · rfl
  · rw [replied] at quiet evicted
    have reported : .evicted key ∈ events ++ [.requestFailed r.verb r.key cause] := evicted
    simp [quiet] at reported
  · rw [replied] at quiet evicted
    have reported : .evicted key ∈ events ++ [] := evicted
    simp [quiet] at reported

/-- A read that displaces a pair has served. -/
theorem isOk_of_evicted_read {own : Key} (quiet : .evicted key ∉ (store (.get own) t).events)
    (evicted : .evicted key ∈ (read store own s t).events) :
    (read store own s t).value.1.isOk = true := by
  unfold read at evicted ⊢
  rcases found : s.find own with ⟨_ | value, s'⟩
  · rw [found] at evicted
    rcases replied : store (.get own) t with ⟨⟨⟨_ | value⟩ | cause | text, t'⟩, events⟩
    · rw [replied] at quiet evicted
      have reported : .evicted key ∈ events ++ [] := evicted
      simp [quiet] at reported
    · rfl
    · rw [replied] at quiet evicted
      have reported : .evicted key ∈ events ++ [.requestFailed .get own cause] := evicted
      simp [quiet] at reported
    · rw [replied] at quiet evicted
      have reported : .evicted key ∈ events ++ [] := evicted
      simp [quiet] at reported
  · rfl

/-- A pair is displaced only to make room for one that the operation is answered Ok for. -/
theorem isOk_of_evicted (quiet : ∀ r t, .evicted key ∉ (store r t).events)
    (evicted : .evicted key ∈ (dispatch store op s t).events) :
    (dispatch store op s t).value.1.isOk = true := by
  rcases op.valid_cases with invalid | ⟨own, named, rfl | ⟨value, rfl⟩ | rfl⟩
  · rw [dispatch_of_invalid invalid] at evicted
    cases evicted
  · rw [dispatch_read named] at evicted ⊢
    exact isOk_of_evicted_read (quiet _ _) evicted
  · rw [dispatch_write named] at evicted ⊢
    exact isOk_of_evicted_change (quiet _ _) evicted
  · rw [dispatch_delete named] at evicted ⊢
    exact isOk_of_evicted_change (quiet _ _) evicted

/-! ## Without the counters -/

/-- What an operation has come to, apart from what was counted. -/
def uncounted (ended : Result × Shared × τ) : Result × Cache × τ :=
  (ended.1, ended.2.1.cache, ended.2.2)

/-- What a read comes to does not depend on the counters. -/
theorem uncounted_read (same : s.cache = s'.cache) (store : Answering τ) (key : Key) (t : τ) :
    uncounted (read store key s t).value = uncounted (read store key s' t).value := by
  unfold read Shared.find
  rw [same]
  rcases s'.cache.get key with ⟨_ | value, cache⟩
  · dsimp only
    rcases store (.get key) t with ⟨⟨⟨_ | value⟩ | cause | text, t'⟩, events⟩ <;> rfl
  · rfl

theorem uncounted_change {adopt : Shared → Logged Shared}
    (same : (adopt s).value.cache = (adopt s').value.cache) (before : s.cache = s'.cache)
    (store : Answering τ) (r : Request) (t : τ) :
    uncounted (change store r adopt s t).value = uncounted (change store r adopt s' t).value := by
  unfold change
  rcases store r t with ⟨⟨answer | cause | text, t'⟩, events⟩
  · exact congrArg (_, ·, _) same
  · exact congrArg (_, ·, _) before
  · exact congrArg (_, ·, _) before

/-- What has been counted so far makes no difference to an operation. -/
theorem uncounted_dispatch (same : s.cache = s'.cache) (store : Answering τ) (op : Operation)
    (t : τ) :
    uncounted (dispatch store op s t).value = uncounted (dispatch store op s' t).value := by
  have counted : (s.count .request).cache = (s'.count .request).cache := same
  rcases op.valid_cases with invalid | ⟨key, named, rfl | ⟨value, rfl⟩ | rfl⟩
  · rw [dispatch_of_invalid invalid, dispatch_of_invalid invalid]
    exact congrArg (_, ·, _) counted
  · rw [dispatch_read named, dispatch_read named]
    exact uncounted_read counted store key t
  · rw [dispatch_write named, dispatch_write named]
    refine uncounted_change ?_ counted store _ t
    exact congrArg (fun cache : Cache => (cache.keep key value).value) counted
  · rw [dispatch_delete named, dispatch_delete named]
    refine uncounted_change ?_ counted store _ t
    exact congrArg (fun cache : Cache => (cache.erase key).2) counted

end Dispatch

/-! ## Runs -/

namespace InMemory

variable {n : Nat} {d e : InMemory n}

/-- The faulty table reports nothing, so evictions come from the cache alone. -/
theorem events_faulty (r : Request) (t : Unit × Faulty Table) :
    (Memory.backend.faulty.answering r t).events = [] := by
  rcases t with ⟨c, f⟩
  unfold Backend.answering Backend.faulty
  dsimp only
  cases f.fault? r <;> rfl

/-- Without an answer Ok the store is not touched. -/
theorem store_of_failed (intact : d.shared.cache.Intact) {i : Fin n} {op : Operation}
    (failed : (d.carryOut i op).1.isOk = false) : (d.carryOut i op).2.store = d.store := by
  have ending := InMemory.ending intact i op
  generalize (d.carryOut i op).1 = result, (d.carryOut i op).2.shared = shared,
    (d.carryOut i op).2.store = store at failed ending
  cases ending with
  | refused _ => rfl
  | absent _ _ replied =>
      obtain ⟨-, -, after⟩ := Memory.found_of_answered replied
      exact congrArg Prod.snd after
  | failed _ _ _ replied trouble =>
      obtain ⟨-, after⟩ := Memory.struck_of_trouble replied trouble
      exact congrArg Prod.snd after
  | hit | filled | written | deleted => cases failed

/-- What one failed operation leaves behind. -/
theorem failure (intact : d.shared.cache.Intact) {i : Fin n} {op : Operation}
    (failed : (d.carryOut i op).1.isOk = false) :
    (d.carryOut i op).2.shared.cache = d.shared.cache ∧
      (d.carryOut i op).2.shared.counters = {
        requests := d.shared.counters.requests + 1
        hits := d.shared.counters.hits
        misses := d.shared.counters.misses + if op.looksUp then 1 else 0 } :=
  (InMemory.ending intact i op).failure failed

/-- The two differ at most in what they have counted and in which requests fail. -/
structure Alike (d e : InMemory n) : Prop where
  cache : d.shared.cache = e.shared.cache
  store : d.store.heal = e.store.heal

/-- A turn comes to the same in both deployments and leaves them alike. -/
theorem Alike.take (alike : d.Alike e) (turn : Turn n) :
    (d.take turn).1 = (e.take turn).1 ∧ (d.take turn).2.Alike (e.take turn).2 := by
  have struck : d.store.struck turn.fault = e.store.struck turn.fault := by
    unfold Faulty.struck
    rw [alike.store]
  have here := Dispatch.uncounted_dispatch alike.cache Memory.backend.faulty.answering turn.op
    ((), d.store.struck turn.fault)
  have there : Dispatch.uncounted (dispatch Memory.backend.faulty.answering turn.op e.shared
      ((), d.store.struck turn.fault)).value =
      Dispatch.uncounted (dispatch Memory.backend.faulty.answering turn.op e.shared
        ((), e.store.struck turn.fault)).value := by rw [struck]
  obtain ⟨outcome, rest⟩ := Prod.ext_iff.mp (here.trans there)
  obtain ⟨cache, stores⟩ := Prod.ext_iff.mp rest
  exact ⟨outcome, cache, congrArg (·.2.heal) stores⟩

/-- A turn that fails makes no other difference than the two may have. -/
theorem alike_of_failed (intact : d.shared.cache.Intact) {turn : Turn n}
    (failed : (d.take turn).1.isOk = false) : (d.take turn).2.Alike d := by
  have intact : (d.struck turn.fault).shared.cache.Intact := intact
  have store := store_of_failed intact failed
  refine ⟨(failure intact failed).1, ?_⟩
  have healed : (d.store.struck turn.fault).heal = d.store.heal := by
    cases turn.fault <;> rfl
  exact (congrArg Faulty.heal store).trans healed

/-- The turns whose operations are answered Ok when all are taken. -/
def succeeding (d : InMemory n) (turns : List (Turn n)) : List (Turn n) :=
  ((turns.zip (d.takeAll turns).1).filter (·.2.2.isOk)).map Prod.fst

theorem succeeding_cons_of_isOk {turn : Turn n} (ok : (d.take turn).1.isOk = true)
    (turns : List (Turn n)) :
    d.succeeding (turn :: turns) = turn :: (d.take turn).2.succeeding turns := by
  rw [succeeding, takeAll_cons, List.zip_cons_cons, List.filter_cons, if_pos ok]
  rfl

/-- A turn that fails is left out, and the others are taken as if it had not been. -/
theorem succeeding_cons_of_failed {turn : Turn n} (failed : (d.take turn).1.isOk = false)
    (turns : List (Turn n)) :
    d.succeeding (turn :: turns) = (d.take turn).2.succeeding turns := by
  rw [succeeding, takeAll_cons, List.zip_cons_cons, List.filter_cons,
    if_neg (Bool.eq_false_iff.mp failed)]
  rfl

/-- Two runs from deployments that are alike, the one of all turns and the one of those turns only
that are answered Ok in the first: these end in the same way in both. -/
theorem Alike.takeAll (alike : d.Alike e) (intact : d.shared.cache.Intact)
    (turns : List (Turn n)) :
    (e.takeAll (d.succeeding turns)).1 = (d.takeAll turns).1.filter (·.2.isOk) ∧
      (d.takeAll turns).2.Alike (e.takeAll (d.succeeding turns)).2 := by
  induction turns generalizing d e with
  | nil => exact ⟨rfl, alike⟩
  | cons turn turns ih =>
      have kept : (d.take turn).2.shared.cache.Intact :=
        intact_carryOut (show (d.struck turn.fault).shared.cache.Intact from intact)
          turn.connection turn.op
      cases ok : (d.take turn).1.isOk with
      | true =>
          obtain ⟨same, after⟩ := alike.take turn
          obtain ⟨outcomes, later⟩ := ih after kept
          rw [succeeding_cons_of_isOk ok, takeAll_cons, takeAll_cons, List.filter_cons, if_pos ok,
            ← same, ← outcomes]
          exact ⟨rfl, later⟩
      | false =>
          have back := alike_of_failed intact ok
          have after : (d.take turn).2.Alike e :=
            ⟨back.cache.trans alike.cache, back.store.trans alike.store⟩
          obtain ⟨outcomes, later⟩ := ih after kept
          rw [succeeding_cons_of_failed ok, takeAll_cons, List.filter_cons,
            if_neg (Bool.eq_false_iff.mp ok)]
          exact ⟨outcomes, later⟩

/-- From any reachable cache on, over any content of the store and with any faults: an operation
that is not answered Ok leaves the cache and the store as they were, reports no displaced pair, and
counts as a request, and as a miss if it looks a key up. So if the operations that are not answered
Ok are taken out of a run, the others come to what they came to, and the cache and the store are the
same in the end. -/
theorem failures_leave_no_trace {capacity n : Nat} {d : InMemory n}
    (reachable : Cache.Reachable capacity d.shared.cache) :
    (∀ i op, (d.carryOut i op).1.isOk = false →
      let after := (d.carryOut i op).2
      after.shared.cache = d.shared.cache ∧ after.store = d.store ∧
        (∀ key, .evicted key ∉ (d.dispatch Memory.backend.faulty i op).events) ∧
        after.shared.counters = {
          requests := d.shared.counters.requests + 1
          hits := d.shared.counters.hits
          misses := d.shared.counters.misses + if op.looksUp then 1 else 0 }) ∧
    ∀ turns : List (Turn n),
      let all := d.takeAll turns
      let rest := d.takeAll (d.succeeding turns)
      rest.1 = all.1.filter (·.2.isOk) ∧ rest.2.shared.cache = all.2.shared.cache ∧
        rest.2.store.store = all.2.store.store := by
  have intact := reachable.intact.1
  constructor
  · intro i op failed after
    obtain ⟨cache, counters⟩ := failure intact failed
    refine ⟨cache, store_of_failed intact failed, fun key evicted => ?_, counters⟩
    -- All that is reported comes from the dispatch, which has displaced nothing.
    have same : (d.dispatch Memory.backend.faulty i op).events =
        (CacheAside.dispatch Memory.backend.faulty.answering op d.shared
          (d.connections[i], d.store)).events := List.append_nil _
    rw [same] at evicted
    have quiet : ∀ r t, .evicted key ∉ (Memory.backend.faulty.answering r t).events := by
      intro r t
      rw [events_faulty]
      exact List.not_mem_nil
    exact absurd (Dispatch.isOk_of_evicted quiet evicted) (Bool.eq_false_iff.mp failed)
  · intro turns all rest
    have same : d.Alike d := ⟨rfl, rfl⟩
    obtain ⟨outcomes, alike⟩ := same.takeAll intact turns
    exact ⟨outcomes, alike.cache.symm, (congrArg Faulty.store alike.store).symm⟩

/-- A crash, a refusal, an error of the store and a key that is not there, between operations that
move, displace and read back a pair. -/
theorem failures_leave_no_trace_displacing :
    let d : InMemory 1 := {
      shared := { cache := ((Cache.empty 1).put "a" "1").2 }, connections := #v[()]
      store := { store := .ofList [("a", "1"), ("b", "2")] } }
    let turns : List (Turn 1) := [⟨0, .read "b", some (.crash "down")⟩,
      ⟨0, .write "c" none, none⟩, ⟨0, .read "a", some (.error (.command "busy"))⟩,
      ⟨0, .write "b" (some "3"), none⟩, ⟨0, .write "a" (some "4"), some (.error (.command "full"))⟩,
      ⟨0, .read "z", none⟩, ⟨0, .read "b", some (.crash "down")⟩]
    Cache.Reachable 1 d.shared.cache ∧ (d.carryOut 0 (.read "z")).1.isOk = false ∧
      (d.carryOut 0 (.read "z")).2.shared.counters = ⟨1, 0, 1⟩ ∧
      (d.takeAll (d.succeeding turns)).1 = [(.read "a", .answered (.found "1")),
        (.write "b" (some "3"), .answered ⟨.ok, none⟩), (.read "b", .answered (.found "3"))] ∧
      (d.takeAll (d.succeeding turns)).2.shared.cache = (d.takeAll turns).2.shared.cache := by
  intro d turns
  have reachable : Cache.Reachable 1 d.shared.cache := .put "a" "1" (.new rfl)
  have failed : (d.carryOut 0 (.read "z")).1.isOk = false := by decide +kernel
  have outcomes : (d.takeAll turns).1.filter (·.2.isOk) = [(.read "a", .answered (.found "1")),
      (.write "b" (some "3"), .answered ⟨.ok, none⟩), (.read "b", .answered (.found "3"))] := by
    decide +kernel
  obtain ⟨one, all⟩ := failures_leave_no_trace reachable
  obtain ⟨-, -, -, counters⟩ := one 0 (.read "z") failed
  obtain ⟨same, cache, -⟩ := all turns
  exact ⟨reachable, failed, counters, same.trans outcomes, cache⟩

end InMemory

end CacheAside
