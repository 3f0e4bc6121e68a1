import CacheAside.Proofs.Cache.Nesting
import CacheAside.Proofs.Cache.Refinement
import CacheAside.Proofs.Dispatch.Accounting
import CacheAside.Proofs.Dispatch.Transparency

/-!
# A larger cache hits at least as often

Two runs of the same operations over stores of the same content, with caches of different
capacities, are followed side by side. Without faults both have the same outcomes, and the recency
list of the smaller cache stays a prefix of that of the larger one: `InMemory.Nested`. So whatever
hits in the smaller cache hits in the larger one, `InMemory.larger_cache_hits_as_often`.

The two caches do not take the same steps, since a read can hit in one and fill the other. But both
steps put the stored pair in front (`Recency.settle`), and that is all the comparison needs.
-/

namespace CacheAside

/-- What an operation makes of a recency list whose pairs are all stored, if the store serves its
request. A read puts the stored pair in front, whether it was cached or not. -/
def Recency.settle (capacity : Nat) (r : Recency) (op : Operation) (stored : Option Value) :
    Recency :=
  if op.key = "" then r
  else match op, stored with
    | .read key, some value => (r.put capacity key value).2
    | .read _, none => r
    | .write key (some value), _ => (r.put capacity key value).2
    | .write _ none, _ => r
    | .delete key, _ => (r.erase key).2

namespace Recency

variable {r r' : Recency} {op : Operation} {key : Key} {stored : Option Value} {capacity : Nat}

theorem settle_of_invalid (invalid : op.key = "" ∨ op.request = none) :
    settle capacity r op stored = r := by
  by_cases unnamed : op.key = ""
  · exact if_pos unnamed
  · have silent : op.request = none := invalid.resolve_left unnamed
    rcases op with key | ⟨key, _ | value⟩ | key
    · cases silent
    · exact if_neg unnamed
    · cases silent
    · cases silent

theorem settle_read (named : key ≠ "") : settle capacity r (.read key) stored =
    match stored with
    | some value => (r.put capacity key value).2
    | none => r := by
  cases stored <;> exact if_neg named

theorem settle_write (named : key ≠ "") (value : Value) :
    settle capacity r (.write key (some value)) stored = (r.put capacity key value).2 :=
  if_neg named

theorem settle_delete (named : key ≠ "") :
    settle capacity r (.delete key) stored = (r.erase key).2 := if_neg named

/-- An operation keeps the list of the smaller capacity in front of the other. -/
theorem settle_isPrefix {small large : Nat} (nested : r <+: r') (fits : r.length ≤ small)
    (le : small ≤ large) (op : Operation) (stored : Option Value) :
    settle small r op stored <+: settle large r' op stored := by
  rcases op.valid_cases with invalid | ⟨key, named, rfl | ⟨value, rfl⟩ | rfl⟩
  · rw [settle_of_invalid invalid, settle_of_invalid invalid]
    exact nested
  · rw [settle_read named, settle_read named]
    cases stored with
    | none => exact nested
    | some value => exact put_isPrefix nested fits le key value
  · rw [settle_write named, settle_write named]
    exact put_isPrefix nested fits le key value
  · rw [settle_delete named, settle_delete named]
    exact erase_isPrefix nested key

end Recency

/-- Whatever hits in the smaller of two caches hits in the larger one, and no more misses there. -/
theorem Operation.counts_of_held {cached cached' : Option Value}
    (held : ∀ value, cached = some value → cached' = some value) (op : Operation) :
    (op.counts cached).count .hit ≤ (op.counts cached').count .hit ∧
      (op.counts cached').count .miss ≤ (op.counts cached).count .miss := by
  rcases op with key | ⟨key, value⟩ | key
  · by_cases unnamed : key = ""
    · subst unnamed
      exact ⟨Nat.le_refl _, Nat.le_refl _⟩
    · rw [counts_read unnamed, counts_read unnamed]
      cases cached with
      | some value =>
          rw [held value rfl]
          exact ⟨Nat.le_refl _, Nat.le_refl _⟩
      | none => cases cached' <;> simp
  · exact ⟨Nat.le_refl _, Nat.le_refl _⟩
  · exact ⟨Nat.le_refl _, Nat.le_refl _⟩

namespace Dispatch

theorem Ending.capacity {τ : Type} {store : Answering τ} {s s' : Shared} {t t' : τ}
    {op : Operation} {result : Result} (ending : Ending store s t op (result, s', t')) :
    s'.cache.capacity = s.cache.capacity := by
  cases ending with
  | refused _ => rfl
  | hit _ _ => exact Cache.capacity_get _ _
  | filled _ _ _ => exact Cache.capacity_put _ _ _
  | absent _ _ _ => rfl
  | written _ _ => exact Cache.capacity_put _ _ _
  | deleted _ _ => exact Cache.capacity_erase _ _
  | failed _ _ _ _ _ => rw [Shared.cache_asking]

/-- Without a fault the recency list after an operation depends on the operation and on what the
store has under its key, and not on whether the cache had it. -/
theorem Ending.settle {s s' : Shared} {c c' : Unit} {f f' : Faulty Table} {op : Operation}
    {result : Result}
    (ending : Ending Memory.backend.faulty.answering s (c, f) op (result, s', c', f'))
    (intact : s.cache.Intact) (quiet : ∀ r, f.fault? r = none)
    (coherent : ∀ key value, s.cache.peek key = some value → f.store[key]? = some value) :
    s'.cache.toList =
      Recency.settle s.cache.capacity s.cache.toList op f.store[op.key]? := by
  cases ending with
  | refused invalid => exact (Recency.settle_of_invalid invalid).symm
  | @hit key value named cached =>
      have found : Recency.peek s.cache.toList key = some value :=
        (intact.peek_eq key).symm.trans cached
      have known : Recency.peek s.cache.toList key ≠ none := by simp [found]
      have content : f.store[key]? = some value := coherent key value cached
      rw [Operation.key, content, Recency.settle_read named]
      dsimp only
      rw [intact.toList_get, Recency.put_known known, Recency.get, found]
  | @filled key value _ named _ replied =>
      obtain ⟨-, content, -⟩ := Memory.found_of_answered replied
      rw [Operation.key, content, Recency.settle_read named]
      exact intact.toList_put key value
  | absent named _ replied =>
      obtain ⟨-, content, -⟩ := Memory.found_of_answered replied
      rw [Operation.key, content, Recency.settle_read named]
      rfl
  | @written key value _ _ named _ =>
      rw [Recency.settle_write named]
      exact intact.toList_put key value
  | @deleted key _ _ named _ =>
      rw [Recency.settle_delete named]
      exact intact.toList_erase key
  | failed _ _ _ replied trouble =>
      obtain ⟨⟨fault, struck, -⟩, -⟩ := Memory.struck_of_trouble replied trouble
      cases (quiet _).symm.trans struck

end Dispatch

namespace InMemory

variable {n : Nat} {d e : InMemory n} {p : Plain}

/-- The events that a run of turns counts, by what is cached when each is taken. -/
def counted (d : InMemory n) : List (Turn n) → List Counter
  | [] => []
  | turn :: turns => turn.op.counts (d.cached turn.op.key) ++ (d.take turn).2.counted turns

/-! ## One turn -/

/-- A turn counts the events that what is cached under its key asks for. -/
theorem counters_take (intact : d.shared.cache.Intact) (turn : Turn n) :
    (d.take turn).2.shared.counters =
      d.shared.counters.recordAll (turn.op.counts (d.cached turn.op.key)) := by
  have intact : (d.struck turn.fault).shared.cache.Intact := intact
  exact (ending intact turn.connection turn.op).counters

theorem capacity_take (intact : d.shared.cache.Intact) (turn : Turn n) :
    (d.take turn).2.shared.cache.capacity = d.shared.cache.capacity := by
  have intact : (d.struck turn.fault).shared.cache.Intact := intact
  exact (ending intact turn.connection turn.op).capacity

/-- Without a fault, a turn makes of the recency list what the map stands for. -/
theorem Mirrors.settle_take (mirrors : d.Mirrors p) {turn : Turn n} (quiet : turn.fault = none) :
    (d.take turn).2.shared.cache.toList =
      Recency.settle d.shared.cache.capacity d.shared.cache.toList turn.op (p turn.op.key) := by
  have intact : (d.struck turn.fault).shared.cache.Intact := mirrors.intact
  have same : ∀ key, (d.struck turn.fault).store.store[key]? = p key := fun key => by
    rw [struck, Faulty.store_struck]
    exact mirrors.same key
  have unstruck : ∀ r, (d.struck turn.fault).store.fault? r = none := fun r =>
    (Faulty.fault?_struck d.store turn.fault r).trans quiet
  have coherent : ∀ key value, d.shared.cache.peek key = some value →
      (d.struck turn.fault).store.store[key]? = some value := fun key value held =>
    (same key).trans (mirrors.coherent key value held)
  have settled := (ending intact turn.connection turn.op).settle intact unstruck coherent
  rw [same] at settled
  exact settled

/-- Two deployments over one map: the recency list of the first is a prefix of that of the second,
whose capacity is no smaller. -/
structure Nested (d e : InMemory n) (p : Plain) : Prop where
  first : d.Mirrors p
  second : e.Mirrors p
  capacity : d.shared.cache.capacity ≤ e.shared.cache.capacity
  pairs : d.shared.cache.toList <+: e.shared.cache.toList

/-- What the smaller cache holds, the larger one holds too. -/
theorem Nested.held (nested : d.Nested e p) (key : Key) (value : Value)
    (held : d.cached key = some value) : e.cached key = some value := by
  rw [Deployment.cached, nested.second.intact.peek_eq]
  refine Recency.peek_of_isPrefix nested.pairs ?_
  rw [← nested.first.intact.peek_eq]
  exact held

/-- A turn comes to the same in both deployments, and leaves the lists nested. -/
theorem Nested.take (nested : d.Nested e p) {turn : Turn n} (quiet : turn.fault = none) :
    (d.take turn).1 = (e.take turn).1 ∧
      (d.take turn).2.Nested (e.take turn).2 (p.settle turn.op (d.take turn).1) := by
  obtain ⟨outcome, first⟩ := nested.first.take turn
  obtain ⟨outcome', second⟩ := nested.second.take turn
  have answered : ∀ {result : Result},
      (result = .answered (p.outcome turn.op) ∨ ∃ fault, turn.fault = some fault ∧
        fault.reply.trouble = some result) → result = .answered (p.outcome turn.op) := by
    rintro result (same | ⟨fault, struck, -⟩)
    · exact same
    · cases quiet.symm.trans struck
  have same : (d.take turn).1 = (e.take turn).1 :=
    (answered outcome).trans (answered outcome').symm
  refine ⟨same, first, same ▸ second, ?_, ?_⟩
  · rw [capacity_take nested.first.intact, capacity_take nested.second.intact]
    exact nested.capacity
  · rw [nested.first.settle_take quiet, nested.second.settle_take quiet]
    have fits := nested.first.intact.length_toList
    exact Recency.settle_isPrefix nested.pairs fits nested.capacity turn.op _

/-! ## All turns -/

/-- The counters after a run are those before it with the events of the run. -/
theorem counters_takeAll (mirrors : d.Mirrors p) (turns : List (Turn n)) :
    (d.takeAll turns).2.shared.counters = d.shared.counters.recordAll (d.counted turns) := by
  induction turns generalizing d p with
  | nil => rfl
  | cons turn turns ih =>
      rw [counted, Counters.recordAll_append, ← counters_take mirrors.intact turn]
      exact ih (mirrors.take turn).2

theorem count_request_counted (d : InMemory n) (turns : List (Turn n)) :
    (d.counted turns).count .request = turns.length := by
  induction turns generalizing d with
  | nil => rfl
  | cons turn turns ih =>
      obtain ⟨events, -, none, counts⟩ := turn.op.counts_eq (d.cached turn.op.key)
      rw [counted, List.count_append, ih, counts, List.count_cons_self,
        List.count_eq_zero_of_not_mem none, List.length_cons]
      omega

/-- No turn counts more than one hit or one miss. -/
theorem count_counted_le (d : InMemory n) (turns : List (Turn n)) :
    (d.counted turns).count .hit ≤ turns.length ∧ (d.counted turns).count .miss ≤ turns.length := by
  have bound : ∀ counter : Counter, counter ≠ .request →
      (d.counted turns).count counter ≤ turns.length := by
    intro counter other
    induction turns generalizing d with
    | nil => exact Nat.le_refl _
    | cons turn turns ih =>
        obtain ⟨events, few, -, counts⟩ := turn.op.counts_eq (d.cached turn.op.key)
        have one : events.count counter ≤ 1 := Nat.le_trans List.count_le_length few
        have later := ih (d.take turn).2
        rw [counted, List.count_append, counts, List.count_cons_of_ne (Ne.symm other),
          List.length_cons]
        omega
  exact ⟨bound .hit nofun, bound .miss nofun⟩

/-- A run comes to the same in both deployments, with no fewer hits in the larger cache. -/
theorem Nested.takeAll (nested : d.Nested e p) {turns : List (Turn n)}
    (quiet : ∀ turn ∈ turns, turn.fault = none) :
    (d.takeAll turns).1 = (e.takeAll turns).1 ∧
      (d.takeAll turns).2.Nested (e.takeAll turns).2 (p.replay (d.takeAll turns).1) ∧
      (d.counted turns).count .hit ≤ (e.counted turns).count .hit ∧
      (e.counted turns).count .miss ≤ (d.counted turns).count .miss := by
  induction turns generalizing d e p with
  | nil => exact ⟨rfl, nested, Nat.le_refl _, Nat.le_refl _⟩
  | cons turn turns ih =>
      obtain ⟨same, after⟩ := nested.take (quiet turn List.mem_cons_self)
      obtain ⟨later, nested', hits, misses⟩ :=
        ih after fun other member => quiet other (List.mem_cons_of_mem _ member)
      obtain ⟨hit, miss⟩ := turn.op.counts_of_held (nested.held turn.op.key)
      refine ⟨?_, nested', ?_, ?_⟩
      · rw [takeAll_cons, takeAll_cons, same, later]
      · rw [counted, counted, List.count_append, List.count_append]
        exact Nat.add_le_add hit hits
      · rw [counted, counted, List.count_append, List.count_append]
        exact Nat.add_le_add miss misses

/-- As long as the numbers fit into a word, a counter from zero on is the number of its events. -/
theorem toNat_recordAll {events : List Counter} (hits : events.count .hit < UInt64.size)
    (misses : events.count .miss < UInt64.size) :
    (Counters.recordAll {} events).hits.toNat = events.count .hit ∧
      (Counters.recordAll {} events).misses.toNat = events.count .miss := by
  simp only [Counters.recordAll_eq, UInt64.zero_add]
  exact ⟨UInt64.toNat_ofNat_of_lt' hits, UInt64.toNat_ofNat_of_lt' misses⟩

/-- Two runs of the same turns without faults, from empty caches of two capacities. As the turns are
arbitrary, their end is any moment of any run: the outcomes and the stores are the same, the keys of
the smaller cache are the first ones of the larger cache and have the same values there, and the
larger cache has had no fewer hits and no more misses. The numbers of hits and misses are those of
the events that the counters have counted; the counters compare like them until they wrap. -/
theorem larger_cache_hits_as_often {small large n : Nat} (positive : 0 < small)
    (le : small ≤ large) (connections : Vector Unit n) (store : Faulty Table)
    {turns : List (Turn n)} (quiet : ∀ turn ∈ turns, turn.fault = none) :
    let few := fresh small connections store
    let many := fresh large connections store
    let d := (few.takeAll turns).2
    let e := (many.takeAll turns).2
    (few.takeAll turns).1 = (many.takeAll turns).1 ∧
      (∀ key, d.stored key = e.stored key) ∧
      d.shared.cache.keys <+: e.shared.cache.keys ∧
      (∀ key value, d.cached key = some value → e.cached key = some value) ∧
      d.shared.counters.requests = e.shared.counters.requests ∧
      d.shared.counters = .recordAll {} (few.counted turns) ∧
      e.shared.counters = .recordAll {} (many.counted turns) ∧
      (few.counted turns).count .hit ≤ (many.counted turns).count .hit ∧
      (many.counted turns).count .miss ≤ (few.counted turns).count .miss ∧
      (turns.length < UInt64.size → d.shared.counters.hits ≤ e.shared.counters.hits ∧
        e.shared.counters.misses ≤ d.shared.counters.misses) := by
  intro few many d e
  have mirrors : ∀ {capacity : Nat}, 0 < capacity →
      (fresh capacity connections store).Mirrors fun key => store.store[key]? := by
    intro capacity positive
    refine ⟨intact_fresh positive connections store, fun _ => rfl, fun key value holds => ?_⟩
    cases (cached_fresh capacity connections store key).symm.trans holds
  have nested : few.Nested many fun key => store.store[key]? := by
    refine ⟨mirrors positive, mirrors (Nat.lt_of_lt_of_le positive le), le, ?_⟩
    have nothing : few.shared.cache.toList = [] := rfl
    rw [nothing]
    exact List.nil_prefix
  obtain ⟨outcomes, after, hits, misses⟩ := nested.takeAll quiet
  have countedFew : d.shared.counters = .recordAll {} (few.counted turns) :=
    counters_takeAll nested.first turns
  have countedMany : e.shared.counters = .recordAll {} (many.counted turns) :=
    counters_takeAll nested.second turns
  have requests : d.shared.counters.requests = e.shared.counters.requests := by
    rw [countedFew, countedMany, Counters.recordAll_eq, Counters.recordAll_eq,
      count_request_counted, count_request_counted]
  refine ⟨outcomes, fun key => (after.first.same key).trans (after.second.same key).symm,
    after.pairs.map _, after.held, requests, countedFew, countedMany, hits, misses, ?_⟩
  intro fits
  have below : ∀ (start : InMemory n),
      (start.counted turns).count .hit < UInt64.size ∧
        (start.counted turns).count .miss < UInt64.size := fun start =>
    ⟨Nat.lt_of_le_of_lt (count_counted_le start turns).1 fits,
      Nat.lt_of_le_of_lt (count_counted_le start turns).2 fits⟩
  obtain ⟨hitsFew, missesFew⟩ := toNat_recordAll (below few).1 (below few).2
  obtain ⟨hitsMany, missesMany⟩ := toNat_recordAll (below many).1 (below many).2
  rw [countedFew, countedMany, UInt64.le_iff_toNat_le, UInt64.le_iff_toNat_le, hitsFew, hitsMany,
    missesFew, missesMany]
  exact ⟨hits, misses⟩

/-- The delete leaves room in the smaller cache only, and the read of the displaced pair, a hit in
the larger cache, fills it. -/
theorem larger_cache_hits_as_often_refilled :
    let turns : List (Turn 1) := [⟨0, .write "a" (some "1"), none⟩,
      ⟨0, .write "b" (some "2"), none⟩, ⟨0, .delete "b", none⟩, ⟨0, .read "a", none⟩,
      ⟨0, .write "c" none, none⟩, ⟨0, .read "d", none⟩]
    let run (capacity : Nat) :=
      (fresh capacity #v[()] { store := .ofList [("d", "4")] }).takeAll turns
    (0 < 1 ∧ 1 ≤ 2 ∧ ∀ turn ∈ turns, turn.fault = none) ∧
      (run 1).2.shared.cache.keys = ["d"] ∧ (run 2).2.shared.cache.keys = ["d", "a"] ∧
      (run 1).2.shared.cache.keys <+: (run 2).2.shared.cache.keys ∧
      (run 1).2.shared.counters.hits ≤ (run 2).2.shared.counters.hits := by
  intro turns run
  have quiet : ∀ turn ∈ turns, turn.fault = none := by decide
  have fits : turns.length < UInt64.size := by decide
  have small : (run 1).2.shared.cache.keys = ["d"] := by decide +kernel
  have large : (run 2).2.shared.cache.keys = ["d", "a"] := by decide +kernel
  clear_value turns
  obtain ⟨-, -, keys, -, -, -, -, -, -, words⟩ :=
    larger_cache_hits_as_often (by decide : 0 < 1) (by decide : 1 ≤ 2) #v[()]
      { store := .ofList [("d", "4")] } quiet
  exact ⟨⟨by decide, by decide, quiet⟩, small, large, keys, (words fits).1⟩

end InMemory

end CacheAside
