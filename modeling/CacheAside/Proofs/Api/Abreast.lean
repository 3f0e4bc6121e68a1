import CacheAside.Proofs.Api.Exchange
import CacheAside.Proofs.Dispatch.Inclusion
import CacheAside.Proofs.Dispatch.Independence
import CacheAside.Proofs.Dispatch.Ledger

/-!
# Two pools over one content

Two pools over tables of the same content, of which one has cached no more than the other, are sent
the same requests. `Dispatch.Calm` says what an operation comes to over a table, which never fails:
the outcome, the content and the recency list depend on the content and not on what is cached. So
the two pools answer alike and stay abreast, `Api.handle_abreast`, and whatever hits in the first
hits in the second.
-/

namespace CacheAside

/-! ## One operation over a table -/

namespace Dispatch

/-- A table as one with faults in front of it, of which there are none. -/
def faultless (t : Unit × Table) : Unit × Faulty Table := (t.1, { store := t.2 })

/-- A table answers as one with faults in front of it does while there are none. -/
theorem follows_faultless :
    Follows faultless Memory.backend.answering Memory.backend.faulty.answering := fun _ _ => rfl

/-- What an operation comes to over a table. -/
structure Calm (s : Shared) (t : Table) (op : Operation) (result : Result) (s' : Shared)
    (t' : Table) : Prop where
  outcome : result = .answered (t.plain.outcome op)
  intact : s'.cache.Intact
  coherent : Coherent s' ((), t')
  content : t'.plain = t.plain.settle op result
  capacity : s'.cache.capacity = s.cache.capacity
  pairs : s'.cache.toList =
    Recency.settle s.cache.capacity s.cache.toList op (t.plain op.key)
  counters : s'.counters = s.counters.recordAll (op.counts (s.cache.peek op.key))

/-- Over a table, an operation comes to what the content says. -/
theorem calm {s s' : Shared} {t t' : Table} {op : Operation} {result : Result}
    (intact : s.cache.Intact) (coherent : Coherent s ((), t))
    (dispatched : (dispatch Memory.backend.answering op s ((), t)).value = (result, s', (), t')) :
    Calm s t op result s' t' := by
  have ending : Ending Memory.backend.faulty.answering s ((), { store := t }) op
      (result, s', (), { store := t' }) := by
    have ending := Dispatch.ending intact Memory.backend.faulty.answering op (faultless ((), t))
    rw [follows_faultless.dispatch, dispatched] at ending
    exact ending
  have quiet : ∀ r, ({ store := t } : Faulty Table).fault? r = none := fun _ => rfl
  have content : ∀ key, t'.plain key = t.plain.settle op result key := fun key => ending.settles rfl
  have outcome : result = .answered (t.plain.outcome op) := by
    rcases ending.outcome rfl (coherent _) with same | ⟨r, fault, struck, -⟩
    · exact same
    · cases (quiet r).symm.trans struck
  refine ⟨outcome, ending.intact intact, ?_, funext content, ending.capacity,
    ending.settle intact quiet coherent, ending.counters⟩
  intro key value holds
  rcases ending.origin intact holds with ⟨-, stores⟩ | ⟨-, before, unchanged⟩
  · exact stores
  · exact unchanged.trans (coherent key value before)

end Dispatch

/-! ## One pool -/

namespace Pool

variable {p q : Pool Table Unit}

/-- A pool at rest that is open, with a worker left and with nothing out of date in its cache. -/
structure Steady (p : Pool Table Unit) : Prop where
  rests : p.Resting ∧ p.isOpen = true
  alive : p.isAlive = true
  intact : p.shared.cache.Intact
  coherent : Coherent p.shared ((), p.store)

/-- A steady pool answers an operation by the content of its table, and stays steady. -/
theorem Steady.serve (steady : p.Steady) (op : Operation) :
    ∃ p', (p.serve Memory.backend op).value = (.ok (p.store.plain.outcome op), p') ∧ p'.Steady ∧
      Dispatch.Calm p.shared p.store op (.answered (p.store.plain.outcome op)) p'.shared
        p'.store := by
  obtain ⟨w, connection, idle, served⟩ :=
    serve_eq steady.rests.1 steady.rests.2 steady.alive Memory.backend op
  have rests := rests_serve steady.rests Memory.backend op
  rcases dispatched : (dispatch Memory.backend.answering op p.shared (connection, p.store)).value
    with ⟨result, s', connection', t'⟩
  have calm := Dispatch.calm steady.intact steady.coherent dispatched
  obtain rfl := calm.outcome
  rw [served] at rests ⊢
  simp only [Logged.value_bind, dispatched, Logged.value_pure] at rests ⊢
  exact ⟨_, rfl, ⟨rests, alive_set idle rfl, calm.intact, calm.coherent⟩, calm⟩

/-- Two pools with caches of one capacity over tables of one content. What the first has cached the
second has cached too, and has used just as recently. -/
structure Abreast (capacity : Nat) (p q : Pool Table Unit) : Prop where
  first : p.Steady
  second : q.Steady
  content : p.store.plain = q.store.plain
  room : p.shared.cache.capacity = capacity
  room' : q.shared.cache.capacity = capacity
  pairs : p.shared.cache.toList <+: q.shared.cache.toList

variable {capacity : Nat}

theorem Abreast.held (abreast : Abreast capacity p q) (key : Key) (value : Value)
    (held : p.shared.cache.peek key = some value) : q.shared.cache.peek key = some value := by
  rw [abreast.second.intact.peek_eq]
  refine Recency.peek_of_isPrefix abreast.pairs ?_
  rw [← abreast.first.intact.peek_eq]
  exact held

/-- An operation is answered alike by pools abreast, and leaves them abreast. -/
theorem Abreast.serve (abreast : Abreast capacity p q) (op : Operation) :
    ∃ outcome p' q', (p.serve Memory.backend op).value = (.ok outcome, p') ∧
      (q.serve Memory.backend op).value = (.ok outcome, q') ∧ Abreast capacity p' q' ∧
      p'.shared.counters =
        p.shared.counters.recordAll (op.counts (p.shared.cache.peek op.key)) ∧
      q'.shared.counters =
        q.shared.counters.recordAll (op.counts (q.shared.cache.peek op.key)) := by
  obtain ⟨p', served, first, calm⟩ := abreast.first.serve op
  obtain ⟨q', served', second, calm'⟩ := abreast.second.serve op
  rw [← abreast.content] at served' calm'
  refine ⟨_, p', q', served, served', ⟨first, second, ?_, ?_, ?_, ?_⟩, calm.counters,
    calm'.counters⟩
  · rw [calm.content, calm'.content, abreast.content]
  · exact calm.capacity.trans abreast.room
  · exact calm'.capacity.trans abreast.room'
  · have fits := abreast.first.intact.length_toList
    rw [abreast.room] at fits
    rw [calm.pairs, calm'.pairs, abreast.content, abreast.room, abreast.room']
    exact Recency.settle_isPrefix abreast.pairs fits (Nat.le_refl _) op _

end Pool

/-! ## One request -/

namespace Api

/-- The operation that a request asks for, if it asks for one. -/
def operation? (r : Http.Request) : Option Operation :=
  if r.resource.path = "/api/kv" then requested r else none

theorem method_of_requested {r : Http.Request} {op : Operation} (asked : requested r = some op) :
    r.method ∈ ["POST", "GET", "HEAD", "DELETE"] := by
  unfold requested at asked
  cases served : Endpoint.pairs.service? r.method with
  | none =>
      rw [served] at asked
      cases asked
  | some service =>
      refine Decidable.byContradiction fun other => ?_
      rcases Endpoint.observing served fun here => other here.2 with rfl | rfl
      all_goals
        rw [served] at asked
        cases asked

theorem operation?_eq_some_iff {r : Http.Request} {op : Operation} :
    operation? r = some op ↔ Asks r op := by
  constructor
  · intro asked
    unfold operation? at asked
    split at asked
    · next path =>
        obtain ⟨other, asks⟩ := exists_asks path (method_of_requested asked)
        cases asks.requested.symm.trans asked
        exact asks
    · cases asked
  · intro asks
    have path : r.resource.path = "/api/kv" := by cases asks <;> assumption
    rw [operation?, if_pos path, asks.requested]

theorem elsewhere_of_operation? {r : Http.Request} (silent : operation? r = none) :
    ¬ (r.resource.path = "/api/kv" ∧ r.method ∈ ["POST", "GET", "HEAD", "DELETE"]) := by
  rintro ⟨path, method⟩
  obtain ⟨op, asks⟩ := exists_asks path method
  cases silent.symm.trans (operation?_eq_some_iff.mpr asks)

variable {σ γ : Type}

/-- The events that a request counts in a pool. -/
def counted (r : Http.Request) (p : Pool σ γ) : List Counter :=
  match operation? r with
  | some op => op.counts (p.shared.cache.peek op.key)
  | none => []

/-- A request counts what its operation counts. -/
theorem counted_of_asks {r : Http.Request} {op : Operation} (asks : Asks r op)
    (p : Pool σ γ) : counted r p = op.counts (p.shared.cache.peek op.key) := by
  rw [counted, operation?_eq_some_iff.mpr asks]

/-- A request counts once if it asks for an operation, and as a hit at most once. -/
theorem count_counted (r : Http.Request) (p : Pool σ γ) :
    (counted r p).count .request = (if (operation? r).isSome then 1 else 0) ∧
      (counted r p).count .hit ≤ (counted r p).count .request := by
  unfold counted
  cases operation? r with
  | none => exact ⟨rfl, Nat.le_refl _⟩
  | some op =>
      obtain ⟨events, few, none, counts⟩ := op.counts_eq (p.shared.cache.peek op.key)
      have one : events.count .hit ≤ 1 := Nat.le_trans List.count_le_length few
      have other : Counter.request ≠ .hit := nofun
      dsimp only
      rw [counts, List.count_cons_self, List.count_eq_zero_of_not_mem none,
        List.count_cons_of_ne other]
      exact ⟨rfl, one⟩

/-- Two pools abreast give the same answer to any request but one for the counters, and are abreast
again. The first has no more hits. -/
theorem handle_abreast {p q : Pool Table Unit} {capacity : Nat}
    (abreast : Pool.Abreast capacity p q) {r : Http.Request}
    (unobserved : r.resource.path ≠ "/stats") (now : String) : ∃ response p' q',
      (handle Memory.backend now r p).value = (response, p') ∧
      (handle Memory.backend now r q).value = (response, q') ∧ Pool.Abreast capacity p' q' ∧
      p'.shared.counters = p.shared.counters.recordAll (counted r p) ∧
      q'.shared.counters = q.shared.counters.recordAll (counted r q) ∧
      (counted r p).count .hit ≤ (counted r q).count .hit := by
  cases asked : operation? r with
  | none =>
      obtain ⟨response, handled, same⟩ :=
        handle_aside (elsewhere_of_operation? asked) Memory.backend now
      have nothing : ∀ p : Pool Table Unit, counted r p = [] := fun p => by rw [counted, asked]
      rw [handled, handled, nothing, nothing]
      exact ⟨response p, p, q, rfl, congrArg (·, q) (same unobserved q p), abreast, rfl, rfl,
        Nat.le_refl _⟩
  | some op =>
      have asks : Asks r op := operation?_eq_some_iff.mp asked
      have handled := handle_serves asks Memory.backend now
      obtain ⟨outcome, p', q', served, served', abreast', counters, counters'⟩ := abreast.serve op
      refine ⟨finish r (respond op.key (context op) (success op) (.ok outcome)), p', q', ?_, ?_,
        abreast', ?_⟩
      · rw [handled]
        simp only [Logged.value_bind, served, Logged.value_pure]
      · rw [handled]
        simp only [Logged.value_bind, served', Logged.value_pure]
      · rw [counted_of_asks asks, counted_of_asks asks]
        exact ⟨counters, counters', (op.counts_of_held (abreast.held op.key)).1⟩

end Api

end CacheAside
