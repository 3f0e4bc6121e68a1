import CacheAside.Proofs.Dispatch.Ending

/-!
# What is counted

Each dispatched operation counts a request and, if it is a read of a key, a hit or a miss by what
is cached under the key. The counters are words that wrap; `Operation.counts` lists the events that
they count, whose numbers do not, and `Counters.recordAll_eq` leads from one to the other.
-/

namespace CacheAside

/-- The events that an operation counts, by what is cached under its key. -/
def Operation.counts (op : Operation) (cached : Option Value) : List Counter :=
  match op with
  | .read key =>
    if key = "" then [.request] else [.request, if cached.isSome then .hit else .miss]
  | .write _ _ | .delete _ => [.request]

namespace Counters

def recordAll (c : Counters) (events : List Counter) : Counters := events.foldl record c

theorem recordAll_append (c : Counters) (first later : List Counter) :
    c.recordAll (first ++ later) = (c.recordAll first).recordAll later :=
  List.foldl_append

/-- Each counter has grown by the number of its events. -/
theorem recordAll_eq (c : Counters) (events : List Counter) :
    c.recordAll events =
      { requests := c.requests + .ofNat (events.count .request)
        hits := c.hits + .ofNat (events.count .hit)
        misses := c.misses + .ofNat (events.count .miss) } := by
  induction events generalizing c with
  | nil => simp [recordAll]
  | cons event events ih =>
      have rest : c.recordAll (event :: events) = (c.record event).recordAll events := rfl
      rw [rest, ih]
      have succ : ∀ n : Nat, UInt64.ofNat (n + 1) = 1 + UInt64.ofNat n := fun n => by
        rw [UInt64.ofNat_add, UInt64.add_comm]
        rfl
      cases event <;> simp [record, add, succ, UInt64.add_assoc]

end Counters

namespace Operation

/-- A read of a named key counts a request, and a hit or a miss by what is cached. -/
theorem counts_read {key : Key} (named : key ≠ "") (cached : Option Value) :
    (read key).counts cached = [.request, if cached.isSome then .hit else .miss] := if_neg named

theorem counts_of_invalid {op : Operation} (invalid : op.key = "" ∨ op.request = none)
    (cached : Option Value) : op.counts cached = [.request] := by
  rcases op with key | ⟨key, value⟩ | key
  · rcases invalid with unnamed | silent
    · exact if_pos unnamed
    · cases silent
  · rfl
  · rfl

/-- An operation counts one request and at most one event more, which is no request. -/
theorem counts_eq (op : Operation) (cached : Option Value) : ∃ events, events.length ≤ 1 ∧
    .request ∉ events ∧ op.counts cached = .request :: events := by
  rcases op.valid_cases with invalid | ⟨key, named, rfl | ⟨value, rfl⟩ | rfl⟩
  · exact ⟨[], by simp, by simp, counts_of_invalid invalid cached⟩
  · refine ⟨_, ?_, ?_, counts_read named cached⟩
    · simp
    · split <;> simp
  · exact ⟨[], by simp, by simp, rfl⟩
  · exact ⟨[], by simp, by simp, rfl⟩

end Operation

namespace Dispatch

variable {τ : Type} {store : Answering τ} {s s' : Shared} {t t' : τ} {op : Operation}
  {result : Result}

/-- Up to the time when the store is asked, all events of the operation are counted. -/
theorem counters_asking (named : op.key ≠ "")
    (uncached : ∀ key, op = .read key → s.cache.peek key = none) :
    (s.asking op).counters = s.counters.recordAll (op.counts (s.cache.peek op.key)) := by
  rcases op with key | ⟨key, value⟩ | key
  · have missing : s.cache.peek key = none := uncached key rfl
    have named : key ≠ "" := named
    rw [Operation.counts_read named, Operation.key, missing]
    rfl
  · rfl
  · rfl

/-- However an operation ends, it has counted the events of its key and no others. -/
theorem Ending.counters (ending : Ending store s t op (result, s', t')) :
    s'.counters = s.counters.recordAll (op.counts (s.cache.peek op.key)) := by
  cases ending with
  | refused invalid =>
      rw [Operation.counts_of_invalid invalid]
      rfl
  | @hit key value named cached =>
      rw [Operation.counts_read named, Operation.key, cached]
      rfl
  | filled named uncached _ => exact counters_asking named (by rintro _ ⟨⟩; exact uncached)
  | absent named uncached _ => exact counters_asking named (by rintro _ ⟨⟩; exact uncached)
  | written named _ => rfl
  | deleted named _ => rfl
  | failed named uncached _ _ _ => exact counters_asking named uncached

end Dispatch

end CacheAside
