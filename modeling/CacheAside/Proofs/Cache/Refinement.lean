import CacheAside.Proofs.Cache.Operations

/-!
# A cache is its recency order

Whatever is called on a cache, in whatever order, the arena and the list model of `Recency` return
the same and stay the same list of pairs. `Cache.run_refines_recency` is the statement for runs;
`Cache.Intact.perform_refines` is one step of it.
-/

namespace CacheAside

namespace Cache

/-- A call of an operation or of an observer. -/
inductive Call
  | put (key : Key) (value : Value)
  | get (key : Key)
  | erase (key : Key)
  | peek (key : Key)
  | contains (key : Key)
  | size
  | isEmpty
  | keys
  deriving DecidableEq, Repr

/-- What a call returns. -/
inductive Return
  /-- The key that a pair displaced. -/
  | displaced (key : Option Key)
  | found (value : Option Value)
  /-- The answer to a question about the cache before or after the call. -/
  | whether (answer : Bool)
  | count (n : Nat)
  | listed (keys : List Key)
  deriving DecidableEq, Repr

/-- Makes one call. Observers return the cache as it was. -/
def perform (c : Cache) : Call → Return × Cache
  | .put key value => (c.put key value).map .displaced id
  | .get key => (c.get key).map .found id
  | .erase key => (c.erase key).map .whether id
  | .peek key => (.found (c.peek key), c)
  | .contains key => (.whether (c.contains key), c)
  | .size => (.count c.size, c)
  | .isEmpty => (.whether c.isEmpty, c)
  | .keys => (.listed c.keys, c)

/-- Makes calls one after the other, and collects what they return. -/
def runCalls {σ : Type} (perform : σ → Call → Return × σ) : σ → List Call → List Return × σ
  | s, [] => ([], s)
  | s, call :: calls =>
    let (returned, s) := perform s call
    let (later, s) := runCalls perform s calls
    (returned :: later, s)

end Cache

/-- One call on the list model. The observers read the list. -/
def Recency.perform (capacity : Nat) (r : Recency) : Cache.Call → Cache.Return × Recency
  | .put key value => (r.put capacity key value).map .displaced id
  | .get key => (r.get key).map .found id
  | .erase key => (r.erase key).map .whether id
  | .peek key => (.found (r.peek key), r)
  | .contains key => (.whether (r.peek key).isSome, r)
  | .size => (.count r.length, r)
  | .isEmpty => (.whether r.isEmpty, r)
  | .keys => (.listed r.keys, r)

namespace Cache

variable {c : Cache} {capacity : Nat}

theorem capacity_erase (c : Cache) (key : Key) : (c.erase key).2.capacity = c.capacity := by
  unfold erase
  split
  · rfl
  · exact (relinked_unlink _ _).capacity

/-- No call changes the capacity. -/
theorem capacity_perform (c : Cache) (call : Call) : (c.perform call).2.capacity = c.capacity := by
  cases call with
  | put key value => exact capacity_put c key value
  | get key => exact capacity_get c key
  | erase key => exact capacity_erase c key
  | peek | contains | size | isEmpty | keys => rfl

/-- One call returns what the list model returns, and changes the list of pairs in the same way. -/
theorem Intact.perform_refines (intact : c.Intact) (call : Call) :
    (c.perform call).2.Intact ∧ ((c.perform call).1, (c.perform call).2.toList) =
      Recency.perform c.capacity c.toList call := by
  cases call with
  | put key value =>
      obtain ⟨after, refines⟩ := intact.put_refines key value
      exact ⟨after, congrArg (Prod.map Return.displaced id) refines⟩
  | get key =>
      obtain ⟨after, refines⟩ := intact.get_refines key
      exact ⟨after, congrArg (Prod.map Return.found id) refines⟩
  | erase key =>
      obtain ⟨after, refines⟩ := intact.erase_refines key
      exact ⟨after, congrArg (Prod.map Return.whether id) refines⟩
  | peek key =>
      rw [perform, Recency.perform, intact.peek_eq]
      exact ⟨intact, rfl⟩
  | contains key =>
      rw [perform, Recency.perform, intact.contains_eq, intact.peek_eq]
      exact ⟨intact, rfl⟩
  | size =>
      rw [perform, Recency.perform, intact.size_eq]
      exact ⟨intact, rfl⟩
  | isEmpty =>
      rw [perform, Recency.perform, intact.isEmpty_eq]
      exact ⟨intact, rfl⟩
  | keys => exact ⟨intact, rfl⟩

/-- The list after a call is the one that the list model has after it. -/
theorem Intact.toList_perform (intact : c.Intact) (call : Call) :
    (c.perform call).2.toList = (Recency.perform c.capacity c.toList call).2 :=
  congrArg Prod.snd (intact.perform_refines call).2

theorem runCalls_append {σ : Type} (perform : σ → Call → Return × σ) (s : σ)
    (first later : List Call) :
    (runCalls perform s (first ++ later)).2 =
      (runCalls perform (runCalls perform s first).2 later).2 := by
  induction first generalizing s with
  | nil => rfl
  | cons call first ih => exact ih (perform s call).2

theorem capacity_runCalls (c : Cache) (calls : List Call) :
    (runCalls perform c calls).2.capacity = c.capacity := by
  induction calls generalizing c with
  | nil => rfl
  | cons call calls ih => exact (ih (c.perform call).2).trans (capacity_perform c call)

/-- Calls in a row return what they return on the list model and leave its list. -/
theorem Intact.runCalls_refines (intact : c.Intact) (calls : List Call) :
    (runCalls perform c calls).2.Intact ∧
      ((runCalls perform c calls).1, (runCalls perform c calls).2.toList) =
        runCalls (Recency.perform c.capacity) c.toList calls := by
  induction calls generalizing c with
  | nil => exact ⟨intact, rfl⟩
  | cons call calls ih =>
      obtain ⟨after, refines⟩ := intact.perform_refines call
      obtain ⟨later, rest⟩ := ih after
      rw [capacity_perform] at rest
      refine ⟨later, ?_⟩
      rw [runCalls, runCalls, ← refines]
      dsimp only
      rw [← rest]

/-- Every run of calls on a new cache returns what it returns on the list model, which starts with
no pairs. Since the run is arbitrary, its end is any moment of any run: there the cache lists the
model's pairs and keys in the model's order, and has the model's value for every key. -/
theorem run_refines_recency (positive : 0 < capacity) (calls : List Call) :
    ∃ c, create capacity = .ok c ∧
      let real := runCalls perform c calls
      let model := runCalls (Recency.perform capacity) [] calls
      real.1 = model.1 ∧ real.2.toList = model.2 ∧ real.2.keys = model.2.keys ∧
        ∀ key, real.2.peek key = model.2.peek key := by
  have created : create capacity = .ok (empty capacity) := if_neg (Nat.ne_of_gt positive)
  obtain ⟨intact, refines⟩ := (Intact.empty positive).runCalls_refines calls
  have model : runCalls (Recency.perform capacity) [] calls = _ := refines.symm
  refine ⟨empty capacity, created, ?_⟩
  rw [model]
  exact ⟨rfl, rfl, rfl, intact.peek_eq⟩

/-- A read saves the older of two pairs from being displaced, and its slot is used again. -/
theorem run_refines_recency_displacing :
    0 < 2 ∧ ∃ c, create 2 = .ok c ∧
      (runCalls perform c [.put "a" "1", .put "b" "2", .get "a", .put "c" "3", .erase "a",
        .put "d" "4", .peek "b", .keys]).1 =
        [.displaced none, .displaced none, .found (some "1"), .displaced (some "b"), .whether true,
          .displaced none, .found none, .listed ["d", "c"]] := by
  obtain ⟨c, created, returned, -⟩ := run_refines_recency (by decide : 0 < 2)
    [.put "a" "1", .put "b" "2", .get "a", .put "c" "3", .erase "a", .put "d" "4", .peek "b", .keys]
  refine ⟨by decide, c, created, returned.trans ?_⟩
  decide

end Cache

end CacheAside
