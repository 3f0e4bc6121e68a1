import CacheAside.Proofs.Dispatch.Deployment
import CacheAside.Proofs.Dispatch.Origin

/-!
# The cache shows in no outcome

A run over the store in memory, in which any request may meet a fault, is compared with a map
without a cache that takes exactly the writes and deletes that were answered Ok. Apart from what
the faults themselves come to, each outcome is the one that the operation has on the map, and the
store is that map after every step: `InMemory.outcomes_without_cache`.

The invariant is `InMemory.Mirrors`: the store is the map, and every cached pair is a pair of it.
-/

namespace CacheAside

/-- A map from keys to values, and nothing else. -/
abbrev Plain := Key → Option Value

namespace Plain

def set (p : Plain) (key : Key) (value : Option Value) : Plain :=
  fun other => if other = key then value else p other

/-- The outcome that an operation has on the map. -/
def outcome (p : Plain) (op : Operation) : Outcome :=
  if op.key = "" then ⟨.validationError, none⟩
  else match op with
    | .read key => .ofRead (p key)
    | .write _ (some _) => ⟨.ok, none⟩
    | .write _ none => ⟨.validationError, none⟩
    | .delete _ => ⟨.ok, none⟩

/-- What an operation that succeeds makes of the map. -/
def apply (p : Plain) : Operation → Plain
  | .read _ => p
  | .write _ none => p
  | .write key (some value) => p.set key (some value)
  | .delete key => p.set key none

/-- Applies an operation if it was answered Ok. -/
def settle (p : Plain) (op : Operation) (result : Result) : Plain :=
  if result.isOk then p.apply op else p

def replay (p : Plain) (history : List (Operation × Result)) : Plain :=
  history.foldl (fun p (op, result) => p.settle op result) p

theorem settle_of_failed {result : Result} (failed : result.isOk = false) (p : Plain)
    (op : Operation) : p.settle op result = p := by
  rw [settle, failed]
  rfl

/-- What the map refuses is what a dispatch refuses. -/
theorem outcome_of_invalid (p : Plain) {op : Operation}
    (invalid : op.key = "" ∨ op.request = none) : p.outcome op = ⟨.validationError, none⟩ := by
  rcases invalid with unnamed | silent
  · exact if_pos unnamed
  · rcases op with key | ⟨key, _ | value⟩ | key
    · cases silent
    · exact ite_self _
    · cases silent
    · cases silent

theorem status_outcome (p : Plain) (op : Operation) : (p.outcome op).status ≠ .backendError := by
  unfold outcome
  by_cases unnamed : op.key = ""
  · rw [if_pos unnamed]
    exact nofun
  · rw [if_neg unnamed]
    rcases op with key | ⟨key, _ | value⟩ | key
    · dsimp only
      cases p key <;> exact nofun
    · exact nofun
    · exact nofun
    · exact nofun

end Plain

namespace Dispatch

variable {s s' : Shared} {c c' : Unit} {f f' : Faulty Table} {op : Operation} {result : Result}
  {p : Plain}

/-- The store takes what an operation answered Ok makes of it, and nothing else. -/
theorem Ending.settles
    (ending : Ending Memory.backend.faulty.answering s (c, f) op (result, s', c', f'))
    {key : Key} (same : f.store[key]? = p key) : f'.store[key]? = p.settle op result key := by
  cases ending with
  | refused _ => exact same
  | hit _ _ => exact same
  | filled _ _ replied =>
      obtain ⟨-, -, after⟩ := Memory.found_of_answered replied
      cases after
      exact same
  | absent _ _ replied =>
      obtain ⟨-, -, after⟩ := Memory.found_of_answered replied
      cases after
      exact same
  | @written own value _ _ _ replied =>
      obtain ⟨-, -, after⟩ := Memory.served_of_answered replied
      cases after
      refine (Table.getElem?_insert f.store own key value).trans ?_
      rw [same]
      rfl
  | @deleted own _ _ _ replied =>
      obtain ⟨-, -, after⟩ := Memory.served_of_answered replied
      cases after
      refine (Table.getElem?_erase f.store own key).trans ?_
      rw [same]
      rfl
  | failed _ _ _ replied trouble =>
      obtain ⟨-, after⟩ := Memory.struck_of_trouble replied trouble
      cases after
      rw [Plain.settle_of_failed (Reply.isOk_trouble trouble)]
      exact same

/-- An operation has the outcome that it has on the map, unless a fault strikes its request. -/
theorem Ending.outcome
    (ending : Ending Memory.backend.faulty.answering s (c, f) op (result, s', c', f'))
    (same : f.store[op.key]? = p op.key)
    (coherent : ∀ value, s.cache.peek op.key = some value → p op.key = some value) :
    result = .answered (p.outcome op) ∨
      ∃ r fault, f.fault? r = some fault ∧ fault.reply.trouble = some result := by
  cases ending with
  | refused invalid =>
      rw [Plain.outcome_of_invalid p invalid]
      exact .inl rfl
  | @hit key value named cached =>
      have content : p key = some value := coherent value cached
      rw [Plain.outcome, Operation.key, if_neg named, content]
      exact .inl rfl
  | @filled key value _ named _ replied =>
      obtain ⟨-, stored, -⟩ := Memory.found_of_answered replied
      have content : p key = some value := same.symm.trans stored
      rw [Plain.outcome, Operation.key, if_neg named, content]
      exact .inl rfl
  | @absent key _ named _ replied =>
      obtain ⟨-, stored, -⟩ := Memory.found_of_answered replied
      have content : p key = none := same.symm.trans stored
      rw [Plain.outcome, Operation.key, if_neg named, content]
      exact .inl rfl
  | written named _ =>
      rw [Plain.outcome, Operation.key, if_neg named]
      exact .inl rfl
  | deleted named _ =>
      rw [Plain.outcome, Operation.key, if_neg named]
      exact .inl rfl
  | failed _ _ _ replied trouble =>
      obtain ⟨⟨fault, struck, rfl⟩, -⟩ := Memory.struck_of_trouble replied trouble
      exact .inr ⟨_, fault, struck, trouble⟩

end Dispatch

/-- One step of a run: an operation, the connection it is sent over, and the fault that strikes its
request, if any does. -/
structure Turn (n : Nat) where
  connection : Fin n
  op : Operation
  fault : Option Fault := none
  deriving DecidableEq, Repr

namespace InMemory

variable {n : Nat} {d : InMemory n} {p : Plain}

/-- Lets this fault, or none, strike every request from now on. -/
def struck (d : InMemory n) (fault : Option Fault) : InMemory n :=
  { d with store := d.store.struck fault }

def take (d : InMemory n) (turn : Turn n) : Result × InMemory n :=
  (d.struck turn.fault).carryOut turn.connection turn.op

/-- Takes turns one after the other, and collects what the operations came to. -/
def takeAll (d : InMemory n) : List (Turn n) → List (Operation × Result) × InMemory n
  | [] => ([], d)
  | turn :: turns =>
    let (result, d) := d.take turn
    let (later, d) := d.takeAll turns
    ((turn.op, result) :: later, d)

theorem takeAll_cons (d : InMemory n) (turn : Turn n) (turns : List (Turn n)) :
    d.takeAll (turn :: turns) = ((turn.op, (d.take turn).1) :: ((d.take turn).2.takeAll turns).1,
      ((d.take turn).2.takeAll turns).2) := rfl

/-- The store is the map, and every cached pair is one of its pairs. -/
structure Mirrors (d : InMemory n) (p : Plain) : Prop where
  intact : d.shared.cache.Intact
  same : ∀ key, d.stored key = p key
  coherent : ∀ key value, d.cached key = some value → p key = some value

/-- One turn has the outcome that its operation has on the map, or what its fault comes to, and it
leaves a store and a cache that mirror the map again. -/
theorem Mirrors.take (mirrors : d.Mirrors p) (turn : Turn n) :
    ((d.take turn).1 = .answered (p.outcome turn.op) ∨
      ∃ fault, turn.fault = some fault ∧ fault.reply.trouble = some (d.take turn).1) ∧
      (d.take turn).2.Mirrors (p.settle turn.op (d.take turn).1) := by
  have intact : (d.struck turn.fault).shared.cache.Intact := mirrors.intact
  have ending := InMemory.ending intact turn.connection turn.op
  have same : ∀ key, (d.struck turn.fault).store.store[key]? = p key := by
    intro key
    rw [struck, Faulty.store_struck]
    exact mirrors.same key
  have settled := fun key => ending.settles (same key)
  refine ⟨?_, ending.intact mirrors.intact, settled, ?_⟩
  · rcases ending.outcome (same _) (mirrors.coherent _) with plain | ⟨r, fault, struck, trouble⟩
    · exact .inl plain
    · exact .inr ⟨fault, (Faulty.fault?_struck d.store turn.fault r).symm.trans struck, trouble⟩
  · intro key value holds
    refine (settled key).symm.trans ?_
    -- A new pair is in the store already; an older one was in the map, and so in the store.
    rcases ending.origin mirrors.intact holds with ⟨-, stores⟩ | ⟨-, before, unchanged⟩
    · exact stores
    · rw [unchanged, same key]
      exact mirrors.coherent key value before

/-- The store mirrors the map after any run of turns. -/
theorem Mirrors.takeAll (mirrors : d.Mirrors p) (turns : List (Turn n)) :
    (d.takeAll turns).2.Mirrors (p.replay (d.takeAll turns).1) := by
  induction turns generalizing d p with
  | nil => exact mirrors
  | cons turn turns ih => exact ih (mirrors.take turn).2

/-- Whatever turns have been taken from an empty cache on: the next operation, if it does not end
with the store's failure, has the outcome that it has on the map of what was answered Ok so far,
and the store is that map again after it. If no fault strikes it, it does not end so. -/
theorem outcomes_without_cache {capacity : Nat} (positive : 0 < capacity)
    (connections : Vector Unit n) (store : Faulty Table) (before : List (Turn n)) (turn : Turn n) :
    let run := (fresh capacity connections store).takeAll before
    let plain := Plain.replay (fun key => store.store[key]?) run.1
    let step := run.2.take turn
    (∀ outcome, step.1 = .answered outcome → outcome.status ≠ .backendError →
      outcome = plain.outcome turn.op) ∧
      (∀ key, step.2.stored key = plain.settle turn.op step.1 key) ∧
      (turn.fault = none → ∃ outcome, step.1 = .answered outcome ∧
        outcome.status ≠ .backendError) := by
  intro run plain step
  have start : (fresh capacity connections store).Mirrors (fun key => store.store[key]?) := by
    refine ⟨intact_fresh positive connections store, fun _ => rfl, fun key value holds => ?_⟩
    cases (cached_fresh capacity connections store key).symm.trans holds
  obtain ⟨outcomes, mirrors⟩ := (start.takeAll before).take turn
  refine ⟨?_, mirrors.same, ?_⟩
  · intro outcome answered working
    rcases outcomes with same | ⟨fault, -, trouble⟩
    · exact Result.answered.inj (answered.symm.trans same)
    · have trouble : fault.reply.trouble = some (.answered outcome) := answered ▸ trouble
      cases fault with
      | error _ =>
          cases trouble
          exact (working rfl).elim
      | crash _ => cases trouble
  · intro quiet
    rcases outcomes with same | ⟨fault, struck, -⟩
    · exact ⟨_, same, Plain.status_outcome _ _⟩
    · cases quiet.symm.trans struck

/-- The second write displaces the first pair, and neither failed request changes anything: the
displaced pair is read back, and the other one is still stored. -/
theorem outcomes_without_cache_displacing :
    0 < 1 ∧
      let run := (fresh 1 #v[(), ()] { store := {} }).takeAll [⟨0, .write "a" (some "1"), none⟩,
        ⟨1, .write "b" (some "2"), none⟩,
        ⟨0, .write "a" (some "3"), some (.error (.command "full"))⟩,
        ⟨1, .delete "b", some (.crash "down")⟩]
      let step := run.2.take ⟨0, .read "a", none⟩
      step.1 = .answered (.found "1") ∧ step.2.stored "b" = some "2" := by
  obtain ⟨outcomes, stores, answers⟩ := outcomes_without_cache (by decide : 0 < 1) #v[(), ()]
    { store := {} } [⟨0, .write "a" (some "1"), none⟩, ⟨1, .write "b" (some "2"), none⟩,
      ⟨0, .write "a" (some "3"), some (.error (.command "full"))⟩,
      ⟨1, .delete "b", some (.crash "down")⟩] ⟨0, .read "a", none⟩
  obtain ⟨outcome, answered, working⟩ := answers rfl
  refine ⟨by decide, ?_, ?_⟩
  · rw [answered, outcomes outcome answered working]
    decide
  · refine (stores "b").trans ?_
    decide

end InMemory

end CacheAside
