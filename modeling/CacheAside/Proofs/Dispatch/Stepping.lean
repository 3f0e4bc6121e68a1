import CacheAside.Proofs.Cache.Refinement
import CacheAside.Proofs.Dispatch.Uninterrupted

/-!
# One step of a task

`Task.Step` lists what a step of a task can come to, over any store: the task that is left, the
shared state and the store. `Task.step_cases` shows that there is nothing else.

A task that is `committed` has been served by the store as far as it needs it: it ends with an
outcome. The others have changed neither the cache nor a store that breaks down before it does
anything (`Task.Step.untouched`).
-/

namespace CacheAside

namespace Task

variable {τ : Type}

/-- The request that the next step sends to the store. -/
def request : Task → Option Request
  | .fetching key => some (.get key)
  | .storing key value => some (.put key value)
  | .removing key => some (.delete key)
  | _ => none

/-- Whether the operation has not been counted yet. -/
def isBegun : Task → Bool
  | .begun _ => true
  | _ => false

/-- Whether the store has served the task as far as it needs it. -/
def committed : Task → Bool
  | .filling .. | .adopting .. | .forgetting _ | .ended (.answered _) => true
  | _ => false

inductive Step (store : Answering τ) (s : Shared) (t : τ) : Task → Task × Shared × τ → Prop
  | begun (op : Operation) : Step store s t (.begun op) (plan op, s.count .request, t)
  | hit {key : Key} {value : Value} (cached : s.cache.peek key = some value) :
    Step store s t (.finding key) (.ended (.answered (.found value)),
      { s.count .hit with cache := (s.cache.get key).2 }, t)
  | missed {key : Key} (uncached : s.cache.peek key = none) :
    Step store s t (.finding key) (.fetching key, s.count .miss, t)
  | fetched {key : Key} {value : Value} {t' : τ}
      (replied : (store (.get key) t).value = (.answered (some value), t')) :
    Step store s t (.fetching key) (.filling key value, s, t')
  | absent {key : Key} {t' : τ} (replied : (store (.get key) t).value = (.answered none, t')) :
    Step store s t (.fetching key) (.ended (.answered ⟨.notFound, none⟩), s, t')
  | filled (key : Key) (value : Value) :
    Step store s t (.filling key value) (.ended (.answered (.found value)),
      { s with cache := (s.cache.put key value).2 }, t)
  | stored {key : Key} {value : Value} {answer : Option Value} {t' : τ}
      (replied : (store (.put key value) t).value = (.answered answer, t')) :
    Step store s t (.storing key value) (.adopting key value, s, t')
  | adopted (key : Key) (value : Value) :
    Step store s t (.adopting key value) (.ended (.answered ⟨.ok, none⟩),
      { s with cache := (s.cache.put key value).2 }, t)
  | removed {key : Key} {answer : Option Value} {t' : τ}
      (replied : (store (.delete key) t).value = (.answered answer, t')) :
    Step store s t (.removing key) (.forgetting key, s, t')
  | forgotten (key : Key) :
    Step store s t (.forgetting key) (.ended (.answered ⟨.ok, none⟩),
      { s with cache := (s.cache.erase key).2 }, t)
  | failed {task : Task} {r : Request} {reply : Reply} {result : Result} {t' : τ}
      (asked : task.request = some r) (replied : (store r t).value = (reply, t'))
      (trouble : reply.trouble = some result) : Step store s t task (.ended result, s, t')
  | ended (result : Result) : Step store s t (.ended result) (.ended result, s, t)

variable {store : Answering τ} {s s' : Shared} {t t' : τ} {task task' : Task}

/-- What asking the store comes to, told by its reply. -/
theorem ask_cases (store : Answering τ) (r : Request) (next : Option Value → Task) :
    (∃ answer t', (store r t).value = (.answered answer, t') ∧
      (ask store r next s t).value = (next answer, s, t')) ∨
    ∃ reply result t', (store r t).value = (reply, t') ∧ reply.trouble = some result ∧
      (ask store r next s t).value = (.ended result, s, t') := by
  unfold ask
  rcases replied : (store r t).value with ⟨answer | cause | text, t'⟩
  · refine .inl ⟨answer, t', rfl, ?_⟩
    simp only [Logged.value_bind, replied, Logged.value_pure]
  · refine .inr ⟨_, _, t', rfl, rfl, ?_⟩
    simp only [Logged.value_bind, replied, Logged.value_pure]
    rfl
  · refine .inr ⟨_, _, t', rfl, rfl, ?_⟩
    simp only [Logged.value_bind, replied, Logged.value_pure]

/-- A lookup ends the task with a hit, or goes on to ask the store. -/
theorem step_finding (intact : s.cache.Intact) (store : Answering τ) (key : Key) (t : τ) :
    Step store s t (.finding key) (step store (.finding key) s t).value := by
  rw [step, Shared.find]
  cases cached : s.cache.peek key with
  | some value =>
      obtain ⟨-, found, -⟩ := intact.get_holds key
      have here : s.cache.get key = (some value, (s.cache.get key).2) :=
        Prod.ext (found.trans cached) rfl
      rw [here]
      exact .hit cached
  | none =>
      rw [intact.get_uncached cached]
      exact .missed cached

/-- Over an intact cache every step comes to one of these. -/
theorem step_cases (intact : s.cache.Intact) (store : Answering τ) (task : Task) (t : τ) :
    Step store s t task (task.step store s t).value := by
  cases task with
  | begun op => exact .begun op
  | finding key => exact step_finding intact store key t
  | fetching key =>
      unfold step
      dsimp only
      rcases ask_cases store (.get key) _ with
        ⟨_ | value, t', replied, asked⟩ | ⟨reply, result, t', replied, trouble, asked⟩
      · rw [asked]
        exact .absent replied
      · rw [asked]
        exact .fetched replied
      · rw [asked]
        exact .failed rfl replied trouble
  | filling key value =>
      rw [step, Shared.keep]
      simp only [Logged.value_bind, Cache.value_keep, Logged.value_pure]
      exact .filled key value
  | storing key value =>
      unfold step
      rcases ask_cases store (.put key value) _ with
        ⟨answer, t', replied, asked⟩ | ⟨reply, result, t', replied, trouble, asked⟩
      · rw [asked]
        exact .stored replied
      · rw [asked]
        exact .failed rfl replied trouble
  | adopting key value =>
      rw [step, Shared.keep]
      simp only [Logged.value_bind, Cache.value_keep, Logged.value_pure]
      exact .adopted key value
  | removing key =>
      unfold step
      rcases ask_cases store (.delete key) _ with
        ⟨answer, t', replied, asked⟩ | ⟨reply, result, t', replied, trouble, asked⟩
      · rw [asked]
        exact .removed replied
      · rw [asked]
        exact .failed rfl replied trouble
  | forgetting key => exact .forgotten key
  | ended result => exact .ended result

theorem isBegun_plan (op : Operation) : (plan op).isBegun = false := by
  rcases op.valid_cases with invalid | ⟨key, named, rfl | ⟨value, rfl⟩ | rfl⟩
  · rw [plan_of_invalid invalid]
    rfl
  · rw [plan_read named]
    rfl
  · rw [plan_write named]
    rfl
  · rw [plan_delete named]
    rfl

/-- The number of steps that a task can still make. -/
def left : Task → Nat
  | .begun _ => longest
  | .finding _ => 3
  | .fetching _ | .storing .. | .removing _ => 2
  | .filling .. | .adopting .. | .forgetting _ => 1
  | .ended _ => 0

theorem left_plan (op : Operation) : (plan op).left < longest := by
  rcases op.valid_cases with invalid | ⟨key, named, rfl | ⟨value, rfl⟩ | rfl⟩
  · rw [plan_of_invalid invalid]
    simp [left, longest]
  · rw [plan_read named]
    simp [left, longest]
  · rw [plan_write named]
    simp [left, longest]
  · rw [plan_delete named]
    simp [left, longest]

namespace Step

/-- No dispatch begins twice. -/
theorem isBegun (step : Step store s t task (task', s', t')) : task'.isBegun = false := by
  cases step with
  | begun op => exact isBegun_plan op
  | hit | missed | fetched | absent | filled | stored | adopted | removed | forgotten | failed
  | ended => rfl

theorem intact (step : Step store s t task (task', s', t')) (before : s.cache.Intact) :
    s'.cache.Intact := by
  cases step with
  | hit cached => exact (before.get_holds _).1
  | filled key value => exact (before.put_refines key value).1
  | adopted key value => exact (before.put_refines key value).1
  | forgotten key => exact (before.erase_holds key).1
  | begun | missed | fetched | absent | stored | removed | failed | ended => exact before

theorem capacity (step : Step store s t task (task', s', t')) :
    s'.cache.capacity = s.cache.capacity := by
  cases step with
  | hit _ => exact Cache.capacity_get _ _
  | filled key value | adopted key value => exact Cache.capacity_put _ _ _
  | forgotten key => exact Cache.capacity_erase _ _
  | begun | missed | fetched | absent | stored | removed | failed | ended => rfl

/-- The first step of a task counts the request, and no other step does. -/
theorem requests (step : Step store s t task (task', s', t')) :
    s'.counters.requests = s.counters.requests + if task.isBegun then 1 else 0 := by
  cases step with
  | begun op => rfl
  | failed asked _ _ =>
      have underway : task.isBegun = false := by
        cases task <;> cases asked <;> rfl
      rw [underway]
      exact (UInt64.add_zero _).symm
  | hit | missed | fetched | absent | filled | stored | adopted | removed | forgotten | ended =>
      exact (UInt64.add_zero _).symm

/-- A task that is committed stays so. -/
theorem committed (step : Step store s t task (task', s', t')) (before : task.committed = true) :
    task'.committed = true := by
  cases step with
  | failed asked _ _ => cases task <;> cases asked <;> cases before
  | begun | hit | missed | fetched | stored | removed => cases before
  | absent | filled | adopted | forgotten => rfl
  | ended result => exact before

/-- As long as a task can still break down, it has left the cache alone, and all that is looked at
of a store that breaks down only before it is touched. -/
theorem untouched {α : Type} (look : τ → α) (step : Step store s t task (task', s', t'))
    (early : ∀ {r t text t'}, (store r t).value = (.crashed text, t') → look t' = look t)
    (uncommitted : task'.committed = false) : s'.cache = s.cache ∧ look t' = look t := by
  cases step with
  | @failed _ _ reply _ _ asked replied trouble =>
      cases reply with
      | answered answer => cases trouble
      | failed cause =>
          cases trouble
          cases uncommitted
      | crashed text => exact ⟨rfl, early replied⟩
  | begun | missed => exact ⟨rfl, rfl⟩
  | hit | fetched | absent | filled | stored | adopted | removed | forgotten => cases uncommitted
  | ended result => exact ⟨rfl, rfl⟩

/-- Each step leaves fewer to make. -/
theorem left_lt (step : Step store s t task (task', s', t'))
    (unfinished : ∀ result, task ≠ .ended result) : task'.left < task.left := by
  cases step with
  | begun op => exact left_plan op
  | failed asked _ _ => cases task <;> cases asked <;> simp [left]
  | ended result => exact absurd rfl (unfinished result)
  | hit | missed | fetched | absent | filled | stored | adopted | removed | forgotten =>
      simp [left]

end Step

end Task

end CacheAside
