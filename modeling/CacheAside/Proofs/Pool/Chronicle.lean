import CacheAside.Proofs.Pool.Delivery
import CacheAside.Proofs.Pool.Opening

/-!
# The chronicle of a pool

`Pool.Chronicle` is a life of a pool: its events in any order, and at any moment answers that are
handed out and changes of the store from outside. A chronicle keeps the log of that life and the
tickets of the operations under which the store has broken down, told by the replies of the store
alone (`Pool.broken?`).

`Pool.Recorded` says how the pool agrees with its chronicle: exactly the workers that have stopped
are told to have stopped, once each, and the store has broken down under as many operations, all
different, as there are workers that it has cost or is about to cost (`Chronicle.recorded`).
-/

namespace CacheAside

/-- Whether the code behind the connection has broken down. -/
def Reply.isCrash : Reply → Bool
  | .crashed _ => true
  | _ => false

namespace Worker

variable {γ : Type}

/-- Whether the worker has ended and given its connection back. -/
def isStopped : Worker γ → Bool
  | .stopped => true
  | _ => false

/-- Whether the worker has the job with this ticket and has not come to its end. -/
def pursues (ticket : Nat) : Worker γ → Bool
  | .busy _ (.ended _) _ => false
  | .busy own _ _ => own = ticket
  | _ => false

theorem pursues_busy {task : Task} (unfinished : ∀ result, task ≠ .ended result)
    (own ticket : Nat) (connection : γ) :
    (Worker.busy own task connection).pursues ticket = decide (own = ticket) := by
  cases task with
  | ended result => exact absurd rfl (unfinished result)
  | begun | finding | fetching | filling | storing | adopting | removing | forgetting => rfl

end Worker

/-- Keeping a pair says nothing of the workers. -/
theorem fates_keep (c : Cache) (key : Key) (value : Value) :
    fates (c.keep key value).events = [] := by
  unfold Cache.keep
  split <;> rfl

/-! ## Steps of a task -/

namespace Task

variable {τ : Type} {store : Answering τ} {s s' : Shared} {t t' : τ} {task task' : Task}

/-- Whether the store has broken down under the task. -/
def isCrashed : Task → Bool
  | .ended (.crashed _) => true
  | _ => false

theorem fates_ask (quiet : ∀ r t, fates (store r t).events = []) (r : Request)
    (next : Option Value → Task) : fates (ask store r next s t).events = [] := by
  unfold ask
  rw [Logged.events_bind, fates_append, quiet, List.nil_append]
  rcases (store r t).value with ⟨_ | _ | _, t'⟩
  · rfl
  · rfl
  · rfl

/-- No step of a task says anything of workers, unless the store does. -/
theorem fates_step (quiet : ∀ r t, fates (store r t).events = []) (task : Task) (s : Shared)
    (t : τ) : fates (task.step store s t).events = [] := by
  cases task with
  | begun op => rfl
  | finding key =>
      rw [step]
      split <;> rfl
  | fetching key => exact fates_ask quiet _ _
  | filling key value | adopting key value =>
      rw [step, Shared.keep]
      simp only [Logged.events_bind, Logged.events_pure, List.append_nil]
      exact fates_keep s.cache key value
  | storing key value => exact fates_ask quiet _ _
  | removing key => exact fates_ask quiet _ _
  | forgetting key => rfl
  | ended result => rfl

theorem isCrashed_plan (op : Operation) : (plan op).isCrashed = false := by
  rcases op.valid_cases with invalid | ⟨key, named, rfl | ⟨value, rfl⟩ | rfl⟩
  · rw [plan_of_invalid invalid]
    rfl
  · rw [plan_read named]
    rfl
  · rw [plan_write named]
    rfl
  · rw [plan_delete named]
    rfl

/-- A task breaks down exactly in a step whose request the store breaks down under. -/
theorem Step.isCrashed (step : Step store s t task (task', s', t'))
    (unfinished : ∀ result, task ≠ .ended result) :
    task'.isCrashed = task.request.any fun r => (store r t).value.1.isCrash := by
  cases step with
  | begun op => exact isCrashed_plan op
  | hit | missed | filled | adopted | forgotten => rfl
  | fetched replied | absent replied | stored replied | removed replied =>
      rw [request, Option.any_some, replied]
      rfl
  | @failed _ r reply result _ asked replied trouble =>
      rw [asked, Option.any_some, replied]
      cases reply with
      | answered answer => cases trouble
      | failed cause | crashed text =>
          cases trouble
          rfl
  | ended result => exact absurd rfl (unfinished result)

end Task

/-- What an event says of the workers. -/
def Action.fates : Action → List (Fate × Nat)
  | .stop w => [(.stopped, w)]
  | _ => []

namespace Pool

variable {σ γ : Type}

/-- The ticket of the operation under which the store breaks down in an event. -/
def broken? (b : Backend σ γ) (p : Pool σ γ) : Action → Option Nat
  | .work w =>
    match p.workers[w]? with
    | some (.busy ticket task connection) =>
      if task.request.any fun r => (b.call r connection p.store).value.1.isCrash then some ticket
      else none
    | _ => none
  | _ => none

/-- A life of a pool, with its log and with the tickets under which the store has broken down. -/
inductive Chronicle (b : Backend σ γ) (start : Pool σ γ) :
    List Event → List Nat → Pool σ γ → Prop
  | start : Chronicle b start [] [] start
  | event {log : List Event} {broken : List Nat} {p : Pool σ γ} {a : Action}
      {change : Logged (Pool σ γ)} (chronicle : Chronicle b start log broken p)
      (happens : p.act? b a = some change) :
    Chronicle b start (log ++ change.events) (broken ++ (p.broken? b a).toList) change.value
  /-- The answers to the last operations are handed out. -/
  | collected {log : List Event} {broken : List Nat} {p : Pool σ γ}
      (chronicle : Chronicle b start log broken p) (count : Nat) :
    Chronicle b start log broken (p.collect count).2
  /-- The store is changed from outside, or its faults are. -/
  | meanwhile {log : List Event} {broken : List Nat} {p : Pool σ γ}
      (chronicle : Chronicle b start log broken p) (change : σ → σ) :
    Chronicle b start log broken { p with store := change p.store }

variable {b : Backend σ γ} {start p p' : Pool σ γ} {a : Action} {log : List Event}
  {broken : List Nat} {n : Nat}

/-! ## What an event says of the workers -/

/-- An event says of the workers what its kind says, as the backend says nothing. -/
theorem fates_of_act? (discreet : b.Discreet) {change : Logged (Pool σ γ)}
    (happens : p.act? b a = some change) : fates change.events = a.fates := by
  cases a with
  | submit op =>
      cases happens
      rfl
  | enqueue | take | reply =>
      obtain ⟨p', -, rfl⟩ := Option.map_eq_some_iff.mp happens
      rfl
  | work w =>
      have works : p.work? b w = some change := happens
      unfold work? at works
      split at works
      · cases works
      · next ticket task connection unfinished busy =>
          cases works
          have answers : ∀ r t, fates (b.answering r t).events = [] :=
            fun r t => discreet.call r t.1 t.2
          have quiet := Task.fates_step answers task p.shared (connection, p.store)
          simp only [Logged.events_bind, Logged.events_pure, List.append_nil]
          exact quiet
      · cases works
  | close =>
      cases happens
      unfold close
      split <;> rfl
  | stop w =>
      have stops : p.stop? w = some change := happens
      unfold stop? at stops
      split at stops
      · cases stops
        rfl
      · cases stops

/-! ## How the pool agrees with its chronicle -/

/-- The number of places in which a ticket is whose operation has not come to its end. -/
def pending (p : Pool σ γ) (ticket : Nat) : Nat :=
  p.waiting.countP (·.ticket = ticket) + p.queue.countP (·.ticket = ticket) +
    p.workers.countP (Worker.pursues ticket)

structure Recorded (n : Nat) (log : List Event) (broken : List Nat) (p : Pool σ γ) : Prop where
  dead : p.isAlive = false → p.waiting = [] ∧ p.queue = []
  intact : p.shared.cache.Intact
  room : 0 < p.depth
  size : p.workers.length = n
  /-- Nothing is told but that the workers have stopped that have, once of each. -/
  told : ∀ fate w, (fates log).count (fate, w) =
    if fate = .stopped ∧ p.workers[w]?.any Worker.isStopped = true then 1 else 0
  /-- No operation has broken down that is still pending, nor has one broken down twice. -/
  once : ∀ ticket, broken.count ticket + p.pending ticket ≤ if ticket < p.tickets then 1 else 0
  lost : broken.length = p.workers.countP Worker.isBroken

theorem any_set_same {w : Nat} {old next : Worker γ} (here : p.workers[w]? = some old)
    {P : Worker γ → Bool} (same : P next = P old) (v : Nat) :
    (p.workers.set w next)[v]?.any P = p.workers[v]?.any P := by
  by_cases own : w = v
  · subst own
    rw [getElem?_set_of_getElem? here, here, Option.any_some, Option.any_some, same]
  · rw [List.getElem?_set_ne own]

/-- What is told of a worker keeps step with what has become of it. -/
theorem told_next (change : Change b p a p') {fate : Fate} {v : Nat}
    (before : (fates log).count (fate, v) =
      if fate = .stopped ∧ p.workers[v]?.any Worker.isStopped = true then 1 else 0) :
    (fates log ++ a.fates).count (fate, v) =
      if fate = .stopped ∧ p'.workers[v]?.any Worker.isStopped = true then 1 else 0 := by
  have still {w : Nat} {old next : Worker γ} (here : p.workers[w]? = some old)
      (same : next.isStopped = old.isStopped) : (fates log ++ []).count (fate, v) =
        if fate = .stopped ∧ (p.workers.set w next)[v]?.any Worker.isStopped = true then 1
        else 0 := by
    rw [List.append_nil, any_set_same here same]
    exact before
  cases change with
  | admitted | rejected | enqueued | closed =>
      change (fates log ++ []).count (fate, v) = _
      rw [List.append_nil]
      exact before
  | taken _ idle => exact still idle rfl
  | worked busy _ _ => exact still busy rfl
  | answered busy => exact still busy rfl
  | lost busy _ => exact still busy rfl
  | abandoned busy _ => exact still busy rfl
  | @stopped w _ idle _ _ _ =>
      change (fates log ++ [(Fate.stopped, w)]).count (fate, v) = _
      rw [List.count_append, before, List.count_singleton]
      by_cases own : w = v
      · subst own
        rw [getElem?_set_of_getElem? idle, idle]
        cases fate <;> simp [Worker.isStopped]
      · have apart : ((Fate.stopped, w) == (fate, v)) = false := by simp [own]
        rw [List.getElem?_set_ne own, apart]
        rfl

/-- A step in which the task crashes is one in which the store breaks down. -/
theorem broken?_worked {w ticket : Nat} {task task' : Task} {connection connection' : γ}
    {shared : Shared} {store : σ} (intact : p.shared.cache.Intact)
    (busy : p.workers[w]? = some (.busy ticket task connection))
    (unfinished : ∀ result, task ≠ .ended result)
    (stepped : (task.step b.answering p.shared (connection, p.store)).value =
      (task', shared, connection', store)) :
    p.broken? b (.work w) = if task'.isCrashed then some ticket else none := by
  have step := Task.step_cases intact b.answering task (connection, p.store)
  rw [stepped] at step
  rw [step.isCrashed unfinished]
  simp only [broken?, busy]
  rfl

theorem isBroken_busy (ticket : Nat) (task : Task) (connection : γ) :
    (Worker.busy ticket task connection).isBroken = task.isCrashed := by
  cases task with
  | ended result => cases result <;> rfl
  | begun | finding | fetching | filling | storing | adopting | removing | forgetting => rfl

theorem isCrashed_of_unfinished {task : Task} (unfinished : ∀ result, task ≠ .ended result) :
    task.isCrashed = false := by
  cases task with
  | ended result => exact absurd rfl (unfinished result)
  | begun | finding | fetching | filling | storing | adopting | removing | forgetting => rfl

/-- A worker whose task has crashed is at its end. -/
theorem not_pursues_of_isCrashed {task : Task} (crashed : task.isCrashed = true)
    (own ticket : Nat) (connection : γ) :
    (Worker.busy own task connection).pursues ticket = false := by
  cases task with
  | ended result => rfl
  | begun | finding | fetching | filling | storing | adopting | removing | forgetting =>
      cases crashed

theorem own_of_pursues {own ticket : Nat} {task : Task} {connection : γ}
    (pursues : (Worker.busy own task connection).pursues ticket = true) : own = ticket := by
  cases task with
  | ended result => cases pursues
  | begun | finding | fetching | filling | storing | adopting | removing | forgetting =>
      exact of_decide_eq_true pursues

/-- A ticket is pending from its submission on, and no longer when its operation breaks down. -/
theorem Change.pending (change : Change b p a p') (intact : p.shared.cache.Intact) (ticket : Nat) :
    p'.pending ticket + (p.broken? b a).toList.count ticket +
        (if ticket < p.tickets then 1 else 0) ≤
      p.pending ticket + (if ticket < p'.tickets then 1 else 0) := by
  unfold Pool.pending
  cases change with
  | admitted _ _ =>
      simp only [broken?, Option.toList_none, List.count_nil, List.countP_append, List.countP_cons,
        List.countP_nil, decide_eq_true_eq]
      split <;> split <;> split <;> omega
  | rejected _ =>
      simp only [broken?, Option.toList_none, List.count_nil]
      split <;> split <;> omega
  | enqueued first _ =>
      simp only [first, broken?, Option.toList_none, List.count_nil, List.countP_append,
        List.countP_cons, List.countP_nil]
      omega
  | @taken w job queue connection first idle =>
      have moved :=
        countP_set idle (Worker.pursues ticket) (.busy job.ticket (.begun job.op) connection)
      simp only [first, broken?, Option.toList_none, List.count_nil, List.countP_cons,
        Worker.pursues, decide_eq_true_eq, Bool.false_eq_true, if_false] at moved ⊢
      omega
  | @worked w own task task' connection connection' _ _ busy unfinished stepped =>
      have moved := countP_set busy (Worker.pursues ticket) (.busy own task' connection')
      rw [Worker.pursues_busy unfinished] at moved
      rw [broken?_worked intact busy unfinished stepped]
      dsimp only
      cases crashed : task'.isCrashed with
      | true =>
          rw [not_pursues_of_isCrashed crashed] at moved
          simp only [if_true, Option.toList_some, List.count_singleton, beq_iff_eq,
            decide_eq_true_eq, Bool.false_eq_true, if_false] at moved ⊢
          omega
      | false =>
          simp only [Bool.false_eq_true, if_false, Option.toList_none, List.count_nil,
            decide_eq_true_eq] at moved ⊢
          by_cases holds : (Worker.busy own task' connection').pursues ticket = true
          · rw [if_pos holds, if_pos (own_of_pursues holds)] at moved
            omega
          · rw [if_neg holds] at moved
            omega
  | @answered w own _ connection busy =>
      have moved := countP_set busy (Worker.pursues ticket) (.idle connection)
      simp only [broken?, Option.toList_none, List.count_nil, Worker.pursues, Bool.false_eq_true,
        if_false] at moved ⊢
      omega
  | lost busy _ =>
      have moved := countP_set busy (Worker.pursues ticket) .lost
      simp only [broken?, Option.toList_none, List.count_nil, Worker.pursues, Bool.false_eq_true,
        if_false] at moved ⊢
      omega
  | abandoned busy _ =>
      have moved := countP_set busy (Worker.pursues ticket) .lost
      simp only [broken?, Option.toList_none, List.count_nil, Worker.pursues, Bool.false_eq_true,
        if_false, List.countP_nil] at moved ⊢
      omega
  | closed =>
      simp only [broken?, Option.toList_none, List.count_nil]
      omega
  | stopped idle _ _ _ =>
      have moved := countP_set idle (Worker.pursues ticket) .stopped
      simp only [broken?, Option.toList_none, List.count_nil, Worker.pursues, Bool.false_eq_true,
        if_false] at moved ⊢
      omega

/-- When the store breaks down, that costs a worker, and nothing else does. -/
theorem Change.breaks (change : Change b p a p') (intact : p.shared.cache.Intact) :
    p'.workers.countP Worker.isBroken =
      p.workers.countP Worker.isBroken + (p.broken? b a).toList.length := by
  cases change with
  | admitted | rejected | enqueued | closed => rfl
  | taken _ idle => exact countP_set_same idle rfl
  | answered busy => exact countP_set_same busy rfl
  | lost busy _ => exact countP_set_same busy rfl
  | abandoned busy _ => exact countP_set_same busy rfl
  | stopped idle _ _ _ => exact countP_set_same idle rfl
  | @worked w ticket task task' connection connection' _ _ busy unfinished stepped =>
      have sane : (Worker.busy ticket task connection).isBroken = false :=
        (isBroken_busy ..).trans (isCrashed_of_unfinished unfinished)
      have moved := countP_set busy Worker.isBroken (.busy ticket task' connection')
      rw [sane, isBroken_busy] at moved
      rw [broken?_worked intact busy unfinished stepped]
      dsimp only
      cases crashed : task'.isCrashed <;>
        simp only [crashed, Bool.false_eq_true, if_false, if_true, Option.toList_none,
          Option.toList_some, List.length_nil, List.length_singleton] at moved ⊢ <;> omega

namespace Recorded

/-- What a chronicle keeps to is kept by every event. -/
theorem event (recorded : Recorded n log broken p) (discreet : b.Discreet)
    {change : Logged (Pool σ γ)} (happens : p.act? b a = some change) :
    Recorded n (log ++ change.events) (broken ++ (p.broken? b a).toList) change.value := by
  have changes := change_of_act? happens
  obtain ⟨depth, workers⟩ := changes.frame
  refine ⟨changes.dead recorded.dead, changes.intact recorded.intact, depth ▸ recorded.room,
    workers.trans recorded.size, ?_, ?_, ?_⟩
  · intro fate w
    rw [fates_append, fates_of_act? discreet happens]
    exact told_next changes (recorded.told fate w)
  · intro ticket
    have before := recorded.once ticket
    have moved := changes.pending recorded.intact ticket
    rw [List.count_append]
    omega
  · rw [List.length_append, recorded.lost]
    exact (changes.breaks recorded.intact).symm

/-- A pool that has just started has nothing to tell. -/
theorem of_start {depth : Nat} {shared : Shared} {s s' : σ} (intact : shared.cache.Intact)
    (started : (Pool.start b n depth shared s).value = (.ok p, s')) : Recorded n [] [] p := by
  obtain ⟨-, room, connections, size, rfl⟩ := start_ok started
  have fresh {P : Worker γ → Bool} (idle : ∀ connection, P (.idle connection) = false) :
      (connections.map Worker.idle).countP P = 0 := by
    apply List.countP_eq_zero.mpr
    intro worker member
    obtain ⟨connection, -, rfl⟩ := List.mem_map.mp member
    rw [idle connection]
    exact Bool.false_ne_true
  refine ⟨fun _ => ⟨rfl, rfl⟩, intact, room, (List.length_map _).trans size, ?_, ?_,
    (fresh fun _ => rfl).symm⟩
  · intro fate w
    have running : (connections.map Worker.idle)[w]?.any Worker.isStopped = false := by
      rw [List.getElem?_map]
      cases connections[w]? <;> rfl
    rw [running]
    simp [fates]
  · intro ticket
    unfold Pool.pending
    rw [fresh fun _ => rfl]
    exact Nat.zero_le _

end Recorded

namespace Chronicle

/-- A pool agrees with its chronicle at every moment. -/
theorem recorded (chronicle : Chronicle b start log broken p) (discreet : b.Discreet)
    (begins : Recorded n [] [] start) : Recorded n log broken p := by
  induction chronicle with
  | start => exact begins
  | event _ happens ih => exact ih.event discreet happens
  -- Neither the answers nor the store are anything that is on record.
  | collected _ count ih => exact { ih with }
  | meanwhile _ change ih => exact { ih with }

/-- Events that are let happen one after the other continue a chronicle. -/
theorem performAll (chronicle : Chronicle b start log broken p) (events : List Action) :
    ∃ more, Chronicle b start (log ++ (p.performAll b events).events) (broken ++ more)
      (p.performAll b events).value := by
  induction events generalizing p log broken with
  | nil => exact ⟨[], by simpa [Pool.performAll] using chronicle⟩
  | cons a events ih =>
      have first : p.performAll b (a :: events) =
          p.perform b a >>= fun p => p.performAll b events := rfl
      rw [first, Logged.events_bind, Logged.value_bind, ← List.append_assoc]
      cases happens : p.act? b a with
      | none =>
          have nothing : p.perform b a = pure p := by rw [perform, happens]; rfl
          rw [nothing, Logged.events_pure, List.append_nil]
          exact ih chronicle
      | some change =>
          have does : p.perform b a = change := by rw [perform, happens]; rfl
          obtain ⟨more, rest⟩ := ih (chronicle.event happens)
          rw [List.append_assoc broken] at rest
          rw [does]
          exact ⟨_, rest⟩

end Chronicle

end Pool

end CacheAside
