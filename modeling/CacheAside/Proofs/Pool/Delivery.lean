import Mathlib.Algebra.GroupWithZero.Nat
import CacheAside.Proofs.Cache.Representation
import CacheAside.Proofs.Pool.History
import CacheAside.Proofs.Store.Memory

/-!
# Delivery

What whoever submits an operation to a pool can rely on, along any run of it (`Pool.delivers`): no
operation is dispatched twice; an answer is the outcome of the own operation, or `closed`, and that
for one of three reasons only; an operation that is answered `closed` has changed nothing; closing a
pool takes no operation from the queue as long as a worker survives; no more dispatches break down
than there are workers; and the requests counted are the operations dispatched.

A run cannot go on for ever without new submissions, and when nothing is left to do, everybody has
been answered.
-/

namespace CacheAside

/-- A call on the store breaks down only before it has touched the data. -/
def Backend.CrashesEarly {σ γ : Type} (b : Backend σ γ) : Prop :=
  ∀ {r : Request} {c c' : γ} {s s' : σ} {text : String},
    (b.call r c s).value = (.crashed text, c', s') → s' = s

/-- The faults in front of the table strike before the data is touched. -/
theorem Memory.crashesEarly : Memory.backend.faulty.CrashesEarly := by
  intro r c c' s s' text crashed
  obtain ⟨-, same⟩ := Memory.struck_of_trouble crashed rfl
  exact congrArg Prod.snd same

/-- Whether an event is the work of a pool, not a request to it. -/
def Action.isWork : Action → Bool
  | .enqueue | .take _ | .work _ | .reply _ => true
  | .submit _ | .close | .stop _ => false

namespace Worker

variable {γ : Type}

/-- Whether the store has broken down under the worker. -/
def isBroken : Worker γ → Bool
  | .busy _ (.ended (.crashed _)) _ | .lost => true
  | _ => false

/-- The number of events that it takes at most to finish what the worker has begun. -/
def left : Worker γ → Nat
  | .busy _ task _ => task.left + 1
  | _ => 0

end Worker

namespace Pool

variable {σ γ : Type} {b : Backend σ γ} {start p p' : Pool σ γ} {a : Action}
  {history : List (Moment σ γ)}

/-- Whether the store breaks down under a worker at this moment. -/
def Moment.breaks (m : Moment σ γ) : Bool :=
  match m.action with
  | .work w => m.after.workers[w]?.any Worker.isBroken
  | _ => false

/-- Whether the moment leaves other data behind than it has met. -/
def Moment.Touches (m : Moment σ γ) : Prop :=
  m.after.store ≠ m.before.store ∨ m.after.shared.cache ≠ m.before.shared.cache

/-! ## What is constant -/

/-- No event changes the depth of the queue or the number of workers. -/
theorem Change.frame (change : Change b p a p') :
    p'.depth = p.depth ∧ p'.workers.length = p.workers.length := by
  cases change with
  | admitted | rejected | enqueued | closed => exact ⟨rfl, rfl⟩
  | taken | worked | answered | lost | abandoned | stopped => exact ⟨rfl, List.length_set⟩

theorem Run.frame (run : Run b start history p) :
    p.depth = start.depth ∧ p.workers.length = start.workers.length := by
  induction run with
  | start => exact ⟨rfl, rfl⟩
  | next run happens ih =>
      obtain ⟨depth, workers⟩ := (change_of_act? happens).frame
      exact ⟨depth.trans ih.1, workers.trans ih.2⟩

/-! ## The requests counted -/

/-- The requests counted keep step with the dispatches. -/
theorem requests_next (change : Change b p a p') (sound : p.Sound) (books : Books b history p)
    {n : UInt64} (before : p.shared.counters.requests = n + .ofNat (dispatches history).length) :
    p'.shared.counters.requests = n + .ofNat (dispatches (⟨p, a, p'⟩ :: history)).length := by
  cases change with
  | @worked w ticket task task' connection connection' shared store busy _ stepped =>
      obtain ⟨op, -, came⟩ := books.busy busy
      have step := Task.step_cases sound.intact b.answering task (connection, p.store)
      rw [stepped] at step
      have counted : shared.counters.requests = _ := step.requests
      rcases books.dispatches_work busy came with ⟨begun, more⟩ | ⟨underway, same⟩
      · have one : UInt64.ofNat 1 = 1 := rfl
        rw [begun, if_pos rfl] at counted
        rw [counted, more, List.length_cons, UInt64.ofNat_add, one, before, UInt64.add_assoc]
      · rw [underway, if_neg Bool.false_ne_true, UInt64.add_zero] at counted
        rw [counted, same, before]
  | admitted | rejected | enqueued | taken | answered | lost | abandoned | closed | stopped =>
      exact before

/-! ## The dispatches that break down -/

theorem breaks_work {w : Nat} {worker : Worker γ} (here : p'.workers[w]? = some worker) :
    Moment.breaks ⟨p, .work w, p'⟩ = worker.isBroken := by
  unfold Moment.breaks
  dsimp only
  rw [here]
  rfl

/-- The breakdowns keep step with the broken workers. -/
theorem breaks_next (change : Change b p a p')
    (before : history.countP Moment.breaks = p.workers.countP Worker.isBroken) :
    (⟨p, a, p'⟩ :: history).countP Moment.breaks = p'.workers.countP Worker.isBroken := by
  have quiet : Moment.breaks ⟨p, a, p'⟩ = false →
      p'.workers.countP Worker.isBroken = p.workers.countP Worker.isBroken →
      (⟨p, a, p'⟩ :: history).countP Moment.breaks = p'.workers.countP Worker.isBroken := by
    intro calm same
    rw [List.countP_cons_of_neg (by rw [calm]; decide), before, same]
  cases change with
  | admitted | rejected | enqueued | closed => exact quiet rfl rfl
  | taken _ idle => exact quiet rfl (countP_set_same idle rfl)
  | @worked w ticket task task' connection connection' _ _ busy unfinished _ =>
      have sane : (Worker.busy ticket task connection).isBroken = false := by
        cases task with
        | ended result => exact absurd rfl (unfinished result)
        | begun | finding | fetching | filling | storing | adopting | removing | forgetting => rfl
      have moved := countP_set busy Worker.isBroken (.busy ticket task' connection')
      rw [sane] at moved
      rw [List.countP_cons, before, breaks_work (getElem?_set_of_getElem? busy _)]
      simp only [Bool.false_eq_true, if_false] at moved ⊢
      omega
  | answered busy => exact quiet rfl (countP_set_same busy rfl)
  | lost busy _ => exact quiet rfl (countP_set_same busy rfl)
  | abandoned busy _ => exact quiet rfl (countP_set_same busy rfl)
  | stopped idle _ _ _ => exact quiet rfl (countP_set_same idle rfl)

/-! ## The events that are left -/

theorem sum_set {workers : List (Worker γ)} {w : Nat} {old : Worker γ}
    (here : workers[w]? = some old) (f : Worker γ → Nat) (next : Worker γ) :
    ((workers.set w next).map f).sum + f old = (workers.map f).sum + f next := by
  induction workers generalizing w with
  | nil => cases here
  | cons worker workers ih =>
      cases w with
      | zero =>
          cases here
          simp only [List.set_cons_zero, List.map_cons, List.sum_cons]
          omega
      | succ w =>
          have rest := ih here
          simp only [List.set_cons_succ, List.map_cons, List.sum_cons]
          omega

/-- The number of events that it takes at most to finish all that has been submitted. -/
def left (p : Pool σ γ) : Nat :=
  7 * p.waiting.length + 6 * p.queue.length + (p.workers.map Worker.left).sum

/-- An event of the pool's own leaves less to do, and a submission adds so much at most. -/
theorem Change.left_add (change : Change b p a p') (intact : p.shared.cache.Intact) :
    p'.left + 7 * p.tickets + (if a.isWork then 1 else 0) ≤ p.left + 7 * p'.tickets := by
  unfold left
  cases change with
  | admitted _ _ =>
      rw [Action.isWork, if_neg Bool.false_ne_true]
      simp only [List.length_append, List.length_cons, List.length_nil]
      omega
  | rejected _ =>
      rw [Action.isWork, if_neg Bool.false_ne_true]
      dsimp only
      omega
  | enqueued first _ =>
      rw [Action.isWork, if_pos rfl, first]
      simp only [List.length_append, List.length_cons, List.length_nil]
      omega
  | @taken w job queue connection first idle =>
      have moved := sum_set idle Worker.left (.busy job.ticket (.begun job.op) connection)
      rw [Action.isWork, if_pos rfl, first]
      simp only [List.length_cons, Worker.left, Task.left, Task.longest] at moved ⊢
      omega
  | @worked w ticket task task' connection connection' shared store busy unfinished stepped =>
      have step := Task.step_cases intact b.answering task (connection, p.store)
      rw [stepped] at step
      have fewer := step.left_lt unfinished
      have moved := sum_set busy Worker.left (.busy ticket task' connection')
      rw [Action.isWork, if_pos rfl]
      simp only [Worker.left] at moved ⊢
      omega
  | @answered w ticket outcome connection busy =>
      have moved := sum_set busy Worker.left (.idle connection)
      rw [Action.isWork, if_pos rfl]
      simp only [Worker.left, Task.left] at moved ⊢
      omega
  | lost busy _ =>
      have moved := sum_set busy Worker.left .lost
      rw [Action.isWork, if_pos rfl]
      simp only [Worker.left, Task.left] at moved ⊢
      omega
  | abandoned busy _ =>
      have moved := sum_set busy Worker.left .lost
      rw [Action.isWork, if_pos rfl]
      simp only [List.length_nil, Worker.left, Task.left] at moved ⊢
      omega
  | closed =>
      rw [Action.isWork, if_neg Bool.false_ne_true]
      exact Nat.le_refl _
  | stopped idle _ _ _ =>
      have moved := sum_set idle Worker.left .stopped
      rw [Action.isWork, if_neg Bool.false_ne_true]
      simp only [Worker.left] at moved ⊢
      omega

/-- Work brings the end nearer. -/
theorem Change.left_lt (change : Change b p a p') (sound : p.Sound) (own : a.isWork = true) :
    p'.left < p.left := by
  have less := change.left_add sound.intact
  have same : p'.tickets = p.tickets := by
    cases change with
    | admitted | rejected => cases own
    | enqueued | taken | worked | answered | lost | abandoned | closed | stopped => rfl
  rw [if_pos own] at less
  omega

/-- The work done and the work left are at most seven events for each ticket. -/
theorem left_next (change : Change b p a p') (sound : p.Sound)
    (before : history.countP (·.action.isWork) + p.left ≤ 7 * p.tickets) :
    (⟨p, a, p'⟩ :: history).countP (·.action.isWork) + p'.left ≤ 7 * p'.tickets := by
  have less := change.left_add sound.intact
  rw [List.countP_cons]
  dsimp only
  omega

/-! ## Who changes the data -/

/-- A moment that leaves other data behind is a step for a ticket that has been served by the store
since then. -/
structure Moment.Served (b : Backend σ γ) (history : List (Moment σ γ)) (m : Moment σ γ)
    (ticket : Nat) : Prop where
  work : ∃ (w : Nat) (task : Task) (connection : γ), m.action = .work w ∧
    m.before.workers[w]? = some (.busy ticket task connection)
  committed : ∃ (op : Operation) (task : Task), progress b ⟨ticket, op⟩ history = some task ∧
    task.committed = true

theorem served_next {m : Moment σ γ} {ticket : Nat} (change : Change b p a p') (sound : p.Sound)
    (books : Books b history p) (served : m.Served b history ticket) :
    m.Served b (⟨p, a, p'⟩ :: history) ticket := by
  obtain ⟨work, op, task, came, committed⟩ := served
  refine ⟨work, op, ?_⟩
  rcases progress_advance change sound books came with same | ⟨s, t, intact, stepped⟩
  · exact ⟨task, same, committed⟩
  · exact ⟨_, stepped, (Task.step_cases intact b.answering task t).committed committed⟩

/-- Who leaves other data behind has been served by the store. -/
theorem served_of_touches (early : b.CrashesEarly) (change : Change b p a p') (sound : p.Sound)
    (books : Books b history p) (touches : Moment.Touches ⟨p, a, p'⟩) :
    ∃ ticket, Moment.Served b (⟨p, a, p'⟩ :: history) ⟨p, a, p'⟩ ticket := by
  have untouched : p'.store = p.store → p'.shared.cache = p.shared.cache → False := by
    intro store cache
    rcases touches with other | other
    · exact other store
    · exact other cache
  cases change with
  | @worked w ticket task task' connection connection' shared store busy unfinished stepped =>
      obtain ⟨op, -, came⟩ := books.busy busy
      have step := Task.step_cases sound.intact b.answering task (connection, p.store)
      rw [stepped] at step
      refine ⟨ticket, ⟨w, task, connection, rfl, busy⟩, op, task', ?_, ?_⟩
      · rw [progress_own ⟨ticket, op⟩ busy, came, Option.map_some, stepped]
      · cases committed : task'.committed with
        | true => rfl
        | false =>
            have same := step.untouched Prod.snd (fun crashed => early crashed) committed
            exact absurd same.1 (untouched same.2)
  | admitted | rejected | enqueued | taken | answered | lost | abandoned | closed | stopped =>
      exact absurd rfl (untouched rfl)

/-! ## When nothing is left to do -/

theorem reply?_ended {w ticket : Nat} {result : Result} {connection : γ}
    (busy : p.workers[w]? = some (.busy ticket (.ended result) connection)) :
    ∃ p', p.reply? w = some p' := by
  unfold reply?
  rw [busy]
  cases result with
  | answered outcome => exact ⟨_, rfl⟩
  | crashed text => exact ⟨_, rfl⟩

/-- As long as somebody waits for an answer, something can happen. -/
theorem clear_of_still (dead : p.isAlive = false → p.waiting = [] ∧ p.queue = [])
    (room : 0 < p.depth) (still : ∀ a, a.isWork = true → p.act? b a = none) :
    p.waiting = [] ∧ p.queue = [] ∧ ∀ ticket, p.workers.countP (Worker.holds ticket) = 0 := by
  have free : ∀ {w ticket : Nat} {task : Task} {connection : γ},
      p.workers[w]? ≠ some (.busy ticket task connection) := by
    intro w ticket task connection busy
    cases task with
    | ended result =>
        obtain ⟨p', replied⟩ := reply?_ended busy
        have none := still (.reply w) rfl
        rw [act?, replied] at none
        cases none
    | begun | finding | fetching | filling | storing | adopting | removing | forgetting =>
        have none := still (.work w) rfl
        rw [act?, work?, busy] at none
        cases none
  have queue : p.queue = [] := by
    cases alive : p.isAlive with
    | false => exact (dead alive).2
    | true =>
        cases first : p.queue with
        | nil => rfl
        | cons job queue =>
            obtain ⟨worker, member, living⟩ := List.any_eq_true.mp alive
            obtain ⟨w, here⟩ := List.mem_iff_getElem?.mp member
            cases worker with
            | idle connection =>
                have none := still (.take w) rfl
                rw [act?, take?, here, first] at none
                cases none
            | busy => exact absurd here free
            | stopped | lost => cases living
  refine ⟨?_, queue, ?_⟩
  · cases first : p.waiting with
    | nil => rfl
    | cons job waiting =>
        have none := still .enqueue rfl
        rw [act?, enqueue?, first, queue] at none
        dsimp only at none
        rw [List.length_nil, if_pos room] at none
        cases none
  · intro ticket
    apply List.countP_eq_zero.mpr
    intro worker member holds
    obtain ⟨w, here⟩ := List.mem_iff_getElem?.mp member
    cases worker with
    | busy => exact free here
    | idle | stopped | lost => cases holds

/-- A pool at rest has nothing to do. -/
theorem Resting.still (resting : p.Resting) (b : Backend σ γ) (a : Action)
    (work : a.isWork = true) : p.act? b a = none := by
  have free : ∀ {w ticket : Nat} {task : Task} {connection : γ},
      p.workers[w]? ≠ some (.busy ticket task connection) := by
    intro w ticket task connection busy
    cases resting.workers _ (List.mem_of_getElem? busy) rfl
  cases happens : p.act? b a with
  | none => rfl
  | some logged =>
      have change := change_of_act? happens
      generalize logged.value = after at change
      cases change with
      | admitted | rejected | closed | stopped => cases work
      | enqueued first _ => cases resting.waiting.symm.trans first
      | taken first _ => cases resting.queue.symm.trans first
      | worked busy | answered busy | lost busy | abandoned busy => exact absurd busy free

theorem mem_of_answer? {ticket : Nat} {answer : Answer} (given : p.answer? ticket = some answer) :
    (ticket, answer) ∈ p.answers := by
  obtain ⟨before, after, split, -⟩ := List.lookup_eq_some_iff.mp given
  rw [split]
  exact List.mem_append_right _ List.mem_cons_self

theorem isSome_answer? {ticket : Nat} (answered : 0 < p.answers.countP (·.1 = ticket)) :
    (p.answer? ticket).isSome = true := by
  obtain ⟨pair, member, own⟩ := List.countP_pos_iff.mp answered
  refine List.lookup_isSome_iff.mpr ⟨pair, member, ?_⟩
  rw [of_decide_eq_true own]
  exact beq_self_eq_true ticket

/-! ## Along a run -/

namespace Run

variable {size depth : Nat} {shared : Shared} {s s' : σ}

/-- A run of a pool that has started is sound and has its books in order. -/
theorem books_of_started (run : Run b start history p) (intact : shared.cache.Intact)
    (started : (Pool.start b size depth shared s).value = (.ok start, s')) :
    p.Sound ∧ Books b history p :=
  run.books (sound_start started intact) (Books.start started)

theorem requests (run : Run b start history p) (intact : shared.cache.Intact)
    (started : (Pool.start b size depth shared s).value = (.ok start, s')) :
    p.shared.counters.requests =
      start.shared.counters.requests + .ofNat (dispatches history).length := by
  induction run with
  | start =>
      have none : UInt64.ofNat (dispatches ([] : List (Moment σ γ))).length = 0 := rfl
      rw [none, UInt64.add_zero]
  | next run happens ih =>
      obtain ⟨sound, books⟩ := run.books_of_started intact started
      exact requests_next (change_of_act? happens) sound books ih

theorem breaks (run : Run b start history p)
    (started : (Pool.start b size depth shared s).value = (.ok start, s')) :
    history.countP Moment.breaks = p.workers.countP Worker.isBroken := by
  induction run with
  | start =>
      obtain ⟨-, -, connections, -, rfl⟩ := start_ok started
      symm
      apply List.countP_eq_zero.mpr
      intro worker member
      obtain ⟨connection, -, rfl⟩ := List.mem_map.mp member
      exact Bool.false_ne_true
  | next run happens ih => exact breaks_next (change_of_act? happens) ih

/-- A run cannot do more work than its submissions bring. -/
theorem left (run : Run b start history p) (intact : shared.cache.Intact)
    (started : (Pool.start b size depth shared s).value = (.ok start, s')) :
    history.countP (·.action.isWork) + p.left ≤ 7 * p.tickets := by
  induction run with
  | start =>
      obtain ⟨-, -, connections, -, rfl⟩ := start_ok started
      simp [Pool.left, Worker.left, Function.comp_def]
  | next run happens ih =>
      obtain ⟨sound, books⟩ := run.books_of_started intact started
      exact left_next (change_of_act? happens) sound ih

/-- Every change of the data belongs to an operation that the store has served. -/
theorem served (run : Run b start history p) (intact : shared.cache.Intact)
    (started : (Pool.start b size depth shared s).value = (.ok start, s'))
    (early : b.CrashesEarly) :
    ∀ m ∈ history, m.Touches → ∃ ticket, m.Served b history ticket := by
  induction run with
  | start =>
      intro m member
      cases member
  | next run happens ih =>
      obtain ⟨sound, books⟩ := run.books_of_started intact started
      have change := change_of_act? happens
      intro m member touches
      rcases List.mem_cons.mp member with rfl | old
      · exact served_of_touches early change sound books touches
      · obtain ⟨ticket, served⟩ := ih m old touches
        exact ⟨ticket, served_next change sound books served⟩

/-- When nothing is left to do, everybody has been answered. -/
theorem settled (run : Run b start history p) (intact : shared.cache.Intact)
    (started : (Pool.start b size depth shared s).value = (.ok start, s'))
    (still : ∀ a, a.isWork = true → p.act? b a = none) {submission : Submission}
    (member : submission ∈ submissions history) :
    (p.answer? submission.job.ticket).isSome = true := by
  obtain ⟨sound, books⟩ := run.books_of_started intact started
  obtain ⟨-, room, connections, -, begins⟩ := start_ok started
  have deep : 0 < p.depth := by
    rw [run.frame.1, begins]
    exact room
  obtain ⟨waiting, queue, free⟩ := clear_of_still sound.dead deep still
  have somewhere := sound.places submission.job.ticket
  rw [if_pos (books.ticket_lt member)] at somewhere
  unfold Pool.places at somewhere
  rw [waiting, queue, free] at somewhere
  apply isSome_answer?
  simp only [List.countP_nil] at somewhere
  omega

/-- Events that are let happen one after the other make a run. -/
theorem performAll (run : Run b start history p) (events : List Action) :
    Run b start (p.moments b events ++ history) (p.performAll b events).value := by
  induction events generalizing p history with
  | nil => exact run
  | cons a events ih =>
      have first : (p.performAll b (a :: events)).value =
          ((p.perform b a).value.performAll b events).value := rfl
      rw [first, perform, moments]
      cases happens : p.act? b a with
      | none => exact ih run
      | some change =>
          have rest := ih (run.next happens)
          dsimp only
          rw [List.append_assoc]
          exact rest

end Run

/-- What `n` workers deliver along a run that has come to the pool `p`. -/
structure Delivered (b : Backend σ γ) (n : Nat) (start : Pool σ γ) (history : List (Moment σ γ))
    (p : Pool σ γ) : Prop where
  /-- No operation is dispatched twice. -/
  once : ((dispatches history).map Job.ticket).Nodup
  /-- Only operations that were submitted in time are dispatched. -/
  submitted : ∀ job ∈ dispatches history, ⟨job, true⟩ ∈ submissions history
  /-- Each submission has a ticket of its own. -/
  tickets : (submissions history).map (·.job.ticket) = (List.range p.tickets).reverse
  /-- An outcome that is handed over is that of the dispatch of the own operation. -/
  own : ∀ s ∈ submissions history, ∀ outcome, p.answer? s.job.ticket = some (.ok outcome) →
    progress b s.job history = some (.ended (.answered outcome))
  /-- `closed` is answered if the pool was closed at the time, if the store broke down under the own
  operation, or if all workers were lost before one had taken it, and only then. -/
  closed : ∀ s ∈ submissions history, ∀ answer, p.answer? s.job.ticket = some answer →
    (answer = .error .closed ↔ s.inTime = false ∨
      (∃ text, progress b s.job history = some (.ended (.crashed text))) ∨
      progress b s.job history = none ∧ ∀ worker ∈ p.workers, worker.isLost = true)
  /-- Whoever is answered `closed` has changed neither the store nor the cache. -/
  untouched : b.CrashesEarly → ∀ m ∈ history, m.Touches → ∃ w ticket task connection,
    m.action = .work w ∧ m.before.workers[w]? = some (.busy ticket task connection) ∧
      p.answer? ticket ≠ some (.error .closed)
  /-- What was submitted in time is dispatched before it is answered, if a worker survives. -/
  drained : ∀ s ∈ submissions history, s.inTime = true → (p.answer? s.job.ticket).isSome = true →
    (∃ worker ∈ p.workers, worker.isLost = false) → s.job ∈ dispatches history
  /-- The store breaks down at most once for each worker. -/
  breaks : history.countP Moment.breaks ≤ n
  /-- Each dispatch is counted as a request, and nothing else is. -/
  requests : p.shared.counters.requests =
    start.shared.counters.requests + .ofNat (dispatches history).length
  /-- When the pool has nothing left to do, everybody has been answered. -/
  settled : (∀ a, a.isWork = true → p.act? b a = none) → ∀ s ∈ submissions history,
    (p.answer? s.job.ticket).isSome = true
  /-- There is only so much to do for each submission. -/
  bounded : history.countP (·.action.isWork) ≤ 7 * p.tickets

/-- The answer that a ticket was given has one of the grounds. -/
theorem Books.ground (books : Books b history p) {s : Submission} {answer : Answer}
    (member : s ∈ submissions history) (given : p.answer? s.job.ticket = some answer) :
    Ground b history p s answer := by
  obtain ⟨s', member', own, ground⟩ := books.answered (mem_of_answer? given)
  rwa [books.unique member' member own] at ground

/-- Along every run of a pool, whatever the store does. -/
theorem delivers {n depth capacity : Nat} {shared : Shared} {s s' : σ}
    (reachable : Cache.Reachable capacity shared.cache)
    (started : (Pool.start b n depth shared s).value = (.ok start, s'))
    (run : Run b start history p) : Delivered b n start history p := by
  have intact := reachable.intact.1
  obtain ⟨sound, books⟩ := run.books_of_started intact started
  obtain ⟨-, workers⟩ := run.frame
  obtain ⟨-, -, connections, size, begins⟩ := start_ok started
  have underway : ∀ {s : Submission}, s ∈ submissions history → s.inTime = true → ∀ {task : Task},
      progress b s.job history = some task → task.isBegun = false → s.job ∈ dispatches history := by
    intro s _ _ task came begun
    exact (books.dispatched s.job).mpr ⟨task, came, begun⟩
  refine {
    once := ?_
    submitted := ?_
    tickets := books.tickets
    own := ?_
    closed := ?_
    untouched := ?_
    drained := ?_
    breaks := ?_
    requests := run.requests intact started
    settled := ?_
    bounded := ?_ }
  · refine List.Nodup.map_on ?_ books.once
    intro job dispatched other dispatched' same
    obtain ⟨task, came, -⟩ := (books.dispatched job).mp dispatched
    obtain ⟨task', came', -⟩ := (books.dispatched other).mp dispatched'
    exact congrArg Submission.job (books.unique (books.known came).1 (books.known came').1 same)
  · intro job dispatched
    obtain ⟨task, came, -⟩ := (books.dispatched job).mp dispatched
    exact (books.known came).1
  · intro s member outcome given
    have ground := books.ground member given
    cases ground with
    | outcome came => exact came
  · intro s member answer given
    have ground := books.ground member given
    constructor
    · rintro rfl
      cases ground with
      | late => exact .inl rfl
      | crashed came => exact .inr (.inl ⟨_, came⟩)
      | stranded untaken lost => exact .inr (.inr ⟨untaken, lost⟩)
    · intro reasons
      cases ground with
      | late | crashed | stranded => rfl
      | outcome came =>
          rcases reasons with late | ⟨text, crashed⟩ | ⟨untaken, -⟩
          · cases late
          · rw [came] at crashed
            cases crashed
          · rw [came] at untaken
            cases untaken
  · intro early m member touches
    obtain ⟨ticket, ⟨w, task, connection, work, busy⟩, op, later, came, committed⟩ :=
      run.served intact started early m member touches
    refine ⟨w, ticket, task, connection, work, busy, ?_⟩
    intro given
    have ground := books.ground (books.known came).1 given
    cases ground with
    | crashed crashed =>
        rw [came] at crashed
        cases crashed
        cases committed
    | stranded untaken lost =>
        rw [came] at untaken
        cases untaken
  · rintro s member inTime answered ⟨worker, survives, kept⟩
    obtain ⟨answer, given⟩ := Option.isSome_iff_exists.mp answered
    have ground := books.ground member given
    cases ground with
    | outcome came => exact underway member inTime came rfl
    | late => cases inTime
    | crashed came => exact underway member inTime came rfl
    | stranded untaken lost =>
        rw [lost worker survives] at kept
        cases kept
  · rw [run.breaks started]
    have all := List.countP_le_length (l := p.workers) (p := Worker.isBroken)
    rw [workers, begins, List.length_map, size] at all
    exact all
  · intro still s member
    exact run.settled intact started still member
  · have balance := run.left intact started
    omega

/-- Two workers with room for one job in the queue: the store breaks down under a read, an operation
comes too late, and one that has waited since before the closing is still carried out. -/
theorem delivers_through_loss :
    let crash : FaultRule := { verb := .get, key := some "b", fault := .crash "lost" }
    let start : Pool (Faulty Table) Unit := {
      depth := 1, workers := [.idle (), .idle ()], shared := .fresh 2
      store := { store := {}, rules := [crash], attempts := 2 } }
    let events : List Action := [.submit (.write "a" (some "1")), .submit (.read "b"),
      .submit (.read "a"), .enqueue, .take 0, .enqueue, .take 1, .close, .submit (.read "a"),
      .work 0, .work 1, .work 0, .work 1, .work 0, .reply 0, .work 1, .reply 1, .enqueue, .take 0,
      .work 0, .work 0, .reply 0, .stop 0]
    let p := (start.performAll Memory.backend.faulty events).value
    (Pool.start Memory.backend.faulty 2 1 (.fresh 2) { store := {}, rules := [crash] }).value =
        (.ok start, start.store) ∧
      Memory.backend.faulty.CrashesEarly ∧
      p.answers = [(2, .ok (.found "1")), (1, .error .closed), (0, .ok ⟨.ok, none⟩),
        (3, .error .closed)] ∧
      ∃ history, Run Memory.backend.faulty start history p ∧
        Delivered Memory.backend.faulty 2 start history p := by
  intro crash start events p
  have started : (Pool.start Memory.backend.faulty 2 1 (.fresh 2)
    { store := {}, rules := [crash] }).value = (.ok start, start.store) := rfl
  have reachable : Cache.Reachable 2 (Shared.fresh 2).cache := .new rfl
  have begins : Run Memory.backend.faulty start [] start := .start
  have run : Run Memory.backend.faulty start (start.moments Memory.backend.faulty events ++ []) p :=
    begins.performAll events
  generalize start.moments Memory.backend.faulty events ++ [] = history at run
  have answers : p.answers = [(2, .ok (.found "1")), (1, .error .closed), (0, .ok ⟨.ok, none⟩),
      (3, .error .closed)] := by
    decide +kernel
  clear_value p
  have delivered := delivers reachable started run
  exact ⟨started, Memory.crashesEarly, answers, _, run, delivered⟩

end Pool

end CacheAside
