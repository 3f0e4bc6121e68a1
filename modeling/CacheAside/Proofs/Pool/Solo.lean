import Mathlib.Data.List.Induction
import CacheAside.Proofs.Dispatch.Failure
import CacheAside.Proofs.Pool.Delivery

/-!
# A pool with one worker

A pool with one worker carries out what is submitted to it one after the other, in the order in
which it was submitted, until the store breaks down; from then on it answers `closed`. `Pool.Solo`
is that in so many words, and `Pool.lone_worker_is_sequential` shows that the pool comes to the
same, however deep its queue is and however many operations are submitted together.

What comes from outside is told by `Pool.Life`: operations may be submitted at any time, and when
nothing is left to do, the store may be changed behind the back of the pool. On the way the pool may
be ahead of what `Solo` has carried out, by one operation that its worker is busy with
(`Pool.Tracks`).
-/

namespace CacheAside

/-- The connection that a worker is left with. -/
def Result.kept {γ : Type} (connection : γ) : Result → Option γ
  | .answered _ => some connection
  | .crashed _ => none

namespace Pool

variable {σ γ : Type}

/-- What comes to a pool from outside. -/
inductive Input (σ : Type)
  | submit (op : Operation)
  /-- The store is changed, or its faults are. -/
  | meanwhile (change : σ → σ)

namespace Input

def op? : Input σ → Option Operation
  | .submit op => some op
  | .meanwhile _ => none

/-- What becomes of the store if nothing is carried out. -/
def disturb (store : σ) : Input σ → σ
  | .submit _ => store
  | .meanwhile change => change store

end Input

/-- Nothing is left to do for a pool. -/
def Still (b : Backend σ γ) (p : Pool σ γ) : Prop := ∀ a, a.isWork = true → p.act? b a = none

/-- A pool that is open, and what has come to it so far, the oldest first. -/
inductive Life (b : Backend σ γ) (start : Pool σ γ) : List (Input σ) → Pool σ γ → Prop
  | start : Life b start [] start
  | submit {inputs : List (Input σ)} {p : Pool σ γ} (life : Life b start inputs p)
      (op : Operation) : Life b start (inputs ++ [.submit op]) (p.submit op)
  | work {inputs : List (Input σ)} {p : Pool σ γ} {a : Action} {change : Logged (Pool σ γ)}
      (life : Life b start inputs p) (own : a.isWork = true) (happens : p.act? b a = some change) :
    Life b start inputs change.value
  | meanwhile {inputs : List (Input σ)} {p : Pool σ γ} (life : Life b start inputs p)
      (still : p.Still b) (change : σ → σ) :
    Life b start (inputs ++ [.meanwhile change]) { p with store := change p.store }

/-! ## One after the other -/

/-- Operations carried out one after the other over one connection, as long as it lasts. -/
structure Solo (σ γ : Type) where
  /-- None, once the store has broken down. -/
  connection : Option γ
  shared : Shared
  store : σ
  /-- The answers, the oldest first. -/
  answers : List Answer := []

namespace Solo

def take (b : Backend σ γ) (solo : Solo σ γ) : Input σ → Solo σ γ
  | .submit op =>
    match solo.connection with
    | some connection =>
      let (result, shared, connection, store) :=
        (dispatch b.answering op solo.shared (connection, solo.store)).value
      { connection := result.kept connection, shared, store
        answers := solo.answers ++ [result.answer] }
    | none => { solo with answers := solo.answers ++ [.error .closed] }
  | .meanwhile change => { solo with store := change solo.store }

def run (b : Backend σ γ) (solo : Solo σ γ) (inputs : List (Input σ)) : Solo σ γ :=
  inputs.foldl (take b) solo

variable {b : Backend σ γ} {solo : Solo σ γ}

theorem run_append (b : Backend σ γ) (solo : Solo σ γ) (inputs later : List (Input σ)) :
    solo.run b (inputs ++ later) = (solo.run b inputs).run b later := List.foldl_append

/-- The lone worker answers an operation with its dispatch, and is lost if that crashes. -/
theorem take_submit {op : Operation} {connection connection' : γ} {result : Result}
    {shared : Shared} {store : σ} (here : solo.connection = some connection)
    (dispatched : (dispatch b.answering op solo.shared (connection, solo.store)).value =
      (result, shared, connection', store)) :
    solo.take b (.submit op) =
      ⟨result.kept connection', shared, store, solo.answers ++ [result.answer]⟩ := by
  simp only [take, here, dispatched]

theorem take_closed (gone : solo.connection = none) (b : Backend σ γ) (op : Operation) :
    solo.take b (.submit op) = { solo with answers := solo.answers ++ [.error .closed] } := by
  simp only [take, gone]

/-- Once the store has broken down, everybody is answered `closed` and nothing else happens. -/
theorem run_closed (gone : solo.connection = none) (b : Backend σ γ) (inputs : List (Input σ)) :
    solo.run b inputs = { solo with
      store := inputs.foldl Input.disturb solo.store
      answers := solo.answers ++ (inputs.filterMap Input.op?).map fun _ => .error .closed } := by
  induction inputs generalizing solo with
  | nil => simp [run]
  | cons input inputs ih =>
      have first : solo.run b (input :: inputs) = (solo.take b input).run b inputs := rfl
      rw [first]
      cases input with
      | submit op =>
          have still : ({ solo with answers := solo.answers ++ [.error .closed] } :
              Solo σ γ).connection = none := gone
          rw [take_closed gone, ih still]
          simp [Input.op?, Input.disturb]
      | meanwhile change =>
          have still : ({ solo with store := change solo.store } :
              Solo σ γ).connection = none := gone
          rw [take, ih still]
          rfl

/-- Once the worker is lost, every operation is answered `closed`. -/
theorem run_submit_closed (gone : solo.connection = none) (b : Backend σ γ)
    (ops : List Operation) : solo.run b (ops.map .submit) =
      { solo with answers := solo.answers ++ ops.map fun _ => .error .closed } := by
  have undisturbed : (ops.map Input.submit).foldl Input.disturb solo.store = solo.store := by
    induction ops with
    | nil => rfl
    | cons op ops ih => exact ih
  have all : (ops.map (Input.submit (σ := σ))).filterMap Input.op? = ops := by
    simp [List.filterMap_map, Input.op?, Function.comp_def]
  rw [run_closed gone, undisturbed, all]

end Solo

/-! ## Numbers -/

/-- Answers as they are handed over, the newest first, if the tickets are the positions. -/
def numbered (answers : List Answer) : List (Nat × Answer) :=
  (answers.zipIdx.map Prod.swap).reverse

theorem numbered_concat (answers : List Answer) (a : Answer) :
    numbered (answers ++ [a]) = (answers.length, a) :: numbered answers := by
  simp [numbered, List.zipIdx_append]

theorem lookup_numbered (answers : List Answer) (i : Nat) :
    (numbered answers).lookup i = answers[i]? := by
  induction answers using List.reverseRecOn with
  | nil => rfl
  | append_singleton answers a ih =>
      rw [numbered_concat, List.lookup_cons, ih]
      rcases Nat.lt_trichotomy i answers.length with inside | rfl | beyond
      · have other : (i == answers.length) = false := beq_false_of_ne (Nat.ne_of_lt inside)
        rw [other, List.getElem?_append_left inside]
      · rw [beq_self_eq_true, List.getElem?_concat_length]
      · have other : (i == answers.length) = false := beq_false_of_ne (Nat.ne_of_gt beyond)
        rw [other, List.getElem?_eq_none (Nat.le_of_lt beyond), List.getElem?_eq_none]
        rw [List.length_append]
        exact beyond

/-- The jobs of operations that are submitted from this ticket on. -/
def jobsFrom (first : Nat) (ops : List Operation) : List Job :=
  (ops.zipIdx first).map fun (op, ticket) => ⟨ticket, op⟩

theorem jobsFrom_cons (first : Nat) (op : Operation) (ops : List Operation) :
    jobsFrom first (op :: ops) = ⟨first, op⟩ :: jobsFrom (first + 1) ops := rfl

theorem jobsFrom_concat (first : Nat) (ops : List Operation) (op : Operation) :
    jobsFrom first (ops ++ [op]) = jobsFrom first ops ++ [⟨first + ops.length, op⟩] := by
  simp [jobsFrom, List.zipIdx_append]

/-- Jobs that are given up are answered behind those that were answered before. -/
theorem givenUp_append (answers : List Answer) (ops : List Operation) :
    givenUp (jobsFrom answers.length ops) ++ numbered answers =
      numbered (answers ++ ops.map fun _ => .error .closed) := by
  induction ops using List.reverseRecOn with
  | nil => simp [givenUp, jobsFrom]
  | append_singleton ops op ih =>
      rw [List.map_append, ← List.append_assoc, List.map_singleton, numbered_concat, ← ih,
        jobsFrom_concat]
      simp [givenUp]

/-! ## How far the pool is -/

variable {b : Backend σ γ} {start p p' : Pool σ γ} {a : Action} {solo : Solo σ γ}
  {inputs : List (Input σ)} {pending : List Operation}

/-- What an open pool holds if `solo` is done, `taken` more operations are with its worker, and the
pending ones are with nobody. -/
structure Kept (solo : Solo σ γ) (taken : Nat) (pending : List Operation) (p : Pool σ γ) :
    Prop where
  opened : p.isOpen = true
  answers : p.answers = numbered solo.answers
  jobs : p.queue ++ p.waiting = jobsFrom (solo.answers.length + taken) pending
  tickets : p.tickets = solo.answers.length + taken + pending.length

/-- A pool with one worker that has come as far as `solo`, or is busy with the next operation, and
still has to carry out what is pending. -/
inductive Tracks (b : Backend σ γ) (solo : Solo σ γ) : List Operation → Pool σ γ → Prop
  | idle {pending : List Operation} {p : Pool σ γ} {connection : γ}
      (kept : Kept solo 0 pending p) (here : solo.connection = some connection)
      (workers : p.workers = [.idle connection]) (shared : p.shared = solo.shared)
      (store : p.store = solo.store) : Tracks b solo pending p
  /-- The steps that are left of the task come to what is left of the dispatch. -/
  | busy {pending : List Operation} {p : Pool σ γ} {op : Operation} {task : Task} {n : Nat}
      {connection connection' connection'' : γ} {result : Result} {shared : Shared} {store : σ}
      (kept : Kept solo 1 pending p) (here : solo.connection = some connection)
      (workers : p.workers = [.busy solo.answers.length task connection'])
      (dispatched : (dispatch b.answering op solo.shared (connection, solo.store)).value =
        (result, shared, connection'', store))
      (left : (task.run b.answering n p.shared (connection', p.store)).value =
        (.ended result, shared, connection'', store)) :
    Tracks b solo (op :: pending) p
  | lost {p : Pool σ γ} (kept : Kept solo 0 [] p) (gone : solo.connection = none)
      (workers : p.workers = [.lost]) (shared : p.shared = solo.shared)
      (store : p.store = solo.store) : Tracks b solo [] p

theorem lone_of_getElem? {w : Nat} {lone worker : Worker γ} (workers : p.workers = [lone])
    (here : p.workers[w]? = some worker) : w = 0 ∧ worker = lone := by
  rw [workers] at here
  cases w with
  | zero =>
      cases here
      exact ⟨rfl, rfl⟩
  | succ w => cases here

/-- A submission is put behind those that are pending. -/
theorem Kept.submit {taken : Nat} (kept : Kept solo taken pending p) (alive : p.isAlive = true)
    (op : Operation) : Kept solo taken (pending ++ [op]) (p.submit op) := by
  rw [submit_admitted kept.opened alive]
  refine ⟨kept.opened, kept.answers, ?_, ?_⟩
  · rw [← List.append_assoc, kept.jobs, jobsFrom_concat, kept.tickets]
  · rw [List.length_append, ← Nat.add_assoc, kept.tickets]
    rfl

/-- What is submitted becomes pending, or is answered at once if the worker has been lost. -/
theorem Tracks.submit (tracks : Tracks b solo pending p) (op : Operation) :
    Tracks b solo (pending ++ [op]) (p.submit op) ∨
      pending = [] ∧ Tracks b (solo.take b (.submit op)) [] (p.submit op) := by
  cases tracks with
  | idle kept here workers shared store =>
      have alive : p.isAlive = true := by
        rw [isAlive, workers]
        rfl
      have more := kept.submit alive op
      rw [submit_admitted kept.opened alive] at more ⊢
      exact .inl (.idle more here workers shared store)
  | busy kept here workers dispatched left =>
      have alive : p.isAlive = true := by
        rw [isAlive, workers]
        rfl
      have more := kept.submit alive op
      rw [submit_admitted kept.opened alive] at more ⊢
      exact .inl (.busy more here workers dispatched left)
  | lost kept gone workers shared store =>
      have dead : p.isAlive = false := by
        rw [isAlive, workers]
        rfl
      rw [submit_rejected (.inr dead), Solo.take_closed gone]
      refine .inr ⟨rfl, .lost ⟨kept.opened, ?_, ?_, ?_⟩ gone workers shared store⟩
      · rw [numbered_concat, kept.answers, kept.tickets]
        rfl
      · exact kept.jobs
      · rw [kept.tickets, List.length_append]
        rfl

theorem Kept.enqueued {taken : Nat} {job : Job} {waiting : List Job}
    (kept : Kept solo taken pending p) (first : p.waiting = job :: waiting) :
    Kept solo taken pending { p with waiting, queue := p.queue ++ [job] } := by
  refine ⟨kept.opened, kept.answers, ?_, kept.tickets⟩
  have jobs := kept.jobs
  rw [first] at jobs
  rw [List.append_assoc]
  exact jobs

/-- The first job in the queue is the first operation that is pending. -/
theorem Kept.first {job : Job} {queue : List Job} (kept : Kept solo 0 pending p)
    (first : p.queue = job :: queue) : ∃ op rest, pending = op :: rest ∧
      job = ⟨solo.answers.length, op⟩ ∧
      queue ++ p.waiting = jobsFrom (solo.answers.length + 1) rest := by
  have jobs := kept.jobs
  rw [first] at jobs
  cases pending with
  | nil => cases jobs
  | cons op rest =>
      rw [jobsFrom_cons] at jobs
      obtain ⟨own, others⟩ := List.cons.inj jobs
      exact ⟨op, rest, rfl, own, others⟩

/-- The worker takes an operation. -/
theorem Tracks.take {w : Nat} {job : Job} {queue : List Job} {connection : γ}
    (tracks : Tracks b solo pending p) (first : p.queue = job :: queue)
    (idle : p.workers[w]? = some (.idle connection)) :
    Tracks b solo pending { p with
      queue, workers := p.workers.set w (.busy job.ticket (.begun job.op) connection) } := by
  cases tracks with
  | idle kept here workers shared store =>
      obtain ⟨rfl, own⟩ := lone_of_getElem? workers idle
      cases own
      obtain ⟨op, rest, rfl, rfl, others⟩ := kept.first first
      rcases dispatched : (dispatch b.answering op solo.shared (connection, solo.store)).value with
        ⟨result, shared', connection', store'⟩
      have tickets : p.tickets = solo.answers.length + 1 + rest.length := by
        rw [kept.tickets, List.length_cons]
        omega
      have left : ((Task.begun op).run b.answering Task.longest p.shared
          (connection, p.store)).value = (.ended result, shared', connection', store') := by
        rw [shared, store, Task.run_begun, Logged.value_bind, dispatched]
        rfl
      refine .busy ⟨kept.opened, kept.answers, others, tickets⟩ here ?_ dispatched left
      rw [workers]
      rfl
  | busy _ _ workers | lost _ _ workers =>
      obtain ⟨-, own⟩ := lone_of_getElem? workers idle
      cases own

/-- The worker makes a step. -/
theorem Tracks.work {w ticket : Nat} {task task' : Task} {connection connection' : γ}
    {shared : Shared} {store : σ} (tracks : Tracks b solo pending p)
    (busy : p.workers[w]? = some (.busy ticket task connection))
    (unfinished : ∀ result, task ≠ .ended result)
    (stepped : (task.step b.answering p.shared (connection, p.store)).value =
      (task', shared, connection', store)) :
    Tracks b solo pending
      { p with shared, store, workers := p.workers.set w (.busy ticket task' connection') } := by
  cases tracks with
  | @busy _ _ _ _ n _ _ _ _ _ _ kept here workers dispatched left =>
      obtain ⟨rfl, own⟩ := lone_of_getElem? workers busy
      cases own
      cases n with
      | zero =>
          cases left
          exact absurd rfl (unfinished _)
      | succ n =>
          rw [Task.run, Logged.value_bind, stepped] at left
          refine .busy ⟨kept.opened, kept.answers, kept.jobs, kept.tickets⟩ here ?_ dispatched left
          rw [workers]
          rfl
  | idle _ _ workers | lost _ _ workers =>
      obtain ⟨-, own⟩ := lone_of_getElem? workers busy
      cases own

/-- What the pool holds when the worker has ended its task is what the dispatch has left. -/
theorem Tracks.ended {w ticket : Nat} {result : Result} {connection' : γ}
    (tracks : Tracks b solo pending p)
    (busy : p.workers[w]? = some (.busy ticket (.ended result) connection')) :
    ∃ op rest, pending = op :: rest ∧ ticket = solo.answers.length ∧ Kept solo 1 rest p ∧
      p.workers = [.busy solo.answers.length (.ended result) connection'] ∧ w = 0 ∧
      solo.take b (.submit op) =
        ⟨result.kept connection', p.shared, p.store, solo.answers ++ [result.answer]⟩ := by
  cases tracks with
  | busy kept here workers dispatched left =>
      obtain ⟨rfl, own⟩ := lone_of_getElem? workers busy
      cases own
      rw [Task.run_ended, Logged.value_pure] at left
      cases left
      exact ⟨_, _, rfl, rfl, kept, workers, rfl, Solo.take_submit here dispatched⟩
  | idle _ _ workers | lost _ _ workers =>
      obtain ⟨-, own⟩ := lone_of_getElem? workers busy
      cases own

/-- An event of the pool's own changes nothing in what is to be done, or carries some of it out. -/
theorem Tracks.advance (tracks : Tracks b solo pending p) (change : Change b p a p')
    (own : a.isWork = true) : ∃ done rest, pending = done ++ rest ∧
      Tracks b (solo.run b (done.map .submit)) rest p' := by
  cases change with
  | admitted | rejected | closed | stopped => cases own
  | enqueued first _ =>
      refine ⟨[], pending, rfl, ?_⟩
      cases tracks with
      | idle kept here workers shared store =>
          exact .idle (kept.enqueued first) here workers shared store
      | busy kept here workers dispatched left =>
          exact .busy (kept.enqueued first) here workers dispatched left
      | lost kept gone workers shared store =>
          exact .lost (kept.enqueued first) gone workers shared store
  | taken first idle => exact ⟨[], pending, rfl, tracks.take first idle⟩
  | worked busy unfinished stepped =>
      exact ⟨[], pending, rfl, tracks.work busy unfinished stepped⟩
  | answered busy =>
      obtain ⟨op, rest, rfl, rfl, kept, workers, rfl, took⟩ := tracks.ended busy
      have ran : solo.run b [.submit op] = _ := took
      refine ⟨[op], rest, rfl, ?_⟩
      rw [List.map_singleton, ran]
      refine .idle ⟨kept.opened, ?_, ?_, ?_⟩ rfl ?_ rfl rfl
      · rw [numbered_concat, kept.answers]
        rfl
      · rw [List.length_append]
        exact kept.jobs
      · rw [List.length_append]
        exact kept.tickets
      · rw [workers]
        rfl
  | lost busy left =>
      -- There is no other worker that could be left.
      obtain ⟨-, -, -, -, -, workers, rfl, -⟩ := tracks.ended busy
      rw [workers] at left
      cases left
  | abandoned busy _ =>
      -- What is given up with the worker is what `solo` answers once its connection is gone.
      obtain ⟨op, rest, rfl, rfl, kept, workers, rfl, took⟩ := tracks.ended busy
      have ran : solo.run b [.submit op] = _ := took
      have gone : (solo.run b [.submit op]).connection = none := by rw [ran]; rfl
      have all : solo.run b ((op :: rest).map .submit) =
          (solo.run b [.submit op]).run b (rest.map .submit) := rfl
      refine ⟨op :: rest, [], (List.append_nil _).symm, ?_⟩
      rw [all, Solo.run_submit_closed gone, ran]
      refine .lost ⟨kept.opened, ?_, rfl, ?_⟩ rfl ?_ rfl rfl
      · have given := givenUp_append (solo.answers ++ [.error .closed]) rest
        rw [List.length_append, numbered_concat] at given
        rw [kept.jobs, kept.answers]
        exact given
      · simp only [List.length_append, List.length_map, List.length_cons, List.length_nil]
        exact kept.tickets
      · rw [workers]
        rfl

/-- What can be seen of the pool is what `solo` has come to. -/
structure Agrees (p : Pool σ γ) (solo : Solo σ γ) : Prop where
  answers : ∀ i, p.answer? i = solo.answers[i]?
  shared : p.shared = solo.shared
  store : p.store = solo.store

theorem Kept.agrees {taken : Nat} (kept : Kept solo taken pending p)
    (shared : p.shared = solo.shared) (store : p.store = solo.store) : p.Agrees solo := by
  refine ⟨fun i => ?_, shared, store⟩
  rw [answer?, kept.answers]
  exact lookup_numbered _ i

/-- When nothing is left to do, the pool is exactly as far as `solo`. -/
theorem Tracks.rest (tracks : Tracks b solo pending p) (sound : p.Sound) (room : 0 < p.depth)
    (still : p.Still b) : pending = [] ∧ p.Agrees solo := by
  obtain ⟨waiting, queue, free⟩ := clear_of_still sound.dead room still
  cases tracks with
  | idle kept here workers shared store =>
      have jobs := kept.jobs
      rw [waiting, queue] at jobs
      cases pending with
      | nil => exact ⟨rfl, kept.agrees shared store⟩
      | cons op rest => cases jobs
  | busy kept here workers dispatched left =>
      have none := free solo.answers.length
      rw [workers, List.countP_singleton, Worker.holds, if_pos (decide_eq_true rfl)] at none
      cases none
  | lost kept gone workers shared store => exact ⟨rfl, kept.agrees shared store⟩

/-- The store may be changed then. -/
theorem Tracks.meanwhile (tracks : Tracks b solo pending p) (sound : p.Sound)
    (room : 0 < p.depth) (still : p.Still b) (change : σ → σ) : pending = [] ∧
      Tracks b (solo.take b (.meanwhile change)) [] { p with store := change p.store } := by
  obtain ⟨rfl, -⟩ := tracks.rest sound room still
  refine ⟨rfl, ?_⟩
  cases tracks with
  | idle kept here workers shared store =>
      exact .idle ⟨kept.opened, kept.answers, kept.jobs, kept.tickets⟩ here workers shared
        (congrArg change store)
  | lost kept gone workers shared store =>
      exact .lost ⟨kept.opened, kept.answers, kept.jobs, kept.tickets⟩ gone workers shared
        (congrArg change store)

/-! ## Along a life -/

theorem Life.sound (life : Life b start inputs p) (sound : start.Sound) (room : 0 < start.depth) :
    p.Sound ∧ 0 < p.depth := by
  induction life with
  | start => exact ⟨sound, room⟩
  | @submit _ p _ op ih =>
      have change := change_submit (b := b) p op
      exact ⟨ih.1.change change, change.frame.1 ▸ ih.2⟩
  | work _ _ happens ih =>
      have change := change_of_act? happens
      exact ⟨ih.1.change change, change.frame.1 ▸ ih.2⟩
  | meanwhile _ _ _ ih =>
      exact ⟨⟨ih.1.places, ih.1.dead, ih.1.stopped, ih.1.intact⟩, ih.2⟩

/-- Whatever has come in, the pool has carried out all of it but some operations at the end. -/
theorem Life.tracks (life : Life b start inputs p) (sound : start.Sound) (room : 0 < start.depth)
    (tracks : Tracks b solo [] start) : ∃ done pending, inputs = done ++ pending.map .submit ∧
      Tracks b (solo.run b done) pending p := by
  induction life with
  | start => exact ⟨[], [], rfl, tracks⟩
  | submit life op ih =>
      obtain ⟨done, pending, rfl, tracks⟩ := ih
      rcases tracks.submit op with more | ⟨rfl, closed⟩
      · refine ⟨done, pending ++ [op], ?_, more⟩
        rw [List.map_append, List.append_assoc]
        rfl
      · refine ⟨done ++ [.submit op], [], ?_, ?_⟩
        · rw [List.map_nil, List.append_nil, List.append_nil]
        · rw [Solo.run_append]
          exact closed
  | work life own happens ih =>
      obtain ⟨done, pending, rfl, tracks⟩ := ih
      obtain ⟨more, rest, rfl, later⟩ := tracks.advance (change_of_act? happens) own
      refine ⟨done ++ more.map .submit, rest, ?_, ?_⟩
      · rw [List.map_append, List.append_assoc]
      · rw [Solo.run_append]
        exact later
  | meanwhile life still change ih =>
      obtain ⟨done, pending, rfl, tracks⟩ := ih
      obtain ⟨sound, room⟩ := life.sound sound room
      obtain ⟨rfl, later⟩ := tracks.meanwhile sound room still change
      refine ⟨done ++ [.meanwhile change], [], ?_, ?_⟩
      · rw [List.map_nil, List.append_nil, List.append_nil]
      · rw [Solo.run_append]
        exact later

/-- What the pool does of its own continues its life. -/
theorem Life.trans {later : Pool σ γ} (life : Life b start inputs p) (more : Life b p [] later) :
    Life b start inputs later := by
  generalize none : [] = inputs' at more
  induction more with
  | start => exact life
  | submit | meanwhile => simp at none
  | work _ own happens ih => exact .work (ih none) own happens

/-- Events of the pool itself go on with a life and take no input. -/
theorem Life.performAll (life : Life b start inputs p) {events : List Action}
    (own : ∀ a ∈ events, a.isWork = true) : Life b start inputs (p.performAll b events).value := by
  induction events generalizing p with
  | nil => exact life
  | cons a events ih =>
      have rest : (p.performAll b (a :: events)).value =
          ((p.perform b a).value.performAll b events).value := rfl
      rw [rest]
      refine ih ?_ fun a member => own a (List.mem_cons_of_mem _ member)
      unfold perform
      cases happens : p.act? b a with
      | none => exact life
      | some change => exact life.work (own a List.mem_cons_self) happens

/-- The pool comes to an end with what has been submitted. -/
theorem exists_still (sound : p.Sound) : ∃ q, Life b p [] q ∧ q.Still b := by
  induction less : p.left using Nat.strongRecOn generalizing p with
  | ind n ih =>
      by_cases still : p.Still b
      · exact ⟨p, .start, still⟩
      · obtain ⟨a, own, happens⟩ : ∃ a, a.isWork = true ∧ p.act? b a ≠ none := by
          simpa [Still] using still
        obtain ⟨change, happens⟩ := Option.ne_none_iff_exists'.mp happens
        have changed := change_of_act? happens
        have begun : Life b p [] change.value := .work .start own happens
        obtain ⟨q, rest, still⟩ :=
          ih _ (less ▸ changed.left_lt sound own) (sound.change changed) rfl
        exact ⟨q, begun.trans rest, still⟩

/-- When nothing is left to do, all that has come in has been carried out. -/
theorem Life.agrees (life : Life b start inputs p) (sound : start.Sound) (room : 0 < start.depth)
    (tracks : Tracks b solo [] start) (still : p.Still b) : p.Agrees (solo.run b inputs) := by
  obtain ⟨done, pending, rfl, tracks⟩ := life.tracks sound room tracks
  obtain ⟨sound, room⟩ := life.sound sound room
  obtain ⟨rfl, agrees⟩ := tracks.rest sound room still
  rw [List.map_nil, List.append_nil]
  exact agrees

/-- A pool of one worker starts if its connection is not refused and its queue can be made. -/
theorem start_lone {s s' : σ} {connection : γ} {depth : Nat}
    (connected : (b.connect s).value = (.ok connection, s')) (room : 0 < depth)
    (few : depth ≤ maxDepth) (shared : Shared) :
    (Pool.start b 1 depth shared s).value =
      (.ok { depth, workers := [.idle connection], shared, store := s' }, s') := by
  unfold Pool.start
  rw [if_neg (by omega), if_neg (by omega)]
  simp only [connectAll, Logged.value_bind, connected, Logged.value_pure]
  rfl

/-- The cache of `solo` stays intact. -/
theorem Solo.intact_take (intact : solo.shared.cache.Intact) (input : Input σ) :
    (solo.take b input).shared.cache.Intact := by
  cases input with
  | meanwhile change => exact intact
  | submit op =>
      cases here : solo.connection with
      | none =>
          rw [take_closed here]
          exact intact
      | some connection =>
          have ending := Dispatch.ending intact b.answering op (connection, solo.store)
          rcases dispatched :
            (dispatch b.answering op solo.shared (connection, solo.store)).value with
            ⟨result, shared, connection', store⟩
          rw [dispatched] at ending
          rw [take_submit here dispatched]
          exact ending.intact intact

theorem Solo.intact_run (intact : solo.shared.cache.Intact) (inputs : List (Input σ)) :
    (solo.run b inputs).shared.cache.Intact := by
  induction inputs generalizing solo with
  | nil => exact intact
  | cons input inputs ih => exact ih (intact_take intact input)

/-- The operation under which the store breaks down is answered `closed`, as all later ones are. It
is counted; apart from that the cache and the store are left to what comes from outside. -/
theorem Solo.run_crashed {before after : List (Input σ)} {op : Operation}
    {connection connection' : γ} {text : String} {shared : Shared} {store : σ}
    (intact : solo.shared.cache.Intact)
    (here : (solo.run b before).connection = some connection)
    (crashed : (dispatch b.answering op (solo.run b before).shared (connection,
      (solo.run b before).store)).value = (.crashed text, shared, connection', store)) :
    let met := solo.run b before
    let left := solo.run b (before ++ .submit op :: after)
    left.answers = met.answers ++ .error .closed ::
        (after.filterMap Input.op?).map (fun _ => .error .closed) ∧
      left.shared.cache = met.shared.cache ∧
      left.shared.counters = {
        requests := met.shared.counters.requests + 1
        hits := met.shared.counters.hits
        misses := met.shared.counters.misses + if op.looksUp then 1 else 0 } ∧
      left.store = after.foldl Input.disturb store := by
  intro met left
  have broken : met.take b (.submit op) =
      ⟨none, shared, store, met.answers ++ [.error .closed]⟩ := take_submit here crashed
  have rest : left = (met.take b (.submit op)).run b after := run_append b solo before _
  have still : met.shared.cache.Intact := intact_run intact before
  have ending := Dispatch.ending still b.answering op (connection, met.store)
  have came : (dispatch b.answering op met.shared (connection, met.store)).value =
      (.crashed text, shared, connection', store) := crashed
  rw [came] at ending
  obtain ⟨cache, counters⟩ := ending.failure rfl
  rw [rest, broken, run_closed rfl]
  refine ⟨?_, cache, counters, rfl⟩
  rw [List.append_assoc]
  rfl

/-- A pool with one worker comes to an end with all that is submitted to it, and then it has come
to what dispatching the operations one after the other comes to, up to the first under which the
store breaks down. That one is counted and answered `closed`; all later ones are answered `closed`
and change nothing. How deep the queue is makes no difference, nor how many operations are
submitted together, nor when the worker makes its steps. -/
theorem lone_worker_is_sequential {capacity : Nat} {shared : Shared} {s s' : σ} {connection : γ}
    (reachable : Cache.Reachable capacity shared.cache)
    (connected : (b.connect s).value = (.ok connection, s')) :
    let solo := Solo.run b { connection := some connection, shared, store := s' }
    (∀ depth, 0 < depth → depth ≤ maxDepth → ∃ start,
      (Pool.start b 1 depth shared s).value = (.ok start, s') ∧
        ∀ {inputs p}, Life b start inputs p →
          (∃ q, Life b p [] q ∧ q.Still b) ∧ (p.Still b → p.Agrees (solo inputs))) ∧
      ∀ {before after op connection' connection'' text broken store},
        (solo before).connection = some connection' →
        (dispatch b.answering op (solo before).shared (connection', (solo before).store)).value =
          (.crashed text, broken, connection'', store) →
        let met := solo before
        let left := solo (before ++ .submit op :: after)
        left.answers = met.answers ++ .error .closed ::
            (after.filterMap Input.op?).map (fun _ => .error .closed) ∧
          left.shared.cache = met.shared.cache ∧
          left.shared.counters = {
            requests := met.shared.counters.requests + 1
            hits := met.shared.counters.hits
            misses := met.shared.counters.misses + if op.looksUp then 1 else 0 } ∧
          left.store = after.foldl Input.disturb store := by
  intro solo
  have intact := reachable.intact.1
  constructor
  · intro depth room few
    have started := start_lone connected room few shared
    refine ⟨_, started, fun life => ?_⟩
    have sound := sound_start started intact
    have tracks : Tracks b { connection := some connection, shared, store := s' } []
        { depth, workers := [.idle connection], shared, store := s' } :=
      .idle ⟨rfl, rfl, rfl, rfl⟩ rfl rfl rfl rfl
    exact ⟨exists_still (life.sound sound room).1, life.agrees sound room tracks⟩
  · intro before after op connection' connection'' text broken store here crashed
    exact Solo.run_crashed intact here crashed

/-- Three operations are submitted together to a pool with room for one in its queue. The store
breaks down under the second, with the third still waiting; one that comes after the store has been
mended is not carried out either. -/
theorem lone_worker_is_sequential_until_crash :
    let b := Memory.backend.faulty
    let crash : FaultRule := { verb := .get, key := some "b", fault := .crash "down" }
    let s : Faulty Table := { store := {}, rules := [crash] }
    let s' : Faulty Table := { s with attempts := 1 }
    let start : Pool (Faulty Table) Unit := {
      depth := 1, workers := [.idle ()], shared := .fresh 2, store := s' }
    let events : List Action := [.enqueue, .take 0, .enqueue, .work 0, .work 0, .work 0, .reply 0,
      .take 0, .work 0, .enqueue, .work 0, .work 0, .reply 0]
    let batch : List (Input (Faulty Table)) :=
      [.submit (.write "a" (some "1")), .submit (.read "b"), .submit (.read "a")]
    let lost := ((((start.submit (.write "a" (some "1"))).submit (.read "b")).submit
      (.read "a")).performAll b events).value
    let p := ({ lost with store := lost.store.heal } : Pool (Faulty Table) Unit).submit (.read "a")
    let solo := Solo.run b { connection := some (), shared := .fresh 2, store := s' }
    let inputs := batch ++ [.meanwhile Faulty.heal, .submit (.read "a")]
    (b.connect s).value = (.ok (), s') ∧
      Life b start inputs p ∧ p.Still b ∧ p.Agrees (solo inputs) ∧
      p.answers = [(3, .error .closed), (2, .error .closed), (1, .error .closed),
        (0, .ok ⟨.ok, none⟩)] ∧ p.shared.counters = ⟨2, 0, 1⟩ ∧
      (solo inputs).shared.cache = (solo [.submit (.write "a" (some "1"))]).shared.cache := by
  intro b crash s s' start events batch lost p solo inputs
  have reachable : Cache.Reachable 2 (Shared.fresh 2).cache := .new rfl
  have connected : (b.connect s).value = (.ok (), s') := rfl
  obtain ⟨pools, breaks⟩ := lone_worker_is_sequential reachable connected
  obtain ⟨start', started, comes⟩ := pools 1 (by decide) (by decide)
  have same : start' = start := by
    rw [start_lone connected (by decide) (by decide)] at started
    cases started
    rfl
  subst same
  have rests : ∀ p : Pool (Faulty Table) Unit, (0 < p.depth ∧ p.waiting = [] ∧ p.queue = [] ∧
      p.isAlive = false) → p.Still b := by
    rintro p ⟨room, waiting, queue, dead⟩
    refine Resting.still ⟨room, waiting, queue, fun worker member alive => ?_⟩ b
    exact absurd (List.any_eq_true.mpr ⟨worker, member, alive⟩) (Bool.eq_false_iff.mp dead)
  have submitted : Life b start batch _ := ((Life.start.submit _).submit _).submit _
  have crashed : Life b start batch lost := submitted.performAll (by decide)
  have abandoned : lost.Still b := rests lost (by decide +kernel)
  have life : Life b start inputs p := (crashed.meanwhile abandoned Faulty.heal).submit (.read "a")
  have still : p.Still b := rests p (by decide +kernel)
  have answers : p.answers = [(3, .error .closed), (2, .error .closed), (1, .error .closed),
      (0, .ok ⟨.ok, none⟩)] := by
    decide +kernel
  have counters : p.shared.counters = ⟨2, 0, 1⟩ := by decide +kernel
  have first : (solo [.submit (.write "a" (some "1"))]).connection = some () := rfl
  have reply : (dispatch b.answering (.read "b") (solo [.submit (.write "a" (some "1"))]).shared
    ((), (solo [.submit (.write "a" (some "1"))]).store)).value = (.crashed "down", _, (), _) := rfl
  obtain ⟨-, cache, -, -⟩ := breaks first reply
  exact ⟨connected, life, still, (comes life).2 still, answers, counters, cache⟩

end Pool

end CacheAside
