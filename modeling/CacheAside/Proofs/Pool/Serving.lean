import CacheAside.Pool.Schedule
import CacheAside.Proofs.Dispatch.Deployment
import CacheAside.Proofs.Dispatch.Uninterrupted

/-!
# Serving one operation

A pool at rest that is open and has a worker left serves an operation by one dispatch of it: an idle
worker takes the job, makes all its steps, and hands over the answer (`Pool.serve_eq`). A pool that
is closed or has lost all its workers hands the operation back (`Pool.serve_rejected`).
-/

namespace CacheAside

/-- What a worker is when its operation has come to this result. -/
def Worker.after {γ : Type} (connection : γ) : Result → Worker γ
  | .answered _ => .idle connection
  | .crashed _ => .lost

theorem Worker.isIdle_after {γ : Type} {connection : γ} {result : Result}
    (alive : (Worker.after connection result).isAlive = true) :
    (Worker.after connection result).isIdle = true := by
  cases result with
  | answered outcome => rfl
  | crashed text => cases alive

namespace Pool

variable {σ γ : Type} {b : Backend σ γ} {p : Pool σ γ} {w ticket : Nat} {connection : γ}

/-! ## One turn of a worker -/

theorem set_of_getElem? {worker : Worker γ} (here : p.workers[w]? = some worker) :
    p.workers.set w worker = p.workers := by
  obtain ⟨inside, rfl⟩ := List.getElem?_eq_some_iff.mp here
  exact List.set_getElem_self inside

theorem getElem?_set_of_getElem? {worker : Worker γ} (here : p.workers[w]? = some worker)
    (next : Worker γ) : (p.workers.set w next)[w]? = some next :=
  List.getElem?_set_self (List.getElem?_eq_some_iff.mp here).1

theorem alive_set {old next : Worker γ} (here : p.workers[w]? = some old)
    (alive : next.isAlive = true) : (p.workers.set w next).any Worker.isAlive = true :=
  List.any_eq_true.mpr ⟨next, List.mem_of_getElem? (getElem?_set_of_getElem? here next), alive⟩

/-- A step of a task that has ended changes nothing, so it makes no difference that there is no
such event. -/
theorem perform_work {task : Task} (busy : p.workers[w]? = some (.busy ticket task connection)) :
    p.perform b (.work w) = do
      let (task, shared, connection, store) ←
        task.step b.answering p.shared (connection, p.store)
      return { p with shared, store }.setWorker w (.busy ticket task connection) := by
  have same := set_of_getElem? busy
  unfold perform act? work?
  dsimp only
  rw [busy]
  cases task with
  | ended result =>
      simp only [Option.getD_none, Task.step, pure_bind, setWorker, same]
  | begun | finding | fetching | filling | storing | adopting | removing | forgetting => rfl

/-- The work of one worker, as often as an operation may need it, is a run of its task. -/
theorem performAll_work {task : Task} (n : Nat)
    (busy : p.workers[w]? = some (.busy ticket task connection)) :
    p.performAll b (List.replicate n (.work w)) = do
      let (task, shared, connection, store) ←
        Task.run b.answering n task p.shared (connection, p.store)
      return { p with shared, store }.setWorker w (.busy ticket task connection) := by
  induction n generalizing p task connection with
  | zero =>
      have same := set_of_getElem? busy
      simp only [List.replicate_zero, performAll, List.foldlM_nil, Task.run, pure_bind, setWorker,
        same]
  | succ n ih =>
      have first : p.performAll b (List.replicate (n + 1) (.work w)) =
          p.perform b (.work w) >>= fun p => p.performAll b (List.replicate n (.work w)) := rfl
      rw [first, perform_work busy, Task.run]
      simp only [bind_assoc, pure_bind]
      apply bind_congr
      rintro ⟨task', shared, connection', store⟩
      have busy' := getElem?_set_of_getElem? busy (.busy ticket task' connection')
      rw [ih busy']
      simp only [setWorker, List.set_set]

theorem abandon_of_empty (waiting : p.waiting = []) (queue : p.queue = []) : p.abandon = p := by
  rcases p with ⟨depth, workers, shared, store, isOpen, _, _, answers, tickets⟩
  cases waiting
  cases queue
  rfl

/-- When nobody waits, losing the last worker gives up no job. -/
theorem perform_reply {result : Result} (waiting : p.waiting = []) (queue : p.queue = [])
    (busy : p.workers[w]? = some (.busy ticket (.ended result) connection)) :
    p.perform b (.reply w) = pure { p with
      workers := p.workers.set w (.after connection result)
      answers := (ticket, result.answer) :: p.answers } := by
  unfold perform act? reply?
  dsimp only
  rw [busy]
  cases result with
  | answered outcome => rfl
  | crashed text =>
      refine congrArg pure ?_
      split
      · rfl
      · exact abandon_of_empty waiting queue

/-- A turn is taken up, begun, worked on and replied to. -/
theorem performAll_turn_steps (p : Pool σ γ) (w : Nat) : p.performAll b (turn w) =
    p.perform b .enqueue >>= fun p => p.perform b (.take w) >>= fun p =>
      p.performAll b (List.replicate Task.longest (.work w)) >>= fun p =>
        p.perform b (.reply w) := by
  simp only [turn, performAll, List.foldlM_append, List.foldlM_cons, List.foldlM_nil,
    List.cons_append, List.nil_append, bind_pure]

/-- An idle worker makes one dispatch out of the only job that waits. -/
theorem performAll_turn {job : Job} (room : 0 < p.depth) (waiting : p.waiting = [job])
    (queue : p.queue = []) (idle : p.workers[w]? = some (.idle connection)) :
    p.performAll b (turn w) = do
      let (result, shared, connection, store) ←
        dispatch b.answering job.op p.shared (connection, p.store)
      return { p with
        waiting := [], shared, store
        workers := p.workers.set w (.after connection result)
        answers := (job.ticket, result.answer) :: p.answers } := by
  have entered : p.perform b .enqueue = pure { p with waiting := [], queue := [job] } := by
    have enough : p.queue.length < p.depth := by simpa [queue] using room
    unfold perform act? enqueue?
    simp [waiting, queue, room]
  have taken : ({ p with waiting := [], queue := [job] } : Pool σ γ).perform b (.take w) =
      pure ({ p with waiting := [] }.setWorker w
        (.busy job.ticket (.begun job.op) connection)) := by
    unfold perform act? take?
    simp [idle, setWorker, queue]
  have busy := getElem?_set_of_getElem? idle (.busy job.ticket (.begun job.op) connection)
  rw [performAll_turn_steps, entered, pure_bind, taken, pure_bind,
    performAll_work Task.longest busy, Task.run_begun]
  simp only [bind_assoc, pure_bind]
  apply bind_congr
  rintro ⟨result, shared, connection', store⟩
  simp only [setWorker, List.set_set]
  have ended := getElem?_set_of_getElem? idle (.busy job.ticket (.ended result) connection')
  have replied := perform_reply (b := b)
    (p := { p with
      waiting := [], shared, store
      workers := p.workers.set w (.busy job.ticket (.ended result) connection') }) rfl queue ended
  simp only [List.set_set] at replied
  exact replied

/-! ## Pools at rest -/

/-- No operation is under way, and the queue can take one. -/
structure Resting (p : Pool σ γ) : Prop where
  room : 0 < p.depth
  waiting : p.waiting = []
  queue : p.queue = []
  workers : ∀ worker ∈ p.workers, worker.isAlive = true → worker.isIdle = true

/-- A pool at rest with a worker alive has an idle one. -/
theorem Resting.exists_idle (resting : p.Resting) (alive : p.isAlive = true) :
    ∃ (w : Nat) (connection : γ), p.workers[w]? = some (.idle connection) := by
  obtain ⟨worker, member, living⟩ := List.any_eq_true.mp alive
  have idle := resting.workers worker member living
  obtain ⟨w, here⟩ := List.mem_iff_getElem?.mp member
  cases worker with
  | idle connection => exact ⟨w, connection, here⟩
  | busy | stopped | lost => cases idle

theorem idle_of_nextIdle {first next : Nat} (found : p.nextIdle? first = some next) :
    ∃ connection : γ, p.workers[next]? = some (.idle connection) := by
  have isIdle : p.workers[next]?.any Worker.isIdle = true :=
    List.find?_some (p := fun i => p.workers[i]?.any Worker.isIdle) found
  cases content : p.workers[next]? with
  | none =>
      rw [content] at isIdle
      cases isIdle
  | some worker =>
      rw [content] at isIdle
      cases worker with
      | idle connection => exact ⟨connection, rfl⟩
      | busy | stopped | lost => cases isIdle

/-- The search for an idle worker goes once around, so it finds one if there is one. -/
theorem exists_nextIdle (idle : p.workers[w]? = some (.idle connection)) (first : Nat) :
    ∃ (next : Nat) (connection : γ), p.nextIdle? first = some next ∧
      p.workers[next]? = some (.idle connection) := by
  have inside : w < p.workers.length := (List.getElem?_eq_some_iff.mp idle).1
  have isIdle : p.workers[w]?.any Worker.isIdle = true := by rw [idle]; rfl
  have around : w ∈ (List.range p.workers.length).map fun i => (first + i) % p.workers.length := by
    refine List.mem_map.mpr ⟨(w + (p.workers.length - first % p.workers.length)) %
      p.workers.length, List.mem_range.mpr (Nat.mod_lt _ (by omega)), ?_⟩
    have below : first % p.workers.length < p.workers.length := Nat.mod_lt _ (by omega)
    have parts := Nat.div_add_mod first p.workers.length
    rw [Nat.add_mod, Nat.mod_mod, ← Nat.add_mod]
    have whole : first + (w + (p.workers.length - first % p.workers.length)) =
        w + p.workers.length * (first / p.workers.length + 1) := by
      rw [Nat.mul_add]
      omega
    rw [whole, Nat.add_mul_mod_self_left, Nat.mod_eq_of_lt inside]
  have found : (p.nextIdle? first).isSome = true := List.find?_isSome.mpr ⟨w, around, isIdle⟩
  obtain ⟨next, here⟩ := Option.isSome_iff_exists.mp found
  obtain ⟨connection', content⟩ := idle_of_nextIdle here
  exact ⟨next, connection', here, content⟩

/-! ## Serving -/

theorem submit_admitted (opened : p.isOpen = true) (alive : p.isAlive = true) (op : Operation) :
    p.submit op =
      { p with waiting := p.waiting ++ [⟨p.tickets, op⟩], tickets := p.tickets + 1 } := by
  have taken : (p.isOpen && p.isAlive) = true := by rw [opened, alive]; rfl
  exact if_pos taken

/-- Where nobody would serve it, an operation is handed back. -/
theorem submit_rejected (shut : p.isOpen = false ∨ p.isAlive = false) (op : Operation) :
    p.submit op =
      { p with answers := (p.tickets, .error .closed) :: p.answers, tickets := p.tickets + 1 } := by
  have refused : ¬ (p.isOpen && p.isAlive) = true := by
    rcases shut with closed | dead
    · simp [closed]
    · simp [dead]
  exact if_neg refused

/-- A single job is settled by one turn of the next idle worker. -/
theorem settle_eq_turn {job : Job} (waiting : p.waiting = [job]) (queue : p.queue = [])
    (next : p.nextIdle? (p.tickets - 1) = some w) :
    p.settle b = p.performAll b (turn w) := by
  unfold settle
  rw [waiting, queue]
  change p.settleFrom b 1 (p.tickets - 1) = _
  rw [settleFrom, next]
  exact bind_pure _

/-- One dispatch, over the connection of a worker that was idle, is all that serving does. -/
theorem serve_eq (resting : p.Resting) (opened : p.isOpen = true) (alive : p.isAlive = true)
    (b : Backend σ γ) (op : Operation) :
    ∃ (w : Nat) (connection : γ), p.workers[w]? = some (.idle connection) ∧ p.serve b op = do
      let (result, shared, connection, store) ←
        dispatch b.answering op p.shared (connection, p.store)
      return (result.answer, { p with
        shared, store
        workers := p.workers.set w (.after connection result)
        answers := []
        tickets := p.tickets + 1 }) := by
  obtain ⟨someone, own, idle⟩ := resting.exists_idle alive
  obtain ⟨w, connection, next, here⟩ := exists_nextIdle idle p.tickets
  refine ⟨w, connection, here, ?_⟩
  have submitted : p.performAll b ([op].map .submit) =
      pure { p with waiting := [⟨p.tickets, op⟩], tickets := p.tickets + 1 } := by
    have admitted := submit_admitted opened alive op
    rw [resting.waiting] at admitted
    exact congrArg pure admitted
  have settled := settle_eq_turn (b := b)
    (p := { p with waiting := [⟨p.tickets, op⟩], tickets := p.tickets + 1 }) rfl resting.queue next
  have turned := performAll_turn (b := b)
    (p := { p with waiting := [⟨p.tickets, op⟩], tickets := p.tickets + 1 }) resting.room rfl
    resting.queue here
  rw [serve, serveAll, submitted, pure_bind, settled, turned]
  simp only [bind_assoc, pure_bind]
  apply bind_congr
  rintro ⟨result, shared, connection', store⟩
  simp [collect, answer?, resting.waiting]

/-- An operation that is not taken is handed back, and nothing else happens. -/
theorem serve_rejected (resting : p.Resting) (shut : p.isOpen = false ∨ p.isAlive = false)
    (b : Backend σ γ) (op : Operation) :
    p.serve b op = pure (.error .closed, { p with answers := [], tickets := p.tickets + 1 }) := by
  have rejected := submit_rejected shut op
  have submitted : p.performAll b ([op].map .submit) = pure
      { p with answers := (p.tickets, .error .closed) :: p.answers, tickets := p.tickets + 1 } :=
    congrArg pure rejected
  have settled : ({ p with
      answers := (p.tickets, .error .closed) :: p.answers
      tickets := p.tickets + 1 } : Pool σ γ).settle b = pure { p with
        answers := (p.tickets, .error .closed) :: p.answers, tickets := p.tickets + 1 } := by
    unfold settle
    dsimp only
    rw [resting.waiting, resting.queue]
    rfl
  rw [serve, serveAll, submitted, pure_bind, settled]
  simp [collect, answer?]

/-! ## Pools that have only served -/

theorem length_connectAll {n first : Nat} {s s' : σ} {connections : List γ}
    (opened : (connectAll b n first s).value = (.ok connections, s')) :
    connections.length = n := by
  induction n generalizing first s connections with
  | zero =>
      cases opened
      rfl
  | succ n ih =>
      unfold connectAll at opened
      rcases connected : (b.connect s).value with ⟨cause | connection, t⟩
      · simp only [Logged.value_bind, connected] at opened
        cases opened
      · rcases rest : (connectAll b n (first + 1) t).value with ⟨cause | others, t'⟩
        · simp only [Logged.value_bind, connected, rest] at opened
          cases opened
        · simp only [Logged.value_bind, connected, rest] at opened
          cases opened
          rw [List.length_cons, ih rest]

/-- A pool starts with as many idle workers as it is to have, and with room in its queue. -/
theorem start_ok {size depth : Nat} {shared : Shared} {s s' : σ}
    (started : (start b size depth shared s).value = (.ok p, s')) :
    0 < size ∧ 0 < depth ∧ ∃ connections : List γ, connections.length = size ∧
      p = { depth, workers := connections.map .idle, shared, store := s' } := by
  unfold start at started
  by_cases none : size = 0 ∨ depth = 0
  · rw [if_pos none] at started
    cases started
  · rw [if_neg none] at started
    by_cases deep : maxDepth < depth
    · rw [if_pos deep] at started
      cases started
    · rw [if_neg deep] at started
      rcases opened : (connectAll b size 0 s).value with ⟨cause | connections, t⟩
      · simp [opened] at started
      · simp only [Logged.value_bind, opened, Logged.value_pure, Prod.mk.injEq,
          Except.ok.injEq] at started
        obtain ⟨rfl, rfl⟩ := started
        refine ⟨?_, ?_, connections, length_connectAll opened, rfl⟩
        · omega
        · omega

/-- A pool that has started is at rest and open. -/
theorem rests_start {size depth : Nat} {shared : Shared} {s s' : σ}
    (started : (start b size depth shared s).value = (.ok p, s')) :
    p.Resting ∧ p.isOpen = true := by
  obtain ⟨-, room, connections, -, rfl⟩ := start_ok started
  refine ⟨⟨room, rfl, rfl, ?_⟩, rfl⟩
  intro worker member _
  obtain ⟨connection, -, rfl⟩ := List.mem_map.mp member
  rfl

/-- Serving leaves an open pool at rest and open. -/
theorem rests_serve (rests : p.Resting ∧ p.isOpen = true) (b : Backend σ γ) (op : Operation) :
    (p.serve b op).value.2.Resting ∧ (p.serve b op).value.2.isOpen = true := by
  obtain ⟨resting, opened⟩ := rests
  cases alive : p.isAlive with
  | false =>
      rw [serve_rejected resting (.inr alive) b op]
      exact ⟨⟨resting.room, resting.waiting, resting.queue, resting.workers⟩, opened⟩
  | true =>
      obtain ⟨w, connection, -, served⟩ := serve_eq resting opened alive b op
      rw [served]
      refine ⟨⟨resting.room, resting.waiting, resting.queue, ?_⟩, opened⟩
      intro worker member living
      rcases List.mem_or_eq_of_mem_set member with before | rfl
      · exact resting.workers worker before living
      · exact Worker.isIdle_after living

end Pool

end CacheAside
