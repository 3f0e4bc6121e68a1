import CacheAside.Proofs.Pool.Chronicle
import CacheAside.Proofs.Pool.Joining

/-!
# Draining a pool

A pool that is closed comes to its end: as long as a worker is left, something can happen of the
pool's own (`Pool.goes`), and whatever happens brings the end nearer (`Change.nearer`). If no worker
is in the middle of an operation, shutting down is one such way to the end: it carries out all jobs
that wait, and no worker is left after it (`Pool.shutDown_ends`).
-/

namespace CacheAside

/-- What is done with a result depends on the result alone. -/
theorem Logged.bind_congr_value {α β : Type} {x : Logged α} {f g : α → Logged β}
    (same : f x.value = g x.value) : x >>= f = x >>= g :=
  congrArg (fun rest : Logged β => Logged.mk rest.value (x.events ++ rest.events)) same

/-- Whether an event is the doing of a worker, or of the queue before it. -/
def Action.isOwn : Action → Bool
  | .enqueue | .take _ | .work _ | .reply _ | .stop _ => true
  | .submit _ | .close => false

namespace Pool

variable {σ γ : Type} {b : Backend σ γ} {p p' : Pool σ γ} {a : Action} {w n : Nat}
  {connection : γ}

/-- No worker is in the middle of an operation. -/
def Unoccupied (p : Pool σ γ) : Prop :=
  ∀ worker ∈ p.workers, worker.isAlive = true → worker.isIdle = true

/-- The number of jobs that no worker has taken. -/
def untaken (p : Pool σ γ) : Nat := p.waiting.length + p.queue.length

/-- The number of events that it takes at most until all workers have ended. -/
def remaining (p : Pool σ γ) : Nat := p.left + p.workers.countP Worker.isAlive

/-! ## Every event brings the end nearer -/

/-- No event brings a worker back, and a stop takes one away. -/
theorem Change.alive_le (change : Change b p a p') :
    p'.workers.countP Worker.isAlive + (if a.isOwn && !a.isWork then 1 else 0) ≤
      p.workers.countP Worker.isAlive := by
  cases change with
  | admitted | rejected | enqueued | closed => exact Nat.le_refl _
  | taken _ idle => exact Nat.le_of_eq (countP_set_same idle rfl)
  | worked busy _ _ => exact Nat.le_of_eq (countP_set_same busy rfl)
  | answered busy => exact Nat.le_of_eq (countP_set_same busy rfl)
  | lost busy _ | abandoned busy _ =>
      have moved := countP_set busy Worker.isAlive .lost
      simp only [Worker.isAlive, if_true, Bool.false_eq_true, if_false] at moved
      simp only [Action.isOwn, Action.isWork, Bool.not_true, Bool.and_false, Bool.false_eq_true,
        if_false]
      omega
  | stopped idle _ _ _ =>
      have moved := countP_set idle Worker.isAlive .stopped
      simp only [Worker.isAlive, if_true, Bool.false_eq_true, if_false] at moved
      simp only [Action.isOwn, Action.isWork, Bool.not_false, Bool.and_self, if_true]
      omega

/-- An event of the pool itself brings its end nearer. -/
theorem Change.nearer (change : Change b p a p') (intact : p.shared.cache.Intact)
    (own : a.isOwn = true) :
    p'.remaining < p.remaining := by
  have alive := change.alive_le
  have less := change.left_add intact
  have same : p'.tickets = p.tickets := by
    cases change with
    | admitted | rejected => cases own
    | enqueued | taken | worked | answered | lost | abandoned | closed | stopped => rfl
  unfold remaining
  rw [own] at alive
  cases work : a.isWork <;> simp only [work, Bool.not_true, Bool.not_false, Bool.and_true,
    Bool.and_false, Bool.false_eq_true, if_true, if_false] at alive less <;> omega

/-- A closed pool with a worker left is never stuck. -/
theorem goes (dead : p.isAlive = false → p.waiting = [] ∧ p.queue = []) (room : 0 < p.depth)
    (shut : p.isOpen = false) (alive : p.isAlive = true) (b : Backend σ γ) :
    ∃ (a : Action) (change : Logged (Pool σ γ)), a.isOwn = true ∧ p.act? b a = some change := by
  refine Classical.byContradiction fun stuck => ?_
  have idles : ∀ a : Action, a.isOwn = true → p.act? b a = none := by
    intro a own
    cases happens : p.act? b a with
    | none => rfl
    | some change => exact absurd ⟨a, change, own, happens⟩ stuck
  have still : ∀ a : Action, a.isWork = true → p.act? b a = none := by
    intro a work
    refine idles a ?_
    cases a with
    | enqueue | take | work | reply => rfl
    | submit | close | stop => cases work
  obtain ⟨waiting, queue, free⟩ := clear_of_still dead room still
  obtain ⟨worker, member, living⟩ := List.any_eq_true.mp alive
  obtain ⟨w, here⟩ := List.mem_iff_getElem?.mp member
  cases worker with
  | idle connection =>
      have refused := idles (.stop w) rfl
      rw [act?, stop?, here, shut, waiting, queue] at refused
      cases refused
  | busy ticket task connection =>
      have held := countP_holds_pos here
      rw [free ticket] at held
      exact absurd held (Nat.lt_irrefl 0)
  | stopped | lost => cases living

/-! ## One turn of a worker -/

theorem perform_take {job : Job} {queue : List Job} (first : p.queue = job :: queue)
    (idle : p.workers[w]? = some (.idle connection)) : p.perform b (.take w) =
      pure ({ p with queue }.setWorker w (.busy job.ticket (.begun job.op) connection)) := by
  unfold perform act? take?
  simp [idle, first]

/-- The oldest job that waits is in the queue after this, whether or not there was room for it. -/
theorem perform_enqueue (room : 0 < p.depth) (waits : 0 < p.untaken) :
    ∃ entered : Pool σ γ, p.perform b .enqueue = pure entered ∧
      entered.workers = p.workers ∧ entered.untaken = p.untaken ∧ entered.queue ≠ [] := by
  unfold untaken at waits
  unfold perform act? enqueue?
  cases first : p.waiting with
  | nil =>
      rw [first] at waits
      exact ⟨p, rfl, rfl, rfl, List.ne_nil_of_length_pos (by simpa using waits)⟩
  | cons job waiting =>
      dsimp only
      by_cases space : p.queue.length < p.depth
      · rw [if_pos space]
        refine ⟨_, rfl, rfl, ?_, List.append_ne_nil_of_right_ne_nil _ (List.cons_ne_nil _ _)⟩
        simp only [untaken, first, List.length_append, List.length_cons, List.length_nil]
        omega
      · rw [if_neg space]
        exact ⟨p, rfl, rfl, rfl, List.ne_nil_of_length_pos (by omega)⟩

theorem value_perform_reply {ticket : Nat} {result : Result}
    (busy : p.workers[w]? = some (.busy ticket (.ended result) connection)) :
    (p.perform b (.reply w)).value.workers = p.workers.set w (.after connection result) ∧
      ((p.perform b (.reply w)).value.untaken = p.untaken ∨
        (p.perform b (.reply w)).value.isAlive = false) := by
  unfold perform act? reply?
  dsimp only
  rw [busy]
  cases result with
  | answered outcome => exact ⟨rfl, .inl rfl⟩
  | crashed text =>
      simp only [Option.map_some, Option.getD_some, Logged.value_pure]
      split
      · exact ⟨rfl, .inl rfl⟩
      · next last => exact ⟨rfl, .inr (Bool.of_not_eq_true last)⟩

/-- A turn carries out one job, or ends with the loss of the last worker. -/
theorem value_turn (room : 0 < p.depth) (waits : 0 < p.untaken)
    (idle : p.workers[w]? = some (.idle connection)) :
    ∃ worker : Worker γ, (worker.isAlive = true → worker.isIdle = true) ∧
      (p.performAll b (turn w)).value.workers = p.workers.set w worker ∧
      ((p.performAll b (turn w)).value.untaken + 1 = p.untaken ∨
        (p.performAll b (turn w)).value.isAlive = false) := by
  obtain ⟨entered, enters, workers, same, full⟩ := perform_enqueue (b := b) room waits
  obtain ⟨job, queue, first⟩ := List.exists_cons_of_ne_nil full
  rw [← workers] at idle
  let taken := { entered with queue }.setWorker w (.busy job.ticket (.begun job.op) connection)
  have takes : entered.perform b (.take w) = pure taken := perform_take first idle
  have busy : taken.workers[w]? = some (.busy job.ticket (.begun job.op) connection) :=
    getElem?_set_of_getElem? idle _
  rcases dispatched : (dispatch b.answering job.op taken.shared (connection, taken.store)).value
    with ⟨result, shared, connection', store⟩
  let ended := { taken with shared, store }.setWorker w
    (.busy job.ticket (.ended result) connection')
  have works : (taken.performAll b (List.replicate Task.longest (.work w))).value = ended := by
    rw [performAll_work Task.longest busy, Task.run_begun]
    simp only [Logged.value_bind, dispatched, Logged.value_pure]
    rfl
  have held : ended.workers[w]? = some (.busy job.ticket (.ended result) connection') :=
    getElem?_set_of_getElem? busy _
  obtain ⟨replaced, left⟩ := value_perform_reply (b := b) held
  have turned : (p.performAll b (turn w)).value = (ended.perform b (.reply w)).value := by
    rw [performAll_turn_steps, enters, pure_bind, takes, pure_bind, Logged.value_bind, works]
  rw [turned]
  refine ⟨.after connection' result, Worker.isIdle_after, ?_, ?_⟩
  · rw [replaced, ← workers]
    simp only [ended, taken, setWorker, List.set_set]
  · have fewer : ended.untaken + 1 = p.untaken := by
      rw [← same]
      simp only [ended, taken, setWorker, untaken, first, List.length_cons]
      omega
    refine left.imp (fun kept => ?_) id
    rw [kept]
    exact fewer

/-! ## Carrying out all jobs that wait -/

theorem performAll_append (p : Pool σ γ) (events later : List Action) :
    p.performAll b (events ++ later) =
      p.performAll b events >>= fun p => p.performAll b later := List.foldlM_append

/-- What every event keeps, a row of events keeps. -/
theorem performAll_keeps {P : Pool σ γ → Prop}
    (keeps : ∀ {p a p'}, Change b p a p' → P p → P p') (holds : P p) (events : List Action) :
    P (p.performAll b events).value := by
  induction events generalizing p with
  | nil => exact holds
  | cons a events ih =>
      have first : (p.performAll b (a :: events)).value =
          ((p.perform b a).value.performAll b events).value := rfl
      rw [first]
      apply ih
      unfold perform
      cases happens : p.act? b a with
      | none => exact holds
      | some change => exact keeps (change_of_act? happens) holds

theorem Unoccupied.set (free : p.Unoccupied) {worker : Worker γ} (own : worker.isAlive = true →
    worker.isIdle = true) (workers : p'.workers = p.workers.set w worker) : p'.Unoccupied := by
  intro other member living
  rw [workers] at member
  rcases List.mem_or_eq_of_mem_set member with before | rfl
  · exact free other before living
  · exact own living

/-- Settling lets some events happen one after the other. -/
theorem exists_settleFrom (b : Backend σ γ) (n first : Nat) (p : Pool σ γ) :
    ∃ events, p.settleFrom b n first = p.performAll b events := by
  induction n generalizing p first with
  | zero => exact ⟨[], rfl⟩
  | succ n ih =>
      rw [settleFrom]
      cases next : p.nextIdle? first with
      | none => exact ⟨[], rfl⟩
      | some w =>
          obtain ⟨events, rest⟩ := ih (w + 1) (p.performAll b (turn w)).value
          refine ⟨turn w ++ events, ?_⟩
          rw [performAll_append]
          exact Logged.bind_congr_value rest

theorem exists_settle (b : Backend σ γ) (p : Pool σ γ) :
    ∃ events, p.settle b = p.performAll b events :=
  exists_settleFrom b p.untaken (p.tickets - p.untaken) p

/-- No job waits after settling, unless more have been submitted than are carried out. -/
theorem settleFrom_clears (n first : Nat)
    (dead : p.isAlive = false → p.waiting = [] ∧ p.queue = []) (room : 0 < p.depth)
    (free : p.Unoccupied) (enough : p.untaken = n ∨ p.isAlive = false) :
    (p.settleFrom b n first).value.Unoccupied ∧
      (p.settleFrom b n first).value.waiting = [] ∧ (p.settleFrom b n first).value.queue = [] := by
  induction n generalizing p first with
  | zero =>
      rcases enough with none | ended
      · obtain ⟨waiting, queue⟩ := Nat.add_eq_zero_iff.mp none
        exact ⟨free, List.eq_nil_of_length_eq_zero waiting, List.eq_nil_of_length_eq_zero queue⟩
      · exact ⟨free, dead ended⟩
  | succ n ih =>
      rw [settleFrom]
      cases next : p.nextIdle? first with
      | none =>
          refine ⟨free, dead (Bool.of_not_eq_true fun alive => ?_)⟩
          obtain ⟨worker, member, living⟩ := List.any_eq_true.mp alive
          obtain ⟨w, here⟩ := List.mem_iff_getElem?.mp member
          have idle := free worker member living
          cases worker with
          | idle connection =>
              obtain ⟨other, -, found, -⟩ := exists_nextIdle here first
              rw [found] at next
              cases next
          | busy | stopped | lost => cases idle
      | some w =>
          obtain ⟨connection, idle⟩ := idle_of_nextIdle next
          have alive : p.isAlive = true :=
            List.any_eq_true.mpr ⟨_, List.mem_of_getElem? idle, rfl⟩
          have jobs : p.untaken = n + 1 :=
            enough.resolve_right fun ended => absurd (ended.symm.trans alive) Bool.false_ne_true
          obtain ⟨worker, own, workers, left⟩ :=
            value_turn (b := b) room (jobs ▸ Nat.succ_pos n) idle
          have dead' := performAll_keeps
            (P := fun p => p.isAlive = false → p.waiting = [] ∧ p.queue = [])
            (fun change => change.dead) dead (b := b) (turn w)
          have room' := performAll_keeps (P := fun p => 0 < p.depth)
            (fun change room => change.frame.1 ▸ room) room (b := b) (turn w)
          exact ih (w + 1) dead' room' (free.set own workers)
            (left.imp_left fun fewer => Nat.succ.inj (fewer.trans jobs))

/-! ## Stopping the workers -/

/-- A worker that is left after the others have been told to stop has not been told. -/
theorem alive_of_stops (shut : p.isOpen = false) (waiting : p.waiting = []) (queue : p.queue = [])
    (free : p.Unoccupied) (told : List Nat) {v : Nat} {worker : Worker γ}
    (here : (p.performAll b (told.map .stop)).value.workers[v]? = some worker)
    (alive : worker.isAlive = true) : v ∉ told ∧ p.workers[v]? = some worker := by
  induction told generalizing p with
  | nil => exact ⟨List.not_mem_nil, here⟩
  | cons w told ih =>
      have first : (p.performAll b ((w :: told).map .stop)).value =
          ((p.perform b (.stop w)).value.performAll b (told.map .stop)).value := rfl
      rw [first] at here
      unfold perform act? at here
      dsimp only at here
      cases stops : p.stop? w with
      | some stopped =>
          rw [stops] at here
          unfold stop? at stops
          split at stops
          · next connection idle _ _ _ =>
              cases stops
              have ended (living : (Worker.stopped : Worker γ).isAlive = true) :
                  (Worker.stopped : Worker γ).isIdle = true := absurd living Bool.false_ne_true
              have free' : (p.setWorker w .stopped).Unoccupied := free.set ended rfl
              obtain ⟨later, before⟩ := ih (p := p.setWorker w .stopped) shut waiting queue free'
                here
              have apart : w ≠ v := by
                rintro rfl
                rw [setWorker, getElem?_set_of_getElem? idle] at before
                obtain rfl := Option.some.inj before
                cases alive
              rw [setWorker, List.getElem?_set_ne apart] at before
              exact ⟨List.not_mem_cons_of_ne_of_not_mem (Ne.symm apart) later, before⟩
          · cases stops
      | none =>
          rw [stops] at here
          obtain ⟨later, before⟩ := ih shut waiting queue free here
          refine ⟨List.not_mem_cons_of_ne_of_not_mem ?_ later, before⟩
          rintro rfl
          have idle := free worker (List.mem_of_getElem? before) alive
          cases worker with
          | idle connection =>
              rw [stop?, before, shut, waiting, queue] at stops
              cases stops
          | busy | stopped | lost => cases idle

theorem value_shutDown (b : Backend σ γ) (p : Pool σ γ) : (p.shutDown b).value =
    ((({ p with isOpen := false } : Pool σ γ).settle b).value.performAll b
      ((List.range (({ p with isOpen := false } : Pool σ γ).settle b).value.workers.length).map
        .stop)).value := by
  rw [shutDown, Logged.value_bind, Logged.value_bind, value_perform_close]

/-- Shutting down lets some events happen one after the other. -/
theorem exists_shutDown (b : Backend σ γ) (p : Pool σ γ) :
    ∃ events, p.shutDown b = p.performAll b events := by
  obtain ⟨events, settles⟩ := exists_settle b (p.perform b .close).value
  let stops : List Action :=
    (List.range ((p.perform b .close).value.performAll b events).value.workers.length).map .stop
  refine ⟨.close :: (events ++ stops), ?_⟩
  have first : p.performAll b (.close :: (events ++ stops)) =
      p.perform b .close >>= fun p => p.performAll b (events ++ stops) := rfl
  rw [first, shutDown]
  refine Logged.bind_congr_value ?_
  rw [settles, performAll_append]
  exact Logged.bind_congr_value rfl

/-- No worker is left after shutting down. -/
theorem shutDown_ends (dead : p.isAlive = false → p.waiting = [] ∧ p.queue = [])
    (room : 0 < p.depth) (free : p.Unoccupied) (b : Backend σ γ) :
    (p.shutDown b).value.isAlive = false := by
  let closed : Pool σ γ := { p with isOpen := false }
  have dead' : closed.isAlive = false → closed.waiting = [] ∧ closed.queue = [] := dead
  obtain ⟨free', waiting, queue⟩ := settleFrom_clears (b := b) closed.untaken
    (closed.tickets - closed.untaken) dead' room free (.inl rfl)
  obtain ⟨events, settles⟩ := exists_settle b closed
  have shut : (closed.settle b).value.isOpen = false := by
    rw [settles]
    refine performAll_keeps (P := fun p => p.isOpen = false) ?_ rfl events
    intro p a p' change shut
    cases change with
    | closed => rfl
    | admitted | rejected | enqueued | taken | worked | answered | lost | abandoned | stopped =>
        exact shut
  refine Bool.of_not_eq_true fun alive => ?_
  obtain ⟨worker, member, living⟩ := List.any_eq_true.mp alive
  obtain ⟨v, here⟩ := List.mem_iff_getElem?.mp member
  rw [value_shutDown] at here
  obtain ⟨untold, before⟩ := alive_of_stops shut waiting queue free' _ here living
  exact untold (List.mem_range.mpr (List.getElem?_eq_some_iff.mp before).1)

end Pool

end CacheAside
