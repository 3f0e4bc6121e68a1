import CacheAside.Proofs.Dispatch.Stepping
import CacheAside.Proofs.Pool.Serving

/-!
# What one event changes

`Pool.Change` lists the events in the life of a pool, each with all that it needs and with the whole
pool that it leaves behind; `Pool.change_of_act?` shows that there are no others. What is said of
runs of a pool from here on is a case analysis of one change, and an induction over the run.

`Pool.Sound` is what every pool keeps to: each ticket that has been given out is in exactly one
place, a pool without workers keeps no job, a worker stops only when there is nothing left to do,
and the cache stays intact.
-/

namespace CacheAside

/-- Whether a worker has the job with this ticket. -/
def Worker.holds {γ : Type} (ticket : Nat) : Worker γ → Bool
  | .busy own _ _ => own = ticket
  | _ => false

namespace Pool

variable {σ γ : Type}

/-- What becomes of the jobs that are given up. -/
def givenUp (jobs : List Job) : List (Nat × Answer) :=
  (jobs.map fun job => (job.ticket, .error .closed)).reverse

inductive Change (b : Backend σ γ) (p : Pool σ γ) : Action → Pool σ γ → Prop
  | admitted {op : Operation} (opened : p.isOpen = true) (alive : p.isAlive = true) :
    Change b p (.submit op)
      { p with waiting := p.waiting ++ [⟨p.tickets, op⟩], tickets := p.tickets + 1 }
  | rejected {op : Operation} (shut : p.isOpen = false ∨ p.isAlive = false) :
    Change b p (.submit op)
      { p with answers := (p.tickets, .error .closed) :: p.answers, tickets := p.tickets + 1 }
  | enqueued {job : Job} {waiting : List Job} (first : p.waiting = job :: waiting)
      (room : p.queue.length < p.depth) :
    Change b p .enqueue { p with waiting, queue := p.queue ++ [job] }
  | taken {w : Nat} {job : Job} {queue : List Job} {connection : γ} (first : p.queue = job :: queue)
      (idle : p.workers[w]? = some (.idle connection)) :
    Change b p (.take w)
      { p with queue, workers := p.workers.set w (.busy job.ticket (.begun job.op) connection) }
  | worked {w ticket : Nat} {task task' : Task} {connection connection' : γ} {shared : Shared}
      {store : σ} (busy : p.workers[w]? = some (.busy ticket task connection))
      (unfinished : ∀ result, task ≠ .ended result)
      (stepped : (task.step b.answering p.shared (connection, p.store)).value =
        (task', shared, connection', store)) :
    Change b p (.work w)
      { p with shared, store, workers := p.workers.set w (.busy ticket task' connection') }
  | answered {w ticket : Nat} {outcome : Outcome} {connection : γ}
      (busy : p.workers[w]? = some (.busy ticket (.ended (.answered outcome)) connection)) :
    Change b p (.reply w) { p with
      workers := p.workers.set w (.idle connection)
      answers := (ticket, .ok outcome) :: p.answers }
  | lost {w ticket : Nat} {text : String} {connection : γ}
      (busy : p.workers[w]? = some (.busy ticket (.ended (.crashed text)) connection))
      (left : (p.workers.set w .lost).any Worker.isAlive = true) :
    Change b p (.reply w) { p with
      workers := p.workers.set w .lost
      answers := (ticket, .error .closed) :: p.answers }
  | abandoned {w ticket : Nat} {text : String} {connection : γ}
      (busy : p.workers[w]? = some (.busy ticket (.ended (.crashed text)) connection))
      (last : (p.workers.set w .lost).any Worker.isAlive = false) :
    Change b p (.reply w) { p with
      workers := p.workers.set w .lost, queue := [], waiting := []
      answers := givenUp (p.queue ++ p.waiting) ++ (ticket, .error .closed) :: p.answers }
  | closed : Change b p .close { p with isOpen := false }
  | stopped {w : Nat} {connection : γ} (idle : p.workers[w]? = some (.idle connection))
      (shut : p.isOpen = false) (waiting : p.waiting = []) (queue : p.queue = []) :
    Change b p (.stop w) { p with workers := p.workers.set w .stopped }

variable {b : Backend σ γ} {p p' : Pool σ γ} {a : Action}

/-- A submission is taken up, or answered at once if nobody would serve it. -/
theorem change_submit (p : Pool σ γ) (op : Operation) : Change b p (.submit op) (p.submit op) := by
  cases taken : (p.isOpen && p.isAlive) with
  | false =>
      have shut : p.isOpen = false ∨ p.isAlive = false := Bool.and_eq_false_iff.mp taken
      rw [submit_rejected shut]
      exact .rejected shut
  | true =>
      obtain ⟨opened, alive⟩ := Bool.and_eq_true_iff.mp taken
      rw [submit_admitted opened alive]
      exact .admitted opened alive

/-- A reply hands over the outcome and leaves the worker idle, stopped or lost. -/
theorem change_reply {w : Nat} (happens : p.reply? w = some p') : Change b p (.reply w) p' := by
  unfold reply? at happens
  split at happens
  · next ticket result connection busy =>
      cases result with
      | answered outcome =>
          cases happens
          exact .answered busy
      | crashed text =>
          dsimp only at happens
          split at happens
          · next left =>
              cases happens
              exact .lost busy left
          · next last =>
              cases happens
              exact .abandoned busy (Bool.of_not_eq_true last)
  · cases happens

/-- The work of one worker is a step of its own task. -/
theorem change_work {w : Nat} {change : Logged (Pool σ γ)} (happens : p.work? b w = some change) :
    Change b p (.work w) change.value := by
  unfold work? at happens
  split at happens
  · cases happens
  · next ticket task connection unfinished busy =>
      cases happens
      exact .worked busy unfinished rfl
  · cases happens

/-- Each event is one of these. -/
theorem change_of_act? {change : Logged (Pool σ γ)} (happens : p.act? b a = some change) :
    Change b p a change.value := by
  cases a with
  | submit op =>
      cases happens
      exact change_submit p op
  | enqueue =>
      obtain ⟨p', entered, rfl⟩ := Option.map_eq_some_iff.mp happens
      unfold enqueue? at entered
      split at entered
      · next job waiting first =>
          split at entered
          · next room =>
              cases entered
              exact .enqueued first room
          · cases entered
      · cases entered
  | take w =>
      obtain ⟨p', took, rfl⟩ := Option.map_eq_some_iff.mp happens
      unfold take? at took
      split at took
      · next connection job queue idle first =>
          cases took
          exact .taken first idle
      · cases took
  | work w => exact change_work happens
  | reply w =>
      obtain ⟨p', replied, rfl⟩ := Option.map_eq_some_iff.mp happens
      exact change_reply replied
  | close =>
      cases happens
      unfold close
      split
      · exact .closed
      · next shut =>
          have same : { p with isOpen := false } = p := by
            rw [← Bool.of_not_eq_true shut]
          rw [Logged.value_pure]
          have after : Change b p .close { p with isOpen := false } := .closed
          rwa [same] at after
  | stop w =>
      have ends : p.stop? w = some change := happens
      unfold stop? at ends
      split at ends
      · next connection idle shut waiting queue =>
          cases ends
          exact .stopped idle shut waiting queue
      · cases ends

/-! ## What every pool keeps to -/

/-- Exchanging one worker exchanges what it counts for. -/
theorem countP_set {w : Nat} {old : Worker γ} (here : p.workers[w]? = some old)
    (P : Worker γ → Bool) (next : Worker γ) :
    (p.workers.set w next).countP P + (if P old then 1 else 0) =
      p.workers.countP P + (if P next then 1 else 0) := by
  obtain ⟨inside, rfl⟩ := List.getElem?_eq_some_iff.mp here
  rw [List.countP_set inside]
  by_cases counted : P p.workers[w] = true
  · have positive : 0 < p.workers.countP P :=
      List.countP_pos_iff.mpr ⟨_, List.getElem_mem inside, counted⟩
    rw [if_pos counted]
    omega
  · rw [if_neg counted]
    omega

theorem countP_set_same {w : Nat} {old next : Worker γ} (here : p.workers[w]? = some old)
    {P : Worker γ → Bool} (same : P next = P old) :
    (p.workers.set w next).countP P = p.workers.countP P := by
  have moved := countP_set here P next
  rw [same] at moved
  omega

theorem mem_of_mem_set {w : Nat} {worker next : Worker γ} (member : worker ∈ p.workers.set w next)
    (apart : worker ≠ next) : worker ∈ p.workers :=
  (List.mem_or_eq_of_mem_set member).resolve_right apart

theorem busy_of_set {w w' ticket : Nat} {task : Task} {connection : γ} {next : Worker γ}
    (free : ∀ ticket, next.holds ticket = false)
    (busy : (p.workers.set w next)[w']? = some (.busy ticket task connection)) :
    p.workers[w']? = some (.busy ticket task connection) := by
  rw [List.getElem?_set] at busy
  split at busy
  · split at busy
    · cases busy
      exact absurd (free ticket) (by simp [Worker.holds])
    · cases busy
  · exact busy

/-- Each job that is given up is answered once. -/
theorem countP_givenUp (jobs : List Job) (ticket : Nat) :
    (givenUp jobs).countP (·.1 = ticket) = jobs.countP (·.ticket = ticket) := by
  unfold givenUp
  rw [List.countP_reverse, List.countP_map]
  rfl

/-- The number of places in which a ticket is. -/
def places (p : Pool σ γ) (ticket : Nat) : Nat :=
  p.waiting.countP (·.ticket = ticket) + p.queue.countP (·.ticket = ticket) +
    p.workers.countP (Worker.holds ticket) + p.answers.countP (·.1 = ticket)

structure Sound (p : Pool σ γ) : Prop where
  places : ∀ ticket, p.places ticket = if ticket < p.tickets then 1 else 0
  dead : p.isAlive = false → p.waiting = [] ∧ p.queue = []
  stopped : .stopped ∈ p.workers → p.isOpen = false ∧ p.waiting = [] ∧ p.queue = []
  intact : p.shared.cache.Intact

/-- Every ticket that has been given out stays in exactly one place. -/
theorem Change.places (change : Change b p a p')
    (sound : ∀ ticket, p.places ticket = if ticket < p.tickets then 1 else 0) (ticket : Nat) :
    p'.places ticket = if ticket < p'.tickets then 1 else 0 := by
  have before := sound ticket
  unfold Pool.places at before ⊢
  cases change with
  | admitted _ _ =>
      simp only [List.countP_append, List.countP_cons, List.countP_nil, decide_eq_true_eq]
      split at before <;> split <;> split <;> omega
  | rejected _ =>
      simp only [List.countP_cons, decide_eq_true_eq]
      split at before <;> split <;> split <;> omega
  | enqueued first _ =>
      rw [first] at before
      simp only [List.countP_append, List.countP_cons, List.countP_nil] at before ⊢
      omega
  | @taken w job queue connection first idle =>
      have moved :=
        countP_set idle (Worker.holds ticket) (.busy job.ticket (.begun job.op) connection)
      rw [first] at before
      simp only [List.countP_cons, Worker.holds, decide_eq_true_eq, Bool.false_eq_true,
        if_false] at before moved ⊢
      omega
  | @worked w own _ task' _ connection' _ _ busy _ _ =>
      have moved := countP_set busy (Worker.holds ticket) (.busy own task' connection')
      simp only [Worker.holds, decide_eq_true_eq] at moved ⊢
      omega
  | @answered w own _ connection busy =>
      have moved := countP_set busy (Worker.holds ticket) (.idle connection)
      simp only [List.countP_cons, Worker.holds, decide_eq_true_eq, Bool.false_eq_true,
        if_false] at moved ⊢
      omega
  | lost busy _ =>
      have moved := countP_set busy (Worker.holds ticket) .lost
      simp only [List.countP_cons, Worker.holds, decide_eq_true_eq, Bool.false_eq_true,
        if_false] at moved ⊢
      omega
  | abandoned busy _ =>
      have moved := countP_set busy (Worker.holds ticket) .lost
      simp only [List.countP_append, List.countP_cons, List.countP_nil, countP_givenUp,
        Worker.holds, decide_eq_true_eq, Bool.false_eq_true, if_false] at moved ⊢
      omega
  | closed => exact before
  | stopped idle _ _ _ =>
      have moved := countP_set idle (Worker.holds ticket) .stopped
      simp only [Worker.holds, Bool.false_eq_true, if_false] at moved ⊢
      omega

/-- A pool that has lost its last worker keeps no job. -/
theorem Change.dead (change : Change b p a p')
    (before : p.isAlive = false → p.waiting = [] ∧ p.queue = []) (dead : p'.isAlive = false) :
    p'.waiting = [] ∧ p'.queue = [] := by
  cases change with
  | admitted _ alive => exact absurd (dead.symm.trans alive) (by decide)
  | rejected _ => exact before dead
  | enqueued first _ =>
      have none := (before dead).1
      rw [first] at none
      cases none
  | taken first idle => exact absurd (dead.symm.trans (alive_set idle rfl)) (by decide)
  | worked busy _ _ => exact absurd (dead.symm.trans (alive_set busy rfl)) (by decide)
  | answered busy => exact absurd (dead.symm.trans (alive_set busy rfl)) (by decide)
  | lost _ left => exact absurd (dead.symm.trans left) (by decide)
  | abandoned _ _ => exact ⟨rfl, rfl⟩
  | closed => exact before dead
  | stopped _ _ waiting queue => exact ⟨waiting, queue⟩

/-- No event breaks the cache. -/
theorem Change.intact (change : Change b p a p') (intact : p.shared.cache.Intact) :
    p'.shared.cache.Intact := by
  cases change with
  | @worked w ticket task task' connection connection' shared store _ _ stepped =>
      have step := Task.step_cases intact b.answering task (connection, p.store)
      rw [stepped] at step
      exact step.intact intact
  | admitted | rejected | enqueued | taken | answered | lost | abandoned | closed | stopped =>
      exact intact

/-- What every pool keeps to is kept by every event. -/
theorem Sound.change (sound : p.Sound) (change : Change b p a p') : p'.Sound := by
  refine ⟨change.places sound.places, change.dead sound.dead, ?_, change.intact sound.intact⟩
  · intro stopped
    cases change with
    | admitted opened _ => exact absurd ((sound.stopped stopped).1.symm.trans opened) (by decide)
    | rejected _ => exact sound.stopped stopped
    | enqueued first _ =>
        have none := (sound.stopped stopped).2.1
        rw [first] at none
        cases none
    | taken first _ =>
        have none := (sound.stopped (mem_of_mem_set stopped nofun)).2.2
        rw [first] at none
        cases none
    | worked _ _ _ => exact sound.stopped (mem_of_mem_set stopped nofun)
    | answered _ => exact sound.stopped (mem_of_mem_set stopped nofun)
    | lost _ _ => exact sound.stopped (mem_of_mem_set stopped nofun)
    | abandoned _ _ => exact ⟨(sound.stopped (mem_of_mem_set stopped nofun)).1, rfl, rfl⟩
    | closed => exact ⟨rfl, (sound.stopped stopped).2⟩
    | stopped _ shut waiting queue => exact ⟨shut, waiting, queue⟩

/-- A pool that has just started is sound. -/
theorem sound_start {size depth : Nat} {shared : Shared} {s s' : σ}
    (started : (start b size depth shared s).value = (.ok p, s'))
    (intact : shared.cache.Intact) : p.Sound := by
  obtain ⟨-, -, connections, -, rfl⟩ := start_ok started
  refine ⟨?_, fun _ => ⟨rfl, rfl⟩, ?_, intact⟩
  · intro ticket
    have idle : (connections.map Worker.idle).countP (Worker.holds ticket) = 0 := by
      apply List.countP_eq_zero.mpr
      intro worker member
      obtain ⟨connection, -, rfl⟩ := List.mem_map.mp member
      exact nofun
    simp only [Pool.places, List.countP_nil, idle]
    rfl
  · intro stopped
    obtain ⟨connection, -, impossible⟩ := List.mem_map.mp stopped
    cases impossible

/-! ## No ticket is in two places -/

theorem Sound.places_le (sound : p.Sound) (ticket : Nat) : p.places ticket ≤ 1 := by
  rw [sound.places ticket]
  split <;> omega

theorem countP_holds_pos {w ticket : Nat} {task : Task} {connection : γ}
    (busy : p.workers[w]? = some (.busy ticket task connection)) :
    0 < p.workers.countP (Worker.holds ticket) := by
  refine List.countP_pos_iff.mpr ⟨_, List.mem_of_getElem? busy, ?_⟩
  exact decide_eq_true rfl

/-- No two workers have the same ticket. -/
theorem Sound.lone {w w' ticket : Nat} {task task' : Task} {connection connection' : γ}
    (sound : p.Sound) (here : p.workers[w]? = some (.busy ticket task connection))
    (there : p.workers[w']? = some (.busy ticket task' connection')) : w' = w := by
  refine Decidable.byContradiction fun apart => ?_
  -- With the one worker out of the way, the other still holds the ticket.
  have others : 0 < (p.workers.set w .lost).countP (Worker.holds ticket) := by
    refine List.countP_pos_iff.mpr ⟨.busy ticket task' connection', ?_, decide_eq_true rfl⟩
    apply List.mem_of_getElem? (i := w')
    rw [List.getElem?_set_ne (Ne.symm apart)]
    exact there
  have moved := countP_set here (Worker.holds ticket) .lost
  have few := sound.places_le ticket
  unfold Pool.places at few
  simp only [Worker.holds, decide_true, if_true, Bool.false_eq_true, if_false] at moved
  omega

/-- A ticket that a worker has is not waiting any more. -/
theorem Sound.ne_of_queued {w ticket : Nat} {task : Task} {connection : γ} {job : Job}
    (sound : p.Sound) (busy : p.workers[w]? = some (.busy ticket task connection))
    (queued : job ∈ p.waiting ++ p.queue) : ticket ≠ job.ticket := by
  rintro rfl
  have held := countP_holds_pos busy
  have waits : 0 < (p.waiting ++ p.queue).countP (·.ticket = job.ticket) :=
    List.countP_pos_iff.mpr ⟨job, queued, decide_eq_true rfl⟩
  have few := sound.places_le job.ticket
  unfold Pool.places at few
  rw [List.countP_append] at waits
  omega

theorem Sound.ne_of_first {job other : Job} {queue : List Job} (sound : p.Sound)
    (first : p.queue = job :: queue) (queued : other ∈ p.waiting ++ queue) : other ≠ job := by
  rintro rfl
  have waits : 0 < (p.waiting ++ queue).countP (·.ticket = other.ticket) :=
    List.countP_pos_iff.mpr ⟨other, queued, decide_eq_true rfl⟩
  have few := sound.places_le other.ticket
  unfold Pool.places at few
  rw [List.countP_append] at waits
  rw [first, List.countP_cons, if_pos (decide_eq_true rfl)] at few
  omega

end Pool

end CacheAside
