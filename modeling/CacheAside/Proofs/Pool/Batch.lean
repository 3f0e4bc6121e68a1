import CacheAside.Proofs.Dispatch.Independence
import CacheAside.Proofs.Pool.Delivery

/-!
# A batch of operations on different keys

Whatever the workers of a pool do, and in whatever order, comes to an interleaving of the operations
that were submitted (`Run.interleaving`). So operations on different keys, over the store in memory,
come to what dispatching them one after the other comes to: `independent_operations_commute`.
-/

namespace CacheAside

namespace Pool

section Strands

variable {σ γ : Type}

/-- What a run has made of the operation of a submission. One that no worker has taken has not
begun. -/
def strand (b : Backend σ γ) (history : List (Moment σ γ)) (s : Submission) : Operation × Task :=
  (s.job.op, (progress b s.job history).getD (.begun s.job.op))

/-- What a run has made of the operations submitted, the newest first. -/
def strands (b : Backend σ γ) (history : List (Moment σ γ)) : List (Operation × Task) :=
  (submissions history).map (strand b history)

variable {b : Backend σ γ} {history : List (Moment σ γ)} {start p p' : Pool σ γ} {a : Action}

theorem map_fst_strands (b : Backend σ γ) (history : List (Moment σ γ)) :
    (strands b history).map Prod.fst = (submissions history).map (·.job.op) := by
  rw [strands, List.map_map]
  rfl

theorem mem_strands {s : Submission} {task : Task} (member : s ∈ submissions history)
    (came : progress b s.job history = some task) : (s.job.op, task) ∈ strands b history := by
  refine List.mem_map.mpr ⟨s, member, ?_⟩
  rw [strand, came]
  rfl

theorem strands_submit (books : Books b history p) (op : Operation) :
    strands b (⟨p, .submit op, p'⟩ :: history) = (op, .begun op) :: strands b history := by
  have new : strand b history ⟨⟨p.tickets, op⟩, p.isOpen⟩ = (op, .begun op) := by
    rw [strand, books.fresh (Nat.le_refl _)]
    rfl
  rw [← new]
  rfl

/-- To be taken by a worker makes no difference to an operation. -/
theorem strands_take {w : Nat} {job : Job} {queue : List Job} (books : Books b history p)
    (first : p.queue = job :: queue) :
    strands b (⟨p, .take w, p'⟩ :: history) = strands b history := by
  apply List.map_congr_left
  intro s member
  unfold strand
  by_cases own : s.job = job
  · rw [own, progress_first first, (books.queued job (mem_of_first first)).2]
    rfl
  · rw [progress_take first own]

/-- A step of a worker is a step of one of the operations. -/
theorem strands_work {w ticket : Nat} {task task' : Task} {connection connection' : γ}
    {shared : Shared} {store : σ} (books : Books b history p)
    (busy : p.workers[w]? = some (.busy ticket task connection))
    (stepped : (task.step b.answering p.shared (connection, p.store)).value =
      (task', shared, connection', store)) :
    ∃ newer older op, strands b history = newer ++ (op, task) :: older ∧
      strands b (⟨p, .work w, p'⟩ :: history) = newer ++ (op, task') :: older := by
  obtain ⟨op, member, came⟩ := books.busy busy
  obtain ⟨newer, older, split⟩ := List.append_of_mem member
  have distinct := books.distinct
  rw [split, List.map_append, List.map_cons, List.nodup_middle, List.nodup_cons,
    ← List.map_append] at distinct
  have others : ∀ s ∈ newer ++ older,
      strand b (⟨p, .work w, p'⟩ :: history) s = strand b history s := by
    intro s there
    have apart : ticket ≠ s.job.ticket := by
      intro same
      exact distinct.1 (List.mem_map.mpr ⟨s, there, same.symm⟩)
    rw [strand, progress_work busy apart]
    rfl
  have own : strand b history ⟨⟨ticket, op⟩, true⟩ = (op, task) := by
    rw [strand, came]
    rfl
  have own' : strand b (⟨p, .work w, p'⟩ :: history) ⟨⟨ticket, op⟩, true⟩ = (op, task') := by
    rw [strand, progress_own ⟨ticket, op⟩ busy, came, Option.map_some, stepped]
    rfl
  have now : submissions (⟨p, .work w, p'⟩ :: history) = submissions history := rfl
  refine ⟨newer.map (strand b history), older.map (strand b history), op, ?_, ?_⟩
  · rw [strands, split, List.map_append, List.map_cons, own]
  · rw [strands, now, split, List.map_append, List.map_cons, own',
      List.map_congr_left fun s there => others s (List.mem_append_left _ there),
      List.map_congr_left fun s there => others s (List.mem_append_right _ there)]

/-- A worker is lost only by an operation that has crashed. -/
theorem lost_next (change : Change b p a p') (sound : p.Sound) (books : Books b history p)
    (before : .lost ∈ p.workers →
      ∃ job text, progress b job history = some (.ended (.crashed text)))
    (lost : .lost ∈ p'.workers) :
    ∃ job text, progress b job (⟨p, a, p'⟩ :: history) = some (.ended (.crashed text)) := by
  have earlier (known : .lost ∈ p.workers) :
      ∃ job text, progress b job (⟨p, a, p'⟩ :: history) = some (.ended (.crashed text)) := by
    obtain ⟨job, text, came⟩ := before known
    exact ⟨job, text, progress_ended change sound books came⟩
  cases change with
  | lost busy _ | abandoned busy _ =>
      obtain ⟨op, -, came⟩ := books.busy busy
      exact ⟨_, _, came⟩
  | taken | worked | answered | stopped => exact earlier (mem_of_mem_set lost nofun)
  | admitted | rejected | enqueued | closed => exact earlier lost

/-- A worker is lost when the store breaks down under it, and at no other time. -/
theorem Run.lost {size depth : Nat} {shared : Shared} {s s' : σ} (run : Run b start history p)
    (intact : shared.cache.Intact)
    (started : (Pool.start b size depth shared s).value = (.ok start, s'))
    (lost : .lost ∈ p.workers) :
    ∃ job text, progress b job history = some (.ended (.crashed text)) := by
  induction run with
  | start =>
      obtain ⟨-, -, connections, -, rfl⟩ := start_ok started
      obtain ⟨connection, -, impossible⟩ := List.mem_map.mp lost
      cases impossible
  | next run happens ih =>
      obtain ⟨sound, books⟩ := run.books_of_started intact started
      exact lost_next (change_of_act? happens) sound books ih lost

end Strands

/-! ## Runs as interleavings -/

section Interleaved

variable {σ : Type} {b : Backend σ Unit} {history : List (Moment σ Unit)} {start p p' : Pool σ Unit}
  {a : Action}

/-- Every event of the pool is an arrival, a step or nothing of the interleaving. -/
theorem interleaving_next {s₀ : Shared} {t₀ : Unit × σ} (change : Change b p a p')
    (books : Books b history p)
    (before : Interleaving b.answering s₀ t₀ (strands b history) p.shared ((), p.store)) :
    Interleaving b.answering s₀ t₀ (strands b (⟨p, a, p'⟩ :: history)) p'.shared
      ((), p'.store) := by
  cases change with
  | @admitted op _ _ | @rejected op _ =>
      rw [strands_submit books op]
      exact before.arrive op
  | taken first _ =>
      rw [strands_take books first]
      exact before
  | worked busy _ stepped =>
      obtain ⟨newer, older, op, earlier, now⟩ := strands_work books busy stepped
      rw [earlier] at before
      rw [now]
      exact before.step stepped
  | enqueued | answered | lost | abandoned | closed | stopped => exact before

/-- Whatever happens to a pool whose workers share all of the store, the operations submitted to it
are interleaved. -/
theorem Run.interleaving {size depth : Nat} {shared : Shared} {s s' : σ}
    (run : Run b start history p) (intact : shared.cache.Intact)
    (started : (Pool.start b size depth shared s).value = (.ok start, s')) :
    Interleaving b.answering start.shared ((), start.store) (strands b history) p.shared
      ((), p.store) := by
  induction run with
  | start => exact .start
  | next run happens ih =>
      obtain ⟨-, books⟩ := run.books_of_started intact started
      exact interleaving_next (change_of_act? happens) books ih

end Interleaved

/-! ## A batch -/

/-- If the store does not break down, everybody whose operation was submitted in time gets the
outcome of it. -/
theorem Run.outcome {σ γ : Type} {b : Backend σ γ} {start p : Pool σ γ}
    {history : List (Moment σ γ)} {size depth : Nat} {shared : Shared} {s s' : σ}
    (run : Run b start history p) (intact : shared.cache.Intact)
    (started : (Pool.start b size depth shared s).value = (.ok start, s'))
    (still : ∀ a, a.isWork = true → p.act? b a = none)
    (calm : ∀ job text, progress b job history ≠ some (.ended (.crashed text)))
    {submission : Submission} (member : submission ∈ submissions history)
    (inTime : submission.inTime = true) : ∃ outcome,
      p.answer? submission.job.ticket = some (.ok outcome) ∧
        progress b submission.job history = some (.ended (.answered outcome)) := by
  obtain ⟨-, books⟩ := run.books_of_started intact started
  obtain ⟨answer, given⟩ :=
    Option.isSome_iff_exists.mp (run.settled intact started still member)
  have ground := books.ground member given
  cases ground with
  | outcome came => exact ⟨_, given, came⟩
  | late => cases inTime
  | crashed came => exact absurd came (calm _ _)
  | stranded untaken lost =>
      obtain ⟨some, -, connections, size, begins⟩ := start_ok started
      have someone : 0 < p.workers.length := by
        rw [run.frame.2, begins, List.length_map, size]
        exact some
      obtain ⟨worker, here⟩ := List.exists_mem_of_length_pos someone
      have out := lost worker here
      cases worker with
      | lost =>
          obtain ⟨job, text, came⟩ := run.lost intact started here
          exact absurd came (calm job text)
      | idle | busy | stopped => cases out

section InMemory

variable {start p : Pool Table Unit} {history : List (Moment Table Unit)} {shared : Shared}
  {t t' : Table} {n depth : Nat} {ops : List Operation}

theorem connectAll_memory (n first : Nat) (t : Table) :
    (connectAll Memory.backend n first t).value = (.ok (List.replicate n ()), t) := by
  induction n generalizing first with
  | zero => rfl
  | succ n ih =>
      have opened : (Memory.backend.connect t).value = (.ok (), t) := rfl
      simp only [connectAll, Logged.value_bind, opened, ih, Logged.value_pure]
      rfl

theorem start_in_memory
    (started : (Pool.start Memory.backend n depth shared t).value = (.ok start, t')) :
    start.shared = shared ∧ start.store = t := by
  unfold Pool.start at started
  split at started
  · cases started
  · split at started
    · cases started
    · simp only [Logged.value_bind, connectAll_memory, Logged.value_pure] at started
      cases started
      exact ⟨rfl, rfl⟩

/-- As long as no two operations submitted are on one key, they are independent. -/
theorem Run.independent {ample : Prop} (run : Run Memory.backend start history p)
    (intact : shared.cache.Intact) (coherent : Coherent shared ((), t))
    (started : (Pool.start Memory.backend n depth shared t).value = (.ok start, t'))
    (distinct : (((submissions history).map (·.job.op)).map Operation.key).Nodup)
    (room : ample →
      shared.cache.size + ((submissions history).map (·.job.op)).length ≤ shared.cache.capacity) :
    Independent ample shared ((), t) (strands Memory.backend history) p.shared ((), p.store) := by
  obtain ⟨begins, stores⟩ := start_in_memory started
  have interleaved := run.interleaving intact started
  rw [begins, stores] at interleaved
  rw [← map_fst_strands Memory.backend] at distinct room
  refine interleaved.independent intact coherent ?_ fun enough => ?_
  · rw [List.map_map] at distinct
    exact distinct
  · have enough := room enough
    rw [List.length_map] at enough
    exact enough

/-- Independent operations over the table do not crash. -/
theorem calm_of_independent {ample : Prop} (books : Books Memory.backend history p)
    (independent :
      Independent ample shared ((), t) (strands Memory.backend history) p.shared ((), p.store))
    (job : Job) (text : String) :
    progress Memory.backend job history ≠ some (.ended (.crashed text)) := by
  intro came
  have here : (job.op, Task.ended (.crashed text)) ∈ strands Memory.backend history :=
    mem_strands (books.known came).1 came
  cases (Reached.ended (p := t.plain) (independent.reached _ _ here)).1

/-- In whatever order operations on different keys are submitted to a pool over the store in memory,
and in whatever order its workers make their steps: when nothing is left to do, each operation has
the outcome that it has if they are dispatched one after the other, the store is the same, as many
requests and as many reads are counted, and every cached pair is stored. If the cache has room for
all keys, it has the same pairs in the end, and as many reads are hits. -/
theorem independent_operations_commute {capacity : Nat}
    (reachable : Cache.Reachable capacity shared.cache)
    (coherent : ∀ key value, shared.cache.peek key = some value → t[key]? = some value)
    (started : (Pool.start Memory.backend n depth shared t).value = (.ok start, t'))
    (run : Run Memory.backend start history p) (distinct : (ops.map Operation.key).Nodup)
    (batch : ((submissions history).map (·.job.op)).Perm ops)
    (inTime : ∀ s ∈ submissions history, s.inTime = true)
    (still : ∀ a, a.isWork = true → p.act? Memory.backend a = none) :
    let (results, shared', _, stored) :=
      (dispatchAll Memory.backend.answering ops shared ((), t)).value
    (∀ s ∈ submissions history, ∃ outcome, p.answer? s.job.ticket = some (.ok outcome) ∧
        (s.job.op, .answered outcome) ∈ results) ∧
      (∀ key : Key, p.store[key]? = stored[key]?) ∧
      p.shared.counters.requests = shared'.counters.requests ∧
      p.shared.counters.hits + p.shared.counters.misses =
        shared'.counters.hits + shared'.counters.misses ∧
      (∀ key value, p.shared.cache.peek key = some value → p.store[key]? = some value) ∧
      (shared.cache.size + ops.length ≤ capacity → p.shared.counters = shared'.counters ∧
        ∀ key, p.shared.cache.peek key = shared'.cache.peek key) := by
  rcases ran : (dispatchAll Memory.backend.answering ops shared ((), t)).value with
    ⟨results, shared', u, stored⟩
  dsimp only
  obtain ⟨intact, constant⟩ := reachable.intact
  have met : Coherent shared ((), t) := coherent
  have room : shared.cache.size + ops.length ≤ capacity →
      shared.cache.size + ops.length ≤ shared.cache.capacity := by
    rw [constant]
    exact id
  -- The two ways from the same start: what the pool does, and one operation after the other.
  have pooled : Independent (shared.cache.size + ops.length ≤ capacity) shared ((), t)
      (strands Memory.backend history) p.shared ((), p.store) := by
    rw [← (batch.map _).nodup_iff] at distinct
    refine run.independent intact met started distinct ?_
    rw [batch.length_eq]
    exact room
  have alone := independent_dispatchAll intact met distinct room ran
  have books := (run.books_of_started intact started).2
  have outcomes : ∀ s ∈ submissions history, ∃ outcome,
      p.answer? s.job.ticket = some (.ok outcome) ∧
        progress Memory.backend s.job history = some (.ended (.answered outcome)) :=
    fun s member =>
      run.outcome intact started still (calm_of_independent books pooled) member (inTime s member)
  have done : ∀ strand ∈ strands Memory.backend history, ∃ result, strand.2 = .ended result := by
    intro strand member
    obtain ⟨s, submitted, rfl⟩ := List.mem_map.mp member
    obtain ⟨outcome, -, came⟩ := outcomes s submitted
    rw [Pool.strand, came]
    exact ⟨_, rfl⟩
  have done' : ∀ strand ∈ results.map finished, ∃ result, strand.2 = .ended result := by
    intro strand member
    obtain ⟨pair, -, rfl⟩ := List.mem_map.mp member
    exact ⟨_, rfl⟩
  have same : (strands Memory.backend history).Perm (results.map finished) := by
    refine pooled.perm_of_concluded alone done done' ?_
    rw [map_fst_strands, List.map_map]
    exact batch.trans (.of_eq (map_fst_dispatchAll ran).symm)
  obtain ⟨stores, requests, looks, roomy⟩ := pooled.agree (alone.perm same.symm) done
  refine ⟨?_, stores, requests, looks, pooled.coherent met done, roomy⟩
  intro s member
  obtain ⟨outcome, given, came⟩ := outcomes s member
  have here := same.mem_iff.mp (mem_strands member came)
  obtain ⟨⟨op, result⟩, listed, equal⟩ := List.mem_map.mp here
  cases equal
  exact ⟨outcome, given, listed⟩

/-- Two workers take turns at a write, a read that hits, and a delete. -/
theorem independent_operations_commute_interleaved :
    let shared : Shared := { cache := ((Cache.empty 4).put "a" "1").2 }
    let table : Table := .ofList [("a", "1"), ("b", "2")]
    let start : Pool Table Unit := {
      depth := 2, workers := [.idle (), .idle ()], shared, store := table }
    let events : List Action := [.submit (.write "b" (some "3")), .submit (.read "a"),
      .submit (.delete "c"), .enqueue, .take 0, .enqueue, .take 1, .work 0, .work 1, .work 0,
      .work 1, .reply 1, .enqueue, .take 1, .work 1, .work 0, .work 1, .reply 0, .work 1, .reply 1]
    let p := (start.performAll Memory.backend events).value
    let (results, shared', _, stored) := (dispatchAll Memory.backend.answering
      [.read "a", .write "b" (some "3"), .delete "c"] shared ((), table)).value
    p.answers = [(2, .ok ⟨.ok, none⟩), (0, .ok ⟨.ok, none⟩), (1, .ok (.found "1"))] ∧
      (Operation.read "a", .answered (.found "1")) ∈ results ∧ p.store["b"]? = stored["b"]? ∧
      p.shared.counters = shared'.counters ∧
      ∀ key, p.shared.cache.peek key = shared'.cache.peek key := by
  intro shared table start events p
  have reachable : Cache.Reachable 4 shared.cache := .put "a" "1" (.new rfl)
  have coherent : ∀ key value, shared.cache.peek key = some value → table[key]? = some value := by
    intro key value held
    have empty : Cache.Reachable 4 (Cache.empty 4) := .new rfl
    rcases empty.intact.1.held_put held with ⟨rfl, rfl⟩ | ⟨-, none⟩
    · decide +kernel
    · cases none
  have started : (Pool.start Memory.backend 2 2 shared table).value = (.ok start, table) := rfl
  have begins : Run Memory.backend start [] start := .start
  have run : Run Memory.backend start (start.moments Memory.backend events ++ []) p :=
    begins.performAll events
  have submitted : submissions (start.moments Memory.backend events ++ []) =
      [⟨⟨2, .delete "c"⟩, true⟩, ⟨⟨1, .read "a"⟩, true⟩, ⟨⟨0, .write "b" (some "3")⟩, true⟩] := by
    decide +kernel
  have answers :
      p.answers = [(2, .ok ⟨.ok, none⟩), (0, .ok ⟨.ok, none⟩), (1, .ok (.found "1"))] := by
    decide +kernel
  have waiting : p.waiting = [] := by decide +kernel
  have queue : p.queue = [] := by decide +kernel
  have idle : p.workers.all Worker.isIdle = true := by decide +kernel
  have depth : p.depth = 2 := by decide +kernel
  have size : shared.cache.size = 1 := by decide +kernel
  generalize start.moments Memory.backend events ++ [] = history at run submitted
  clear_value p
  have resting : p.Resting := by
    refine ⟨?_, waiting, queue, fun worker member _ => List.all_eq_true.mp idle worker member⟩
    omega
  have batch : ((submissions history).map (·.job.op)).Perm
      [.read "a", .write "b" (some "3"), .delete "c"] := by
    rw [submitted]
    decide
  have inTime : ∀ s ∈ submissions history, s.inTime = true := by
    rw [submitted]
    decide
  have commute := independent_operations_commute reachable coherent started run (by decide) batch
    inTime (resting.still Memory.backend)
  revert commute
  rcases (dispatchAll Memory.backend.answering
    [.read "a", .write "b" (some "3"), .delete "c"] shared ((), table)).value with
    ⟨results, shared', u, stored⟩
  rintro ⟨outcomes, stores, -, -, -, roomy⟩
  refine ⟨answers, ?_, stores "b", roomy ?_⟩
  · obtain ⟨outcome, given, listed⟩ := outcomes ⟨⟨1, .read "a"⟩, true⟩ (by rw [submitted]; simp)
    rw [answer?, answers] at given
    cases given
    exact listed
  · rw [size]
    decide

end InMemory

end Pool

end CacheAside
