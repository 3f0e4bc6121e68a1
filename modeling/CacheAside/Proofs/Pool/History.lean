import Mathlib.Data.List.Nodup
import CacheAside.Proofs.Pool.Change

/-!
# The history of a pool

`Pool.Run` is a run of a pool through any events that can happen, with all moments of it on record.
From the record alone, `submissions` reads who has submitted what, `dispatches` whose dispatch has
begun, and `progress` what the dispatch of a job has come to: the operation that was submitted,
carried on by the steps that were made for its ticket, on the cache and the store as they were at
the time.

`Pool.Books` says that what the pool holds agrees with its record: an answer is either the outcome
of the own operation, or `closed` for one of three reasons (`Pool.Ground`). It is kept by every
event, and so by every run (`Run.books`).
-/

namespace CacheAside

/-- A job as it was submitted, and whether the pool was open then. -/
structure Submission where
  job : Job
  inTime : Bool
  deriving DecidableEq, Repr

namespace Pool

variable {σ γ : Type}

/-- One event, and the pool before and after it. -/
structure Moment (σ γ : Type) where
  before : Pool σ γ
  action : Action
  after : Pool σ γ

namespace Moment

def submission? (m : Moment σ γ) : Option Submission :=
  match m.action with
  | .submit op => some ⟨⟨m.before.tickets, op⟩, m.before.isOpen⟩
  | _ => none

/-- The job whose dispatch begins: a worker makes the first step of it. -/
def dispatch? (m : Moment σ γ) : Option Job :=
  match m.action with
  | .work w =>
    match m.before.workers[w]? with
    | some (.busy ticket (.begun op) _) => some ⟨ticket, op⟩
    | _ => none
  | _ => none

end Moment

/-- The operations submitted, the newest first. -/
def submissions (history : List (Moment σ γ)) : List Submission :=
  history.filterMap Moment.submission?

/-- The jobs dispatched, the newest first. -/
def dispatches (history : List (Moment σ γ)) : List Job := history.filterMap Moment.dispatch?

/-- What the dispatch of a job has come to; nothing, as long as no worker has taken it. -/
def progress (b : Backend σ γ) (job : Job) : List (Moment σ γ) → Option Task
  | [] => none
  | m :: history =>
    match m.action with
    | .take _ =>
      if m.before.queue.head? = some job then some (.begun job.op) else progress b job history
    | .work w =>
      match m.before.workers[w]? with
      | some (.busy ticket _ connection) =>
        if ticket = job.ticket then (progress b job history).map fun task =>
          (task.step b.answering m.before.shared (connection, m.before.store)).value.1
        else progress b job history
      | _ => progress b job history
    | _ => progress b job history

/-- A run of a pool, with its moments, the newest first. -/
inductive Run (b : Backend σ γ) (start : Pool σ γ) : List (Moment σ γ) → Pool σ γ → Prop
  | start : Run b start [] start
  | next {history : List (Moment σ γ)} {p : Pool σ γ} {a : Action} {change : Logged (Pool σ γ)}
      (run : Run b start history p) (happens : p.act? b a = some change) :
      Run b start (⟨p, a, change.value⟩ :: history) change.value

/-- The moments of the events that can happen, if they are tried one after the other, the newest
first. -/
def moments (b : Backend σ γ) (p : Pool σ γ) : List Action → List (Moment σ γ)
  | [] => []
  | a :: events =>
    match p.act? b a with
    | some change => change.value.moments b events ++ [⟨p, a, change.value⟩]
    | none => p.moments b events

/-- Why an answer is what it is. -/
inductive Ground (b : Backend σ γ) (history : List (Moment σ γ)) (p : Pool σ γ) :
    Submission → Answer → Prop
  | outcome {job : Job} {outcome : Outcome}
      (came : progress b job history = some (.ended (.answered outcome))) :
      Ground b history p ⟨job, true⟩ (.ok outcome)
  | late {job : Job} : Ground b history p ⟨job, false⟩ (.error .closed)
  | crashed {job : Job} {text : String}
      (came : progress b job history = some (.ended (.crashed text))) :
      Ground b history p ⟨job, true⟩ (.error .closed)
  | stranded {job : Job} (untaken : progress b job history = none)
      (lost : ∀ worker ∈ p.workers, worker.isLost = true) :
      Ground b history p ⟨job, true⟩ (.error .closed)

/-- What a pool holds agrees with its history. -/
structure Books (b : Backend σ γ) (history : List (Moment σ γ)) (p : Pool σ γ) : Prop where
  tickets : (submissions history).map (·.job.ticket) = (List.range p.tickets).reverse
  queued : ∀ job ∈ p.waiting ++ p.queue,
    ⟨job, true⟩ ∈ submissions history ∧ progress b job history = none
  busy : ∀ {w ticket : Nat} {task : Task} {connection : γ},
    p.workers[w]? = some (.busy ticket task connection) → ∃ op,
      ⟨⟨ticket, op⟩, true⟩ ∈ submissions history ∧ progress b ⟨ticket, op⟩ history = some task
  answered : ∀ {ticket : Nat} {answer : Answer}, (ticket, answer) ∈ p.answers →
    ∃ s ∈ submissions history, s.job.ticket = ticket ∧ Ground b history p s answer
  known : ∀ {job : Job} {task : Task}, progress b job history = some task →
    ⟨job, true⟩ ∈ submissions history ∧ ∀ op, task = .begun op → op = job.op
  dispatched : ∀ job, job ∈ dispatches history ↔
    ∃ task, progress b job history = some task ∧ task.isBegun = false
  once : (dispatches history).Nodup

variable {b : Backend σ γ} {history : List (Moment σ γ)} {p p' : Pool σ γ} {a : Action}

theorem mem_of_first {job : Job} {queue : List Job} (first : p.queue = job :: queue) :
    job ∈ p.waiting ++ p.queue := by
  rw [first]
  exact List.mem_append_right _ List.mem_cons_self

/-! ## How progress is made -/

/-- A worker that takes a job begins its operation. -/
theorem progress_first {w : Nat} {job : Job} {queue : List Job} (first : p.queue = job :: queue) :
    progress b job (⟨p, .take w, p'⟩ :: history) = some (.begun job.op) := by
  have head : p.queue.head? = some job := by rw [first]; rfl
  exact if_pos head

theorem progress_take {w : Nat} {job other : Job} {queue : List Job}
    (first : p.queue = job :: queue) (apart : other ≠ job) :
    progress b other (⟨p, .take w, p'⟩ :: history) = progress b other history := by
  have head : p.queue.head? ≠ some other := by
    rw [first]
    rintro ⟨⟩
    exact apart rfl
  exact if_neg head

/-- The work of the worker that has the job is a step of its task. -/
theorem progress_own {w : Nat} (job : Job) {task : Task} {connection : γ}
    (busy : p.workers[w]? = some (.busy job.ticket task connection)) :
    progress b job (⟨p, .work w, p'⟩ :: history) = (progress b job history).map fun task =>
      (task.step b.answering p.shared (connection, p.store)).value.1 := by
  rw [progress]
  simp only [busy, if_pos]

theorem progress_work {w ticket : Nat} {job : Job} {task : Task} {connection : γ}
    (busy : p.workers[w]? = some (.busy ticket task connection)) (apart : ticket ≠ job.ticket) :
    progress b job (⟨p, .work w, p'⟩ :: history) = progress b job history := by
  rw [progress]
  simp only [busy, if_neg apart]

/-- Between two moments a task is left alone or makes one step. -/
theorem progress_advance {job : Job} {task : Task} (change : Change b p a p') (sound : p.Sound)
    (books : Books b history p) (came : progress b job history = some task) :
    progress b job (⟨p, a, p'⟩ :: history) = some task ∨ ∃ (s : Shared) (t : γ × σ),
      s.cache.Intact ∧
        progress b job (⟨p, a, p'⟩ :: history) = some (task.step b.answering s t).value.1 := by
  cases change with
  | @taken w head _ _ first _ =>
      have apart : job ≠ head := by
        rintro rfl
        have untaken := (books.queued job (mem_of_first first)).2
        rw [untaken] at came
        cases came
      exact .inl ((progress_take first apart).trans came)
  | @worked w ticket _ _ connection _ _ _ busy _ _ =>
      by_cases own : ticket = job.ticket
      · subst own
        rw [progress_own job busy, came]
        exact .inr ⟨p.shared, (connection, p.store), sound.intact, rfl⟩
      · exact .inl ((progress_work busy own).trans came)
  | admitted | rejected | enqueued | answered | lost | abandoned | closed | stopped =>
      exact .inl came

/-- What has ended stays as it is. -/
theorem progress_ended {job : Job} {result : Result} (change : Change b p a p') (sound : p.Sound)
    (books : Books b history p) (came : progress b job history = some (.ended result)) :
    progress b job (⟨p, a, p'⟩ :: history) = some (.ended result) := by
  rcases progress_advance change sound books came with same | ⟨s, t, -, stepped⟩
  · exact same
  · exact stepped

namespace Books

theorem distinct (books : Books b history p) :
    ((submissions history).map (·.job.ticket)).Nodup := by
  rw [books.tickets]
  exact List.nodup_reverse.mpr List.nodup_range

theorem unique (books : Books b history p) {s s' : Submission} (member : s ∈ submissions history)
    (member' : s' ∈ submissions history) (same : s.job.ticket = s'.job.ticket) : s = s' :=
  List.inj_on_of_nodup_map books.distinct member member' same

/-- The tickets submitted are those given out. -/
theorem ticket_lt (books : Books b history p) {s : Submission} (member : s ∈ submissions history) :
    s.job.ticket < p.tickets := by
  have given : s.job.ticket ∈ (submissions history).map (·.job.ticket) :=
    List.mem_map_of_mem member
  rw [books.tickets, List.mem_reverse, List.mem_range] at given
  exact given

/-- Nothing comes of a ticket that has not been given out. -/
theorem fresh (books : Books b history p) {job : Job} (new : p.tickets ≤ job.ticket) :
    progress b job history = none := by
  cases came : progress b job history with
  | none => rfl
  | some task =>
      have given : job.ticket < p.tickets := books.ticket_lt (books.known came).1
      omega

/-! ## Every event keeps the books -/

theorem mem_next {s : Submission} (member : s ∈ submissions history) :
    s ∈ submissions (⟨p, a, p'⟩ :: history) := by
  unfold submissions
  rw [List.filterMap_cons]
  split
  · exact member
  · exact List.mem_cons_of_mem _ member

theorem tickets_next (change : Change b p a p') (books : Books b history p) :
    (submissions (⟨p, a, p'⟩ :: history)).map (·.job.ticket) = (List.range p'.tickets).reverse := by
  have before := books.tickets
  cases change with
  | admitted | rejected =>
      rw [List.range_succ, List.reverse_append, ← before]
      rfl
  | enqueued | taken | worked | answered | lost | abandoned | closed | stopped => exact before

/-- What waits was submitted to an open pool, and nothing has come of it yet. -/
theorem queued_next (change : Change b p a p') (sound : p.Sound) (books : Books b history p) :
    ∀ job ∈ p'.waiting ++ p'.queue, ⟨job, true⟩ ∈ submissions (⟨p, a, p'⟩ :: history) ∧
      progress b job (⟨p, a, p'⟩ :: history) = none := by
  intro job member
  cases change with
  | @admitted op opened _ =>
      have own : job = ⟨p.tickets, op⟩ ∨ job ∈ p.waiting ++ p.queue := by
        simp only [List.mem_append, List.mem_singleton] at member ⊢
        tauto
      rcases own with rfl | old
      · refine ⟨?_, books.fresh (Nat.le_refl _)⟩
        rw [← opened]
        exact List.mem_cons_self
      · exact ⟨mem_next (books.queued job old).1, (books.queued job old).2⟩
  | rejected => exact ⟨mem_next (books.queued job member).1, (books.queued job member).2⟩
  | enqueued first _ =>
      have old : job ∈ p.waiting ++ p.queue := by
        simp only [first, List.mem_append, List.mem_cons, List.not_mem_nil] at member ⊢
        tauto
      exact books.queued job old
  | taken first _ =>
      have old : job ∈ p.waiting ++ p.queue := by
        simp only [first, List.mem_append, List.mem_cons] at member ⊢
        tauto
      have apart := sound.ne_of_first first member
      exact ⟨(books.queued job old).1, (progress_take first apart).trans (books.queued job old).2⟩
  | worked busy _ _ =>
      have apart := sound.ne_of_queued busy member
      exact ⟨(books.queued job member).1,
        (progress_work busy apart).trans (books.queued job member).2⟩
  | abandoned => cases member
  | answered | lost | closed | stopped => exact books.queued job member

/-- What a worker has at hand is what has come of the dispatch of its job. -/
theorem busy_next (change : Change b p a p') (sound : p.Sound) (books : Books b history p)
    {w ticket : Nat} {task : Task} {connection : γ}
    (busy : p'.workers[w]? = some (.busy ticket task connection)) : ∃ op,
      ⟨⟨ticket, op⟩, true⟩ ∈ submissions (⟨p, a, p'⟩ :: history) ∧
        progress b ⟨ticket, op⟩ (⟨p, a, p'⟩ :: history) = some task := by
  cases change with
  | admitted =>
      obtain ⟨op, member, came⟩ := books.busy busy
      exact ⟨op, mem_next member, came⟩
  | rejected =>
      obtain ⟨op, member, came⟩ := books.busy busy
      exact ⟨op, mem_next member, came⟩
  | enqueued | closed => exact books.busy busy
  | @taken w' job queue own first idle =>
      by_cases here : w' = w
      · subst here
        rw [getElem?_set_of_getElem? idle] at busy
        cases busy
        have waits := books.queued job (mem_of_first first)
        exact ⟨job.op, waits.1, progress_first first⟩
      · rw [List.getElem?_set_ne here] at busy
        obtain ⟨op, member, came⟩ := books.busy busy
        have apart : (⟨ticket, op⟩ : Job) ≠ job := by
          rintro rfl
          exact sound.ne_of_queued busy (mem_of_first first) rfl
        exact ⟨op, member, (progress_take first apart).trans came⟩
  | @worked w' ticket' before after own own' shared store acting _ stepped =>
      by_cases here : w' = w
      · subst here
        rw [getElem?_set_of_getElem? acting] at busy
        cases busy
        obtain ⟨op, member, came⟩ := books.busy acting
        refine ⟨op, member, ?_⟩
        rw [progress_own ⟨ticket, op⟩ acting, came, Option.map_some, stepped]
      · rw [List.getElem?_set_ne here] at busy
        obtain ⟨op, member, came⟩ := books.busy busy
        have apart : ticket' ≠ ticket := by
          rintro rfl
          exact here (sound.lone busy acting)
        exact ⟨op, member, (progress_work acting apart).trans came⟩
  | answered | lost | abandoned | stopped => exact books.busy (busy_of_set (fun _ => rfl) busy)

theorem lost_of_dead {workers : List (Worker γ)} (dead : workers.any Worker.isAlive = false)
    (unstopped : .stopped ∉ workers) : ∀ worker ∈ workers, worker.isLost = true := by
  intro worker member
  have out : ¬ worker.isAlive = true := List.any_eq_false.mp dead worker member
  cases worker with
  | idle | busy => exact absurd rfl out
  | stopped => exact absurd member unstopped
  | lost => rfl

/-- A reason for an answer stays one. -/
theorem ground_next (change : Change b p a p') (sound : p.Sound) (books : Books b history p)
    {s : Submission} {answer : Answer} (ground : Ground b history p s answer) :
    Ground b (⟨p, a, p'⟩ :: history) p' s answer := by
  cases ground with
  | outcome came => exact .outcome (progress_ended change sound books came)
  | late => exact .late
  | crashed came => exact .crashed (progress_ended change sound books came)
  | @stranded job untaken lost =>
      have none : ∀ {w : Nat} {worker : Worker γ}, p.workers[w]? = some worker →
          worker.isLost = true := fun here => lost _ (List.mem_of_getElem? here)
      cases change with
      | taken _ idle => cases none idle
      | worked busy _ _ => cases none busy
      | answered busy => cases none busy
      | lost busy _ => cases none busy
      | abandoned busy _ => cases none busy
      | stopped idle _ _ _ => cases none idle
      | admitted | rejected | enqueued | closed => exact .stranded untaken lost

/-- An answer belongs to a submission and has one of the grounds. -/
theorem answered_next (change : Change b p a p') (sound : p.Sound) (books : Books b history p)
    {ticket : Nat} {answer : Answer} (given : (ticket, answer) ∈ p'.answers) :
    ∃ s ∈ submissions (⟨p, a, p'⟩ :: history), s.job.ticket = ticket ∧
      Ground b (⟨p, a, p'⟩ :: history) p' s answer := by
  have before : (ticket, answer) ∈ p.answers → ∃ s ∈ submissions (⟨p, a, p'⟩ :: history),
      s.job.ticket = ticket ∧ Ground b (⟨p, a, p'⟩ :: history) p' s answer := by
    intro old
    obtain ⟨s, member, own, ground⟩ := books.answered old
    exact ⟨s, mem_next member, own, ground_next change sound books ground⟩
  cases change with
  | @rejected op shut =>
      rcases List.mem_cons.mp given with new | old
      · cases new
        refine ⟨⟨⟨p.tickets, op⟩, p.isOpen⟩, List.mem_cons_self, rfl, ?_⟩
        cases opened : p.isOpen with
        | false => exact .late
        | true =>
            have dead : p.isAlive = false := by
              rcases shut with closed | dead
              · rw [opened] at closed
                cases closed
              · exact dead
            have unstopped : .stopped ∉ p.workers := by
              intro stopped
              have shut := (sound.stopped stopped).1
              rw [opened] at shut
              cases shut
            have lost := lost_of_dead dead unstopped
            exact .stranded (books.fresh (Nat.le_refl _)) lost
      · exact before old
  | answered busy =>
      rcases List.mem_cons.mp given with new | old
      · cases new
        obtain ⟨op, member, came⟩ := books.busy busy
        exact ⟨_, mem_next member, rfl, .outcome came⟩
      · exact before old
  | lost busy _ =>
      rcases List.mem_cons.mp given with new | old
      · cases new
        obtain ⟨op, member, came⟩ := books.busy busy
        exact ⟨_, mem_next member, rfl, .crashed came⟩
      · exact before old
  | abandoned busy last =>
      rcases List.mem_append.mp given with up | rest
      · obtain ⟨job, queued, new⟩ := List.mem_map.mp (List.mem_reverse.mp up)
        cases new
        have waits : job ∈ p.waiting ++ p.queue := by
          rw [List.mem_append] at queued ⊢
          exact queued.symm
        have unstopped : .stopped ∉ p.workers := by
          intro stopped
          obtain ⟨-, waiting, queue⟩ := sound.stopped stopped
          rw [waiting, queue] at waits
          cases waits
        have lost := lost_of_dead last fun stopped => unstopped (mem_of_mem_set stopped nofun)
        obtain ⟨member, untaken⟩ := books.queued job waits
        exact ⟨⟨job, true⟩, mem_next member, rfl, .stranded untaken lost⟩
      · rcases List.mem_cons.mp rest with new | old
        · cases new
          obtain ⟨op, member, came⟩ := books.busy busy
          exact ⟨_, mem_next member, rfl, .crashed came⟩
        · exact before old
  | admitted | enqueued | taken | worked | closed | stopped => exact before given

/-- A job on which there is progress was submitted, and begins with its own operation. -/
theorem known_next (change : Change b p a p') (sound : p.Sound) (books : Books b history p)
    {job : Job} {task : Task} (came : progress b job (⟨p, a, p'⟩ :: history) = some task) :
    ⟨job, true⟩ ∈ submissions (⟨p, a, p'⟩ :: history) ∧ ∀ op, task = .begun op → op = job.op := by
  cases change with
  | @taken w head _ _ first _ =>
      by_cases own : job = head
      · subst own
        rw [progress_first first] at came
        cases came
        refine ⟨(books.queued job (mem_of_first first)).1, ?_⟩
        rintro op ⟨⟩
        rfl
      · rw [progress_take first own] at came
        exact books.known came
  | @worked w ticket before _ connection _ _ _ busy _ _ =>
      by_cases own : ticket = job.ticket
      · subst own
        rw [progress_own job busy, Option.map_eq_some_iff] at came
        obtain ⟨earlier, came, rfl⟩ := came
        refine ⟨(books.known came).1, ?_⟩
        intro op again
        have step := Task.step_cases sound.intact b.answering earlier (connection, p.store)
        have underway := step.isBegun
        rw [again] at underway
        cases underway
      · rw [progress_work busy own] at came
        exact books.known came
  | admitted | rejected => exact ⟨mem_next (books.known came).1, (books.known came).2⟩
  | enqueued | answered | lost | abandoned | closed | stopped => exact books.known came

/-- The first step of a task begins the dispatch of the job that was submitted under its ticket, and
no other step begins one. -/
theorem dispatches_work (books : Books b history p) {w ticket : Nat} {task : Task} {connection : γ}
    {op : Operation} (busy : p.workers[w]? = some (.busy ticket task connection))
    (came : progress b ⟨ticket, op⟩ history = some task) :
    (task.isBegun = true ∧
        dispatches (⟨p, .work w, p'⟩ :: history) = ⟨ticket, op⟩ :: dispatches history) ∨
      (task.isBegun = false ∧ dispatches (⟨p, .work w, p'⟩ :: history) = dispatches history) := by
  unfold dispatches
  cases task with
  | begun op' =>
      have same : op' = op := (books.known came).2 op' rfl
      subst same
      refine .inl ⟨rfl, ?_⟩
      rw [List.filterMap_cons_some]
      simp only [Moment.dispatch?, busy]
  | finding | fetching | filling | storing | adopting | removing | forgetting | ended =>
      refine .inr ⟨rfl, ?_⟩
      apply List.filterMap_cons_none
      simp only [Moment.dispatch?, busy]

/-- A step for a ticket makes progress for the job that was submitted under it, and for no other. -/
theorem progress_rest (books : Books b history p) {w ticket : Nat} {task : Task} {connection : γ}
    {op : Operation} (busy : p.workers[w]? = some (.busy ticket task connection))
    (member : ⟨⟨ticket, op⟩, true⟩ ∈ submissions history) {job : Job} (apart : job ≠ ⟨ticket, op⟩) :
    progress b job (⟨p, .work w, p'⟩ :: history) = progress b job history := by
  by_cases own : ticket = job.ticket
  · rw [progress_own job (own ▸ busy)]
    cases came : progress b job history with
    | none => rfl
    | some earlier =>
        have same := books.unique (books.known came).1 member own.symm
        cases same
        exact absurd rfl apart
  · exact progress_work busy own

/-- A job is dispatched exactly if a worker has made a step of it. -/
theorem dispatched_next (change : Change b p a p') (sound : p.Sound) (books : Books b history p)
    (job : Job) : job ∈ dispatches (⟨p, a, p'⟩ :: history) ↔
      ∃ task, progress b job (⟨p, a, p'⟩ :: history) = some task ∧ task.isBegun = false := by
  cases change with
  | @taken w head _ _ first _ =>
      by_cases own : job = head
      · subst own
        rw [progress_first first]
        constructor
        · intro dispatched
          obtain ⟨task, came, -⟩ := (books.dispatched job).mp dispatched
          rw [(books.queued job (mem_of_first first)).2] at came
          cases came
        · rintro ⟨task, ⟨⟩, underway⟩
          cases underway
      · rw [progress_take first own]
        exact books.dispatched job
  | @worked w ticket before after connection _ _ _ busy _ stepped =>
      obtain ⟨op, member, came⟩ := books.busy busy
      have step := Task.step_cases sound.intact b.answering before (connection, p.store)
      rw [stepped] at step
      by_cases own : job = ⟨ticket, op⟩
      · subst own
        have made : ∀ left,
            progress b ⟨ticket, op⟩ (⟨p, .work w, left⟩ :: history) = some after := by
          intro left
          rw [progress_own ⟨ticket, op⟩ busy, came, Option.map_some, stepped]
        refine iff_of_true ?_ ⟨after, made _, step.isBegun⟩
        rcases books.dispatches_work busy came with ⟨-, more⟩ | ⟨underway, same⟩
        · rw [more]
          exact List.mem_cons_self
        · rw [same]
          exact (books.dispatched _).mpr ⟨before, came, underway⟩
      · rw [books.progress_rest busy member own, ← books.dispatched job]
        rcases books.dispatches_work busy came with ⟨-, more⟩ | ⟨-, same⟩
        · rw [more, List.mem_cons]
          exact ⟨fun new => new.resolve_left own, .inr⟩
        · rw [same]
  | admitted | rejected | enqueued | answered | lost | abandoned | closed | stopped =>
      exact books.dispatched job

/-- No job is dispatched twice. -/
theorem once_next (change : Change b p a p') (books : Books b history p) :
    (dispatches (⟨p, a, p'⟩ :: history)).Nodup := by
  cases change with
  | worked busy _ _ =>
      obtain ⟨op, -, came⟩ := books.busy busy
      rcases books.dispatches_work busy came with ⟨begun, more⟩ | ⟨-, same⟩
      · rw [more]
        refine List.nodup_cons.mpr ⟨?_, books.once⟩
        intro dispatched
        obtain ⟨task, came', underway⟩ := (books.dispatched _).mp dispatched
        rw [came] at came'
        cases came'
        rw [begun] at underway
        cases underway
      · rw [same]
        exact books.once
  | admitted | rejected | enqueued | taken | answered | lost | abandoned | closed | stopped =>
      exact books.once

theorem next (change : Change b p a p') (sound : p.Sound) (books : Books b history p) :
    Books b (⟨p, a, p'⟩ :: history) p' where
  tickets := tickets_next change books
  queued := queued_next change sound books
  busy := busy_next change sound books
  answered := answered_next change sound books
  known := known_next change sound books
  dispatched := dispatched_next change sound books
  once := once_next change books

/-- The books of a pool that has just started are empty. -/
theorem start {size depth : Nat} {shared : Shared} {s s' : σ}
    (started : (Pool.start b size depth shared s).value = (.ok p, s')) : Books b [] p := by
  obtain ⟨-, -, connections, -, rfl⟩ := start_ok started
  refine ⟨rfl, nofun, ?_, nofun, nofun, ?_, List.nodup_nil⟩
  · intro w ticket task connection busy
    obtain ⟨idle, -, impossible⟩ := List.mem_map.mp (List.mem_of_getElem? busy)
    cases impossible
  · intro job
    exact ⟨nofun, nofun⟩

end Books

/-- Every run keeps the pool sound and its books right. -/
theorem Run.books {start : Pool σ γ} (run : Run b start history p) (sound : start.Sound)
    (empty : Books b [] start) : p.Sound ∧ Books b history p := by
  induction run with
  | start => exact ⟨sound, empty⟩
  | next run happens ih =>
      have change := change_of_act? happens
      exact ⟨ih.1.change change, ih.2.next change ih.1⟩

end Pool

end CacheAside
