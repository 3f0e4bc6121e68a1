import Mathlib.Data.List.Count
import CacheAside.Proofs.Pool.Draining

/-!
# No worker is leaked

Each worker that is told to have started is told, once, to have stopped or to have panicked,
whatever becomes of the pool (`Pool.no_worker_is_leaked`). If a connection is refused, the workers
that have started are stopped before the start is over, and no more is attempted. A pool that has
started can live any life (`Pool.Chronicle`); once it is closed it comes to its end, with as many
workers panicked as the store has broken down under operations.
-/

namespace CacheAside

/-! ## Counting workers -/

theorem count_workers (fate told : Fate) (P : Nat → Bool) (n w : Nat) :
    (((List.range n).filter P).map (told, ·)).count (fate, w) =
      if fate = told ∧ w < n ∧ P w = true then 1 else 0 := by
  by_cases same : fate = told
  · subst same
    have injective : Function.Injective fun w : Nat => (fate, w) := fun _ _ => congrArg Prod.snd
    have once : ((List.range n).filter P).Nodup := List.nodup_range.filter P
    rw [List.count_map_of_injective _ _ injective, once.count]
    simp
  · rw [if_neg fun other => same other.1]
    apply List.count_eq_zero.mpr
    intro member
    obtain ⟨_, -, other⟩ := List.mem_map.mp member
    exact same (congrArg Prod.fst other).symm

theorem count_all_workers (fate told : Fate) (n w : Nat) :
    ((List.range n).map (told, ·)).count (fate, w) = if fate = told ∧ w < n then 1 else 0 := by
  have counted := count_workers fate told (fun _ => true) n w
  rw [List.filter_true] at counted
  simpa using counted

theorem countP_workers (fate told : Fate) (workers : List Nat) :
    (workers.map (told, ·)).countP (·.1 = fate) = if fate = told then workers.length else 0 := by
  rw [List.countP_map]
  split
  · next same =>
      rw [List.countP_eq_length]
      exact fun _ _ => decide_eq_true same.symm
  · next other =>
      rw [List.countP_eq_zero]
      exact fun _ _ same => other (of_decide_eq_true same).symm

theorem length_filter_range {α : Type} (P : α → Bool) (xs : List α) :
    ((List.range xs.length).filter fun i => xs[i]?.any P).length = xs.countP P := by
  rw [← List.countP_eq_length_filter]
  induction xs with
  | nil => rfl
  | cons x xs ih =>
      rw [List.length_cons, List.range_succ_eq_map, List.countP_cons, List.countP_cons,
        List.countP_map, ← ih]
      rfl

/-- What a whole log says of `n` workers, if the store has broken down under the operations with the
tickets `broken`. -/
structure Discharged (n : Nat) (log : List Event) (broken : List Nat) : Prop where
  /-- Exactly the workers before `n` have started, once each. -/
  started : ∀ w, (fates log).count (.started, w) = if w < n then 1 else 0
  /-- Each of them has either given its connection back or panicked, once. -/
  ended : ∀ w, (fates log).count (.stopped, w) + (fates log).count (.panicked, w) =
    if w < n then 1 else 0
  once : broken.Nodup
  panicked : (fates log).countP (·.1 = .panicked) = broken.length

namespace Pool

variable {σ γ : Type} {b : Backend σ γ} {start p : Pool σ γ} {log : List Event}
  {broken : List Nat} {n : Nat}

/-! ## The end of a pool -/

/-- What is told of the lost workers when all workers have ended. -/
def losses (p : Pool σ γ) : List Event :=
  ((List.range p.workers.length).filter fun w =>
    p.workers[w]?.any Worker.isLost).map .workerPanicked

/-- Joining is shutting down, and telling then of the workers that are lost. -/
theorem join_eq (b : Backend σ γ) (p : Pool σ γ) : p.join b = ⟨(p.shutDown b).value,
    (p.shutDown b).events ++ ((p.shutDown b).value.losses ++ [.workersStopped])⟩ := by
  have told (P : Nat → Bool) (workers : List Nat) :
      (workers.forM fun w => if P w then Logged.report (.workerPanicked w) else pure ()).events =
        (workers.filter P).map .workerPanicked := by
    rw [Logged.events_forM]
    induction workers with
    | nil => rfl
    | cons w workers ih =>
        rw [List.flatMap_cons, ih, List.filter_cons]
        split <;> rfl
  refine Logged.ext rfl ?_
  simp only [join, losses, Logged.events_bind, told, Logged.events_report, Logged.events_pure,
    List.append_nil]

/-- All that happens while a pool is shut down belongs to its chronicle. -/
theorem Chronicle.shutDown (chronicle : Chronicle b start log broken p) :
    ∃ more, Chronicle b start (log ++ (p.shutDown b).events) (broken ++ more)
      (p.shutDown b).value := by
  obtain ⟨events, same⟩ := exists_shutDown b p
  rw [same]
  exact chronicle.performAll events

/-- So does all that happens to operations that are submitted together. -/
theorem Chronicle.batch (chronicle : Chronicle b start log broken p) (ops : List Operation)
    {finish : Pool σ γ → Logged (Pool σ γ)}
    (finishes : ∀ p, ∃ events, finish p = p.performAll b events) :
    ∃ more, Chronicle b start
      (log ++ (p.performAll b (ops.map .submit) >>= finish).events) (broken ++ more)
      ((p.performAll b (ops.map .submit) >>= finish).value.collect ops.length).2 := by
  obtain ⟨first, submitted⟩ := chronicle.performAll (ops.map .submit)
  obtain ⟨events, same⟩ := finishes (p.performAll b (ops.map .submit)).value
  obtain ⟨more, finished⟩ := submitted.performAll events
  refine ⟨first ++ more, ?_⟩
  have handed := finished.collected ops.length
  rw [← same, List.append_assoc, List.append_assoc] at handed
  exact handed

/-- A batch that is served is a part of the life of the pool. -/
theorem Chronicle.serveAll (chronicle : Chronicle b start log broken p) (ops : List Operation) :
    ∃ more, Chronicle b start (log ++ (p.serveAll b ops).events) (broken ++ more)
      (p.serveAll b ops).value.2 := by
  obtain ⟨more, served⟩ := chronicle.batch ops (exists_settle b)
  refine ⟨more, ?_⟩
  simp only [Logged.events_bind] at served
  simp only [Pool.serveAll, Logged.events_bind, Logged.events_pure, List.append_nil]
  exact served

theorem Chronicle.serveLast (chronicle : Chronicle b start log broken p) (ops : List Operation) :
    ∃ more, Chronicle b start (log ++ (p.serveLast b ops).events) (broken ++ more)
      (p.serveLast b ops).value.2 := by
  obtain ⟨more, served⟩ := chronicle.batch ops (exists_shutDown b)
  refine ⟨more, ?_⟩
  simp only [Logged.events_bind] at served
  simp only [Pool.serveLast, Logged.events_bind, Logged.events_pure, List.append_nil]
  exact served

/-- A worker of a pool without a worker that is left has stopped or is lost. -/
theorem stopped_or_lost (dead : p.isAlive = false) {w : Nat} (inside : w < p.workers.length) :
    p.workers[w]?.any Worker.isStopped = !p.workers[w]?.any Worker.isLost := by
  have ended := List.any_eq_false.mp dead _ (List.getElem_mem inside)
  rw [List.getElem?_eq_getElem inside]
  cases here : p.workers[w] with
  | idle | busy =>
      rw [here] at ended
      exact absurd rfl ended
  | stopped | lost => rfl

theorem countP_isLost (dead : p.isAlive = false) :
    p.workers.countP Worker.isLost = p.workers.countP Worker.isBroken := by
  refine List.countP_congr fun worker member => ?_
  have ended := List.any_eq_false.mp dead worker member
  cases worker with
  | idle | busy => exact absurd rfl ended
  | stopped | lost => rfl

/-- If all workers of a pool have ended, the log of its whole life accounts for them. -/
theorem Recorded.discharged (recorded : Recorded n log broken p) (dead : p.isAlive = false)
    {opening : List Event} (opened : fates opening = (List.range n).map (.started, ·)) :
    Discharged n (opening ++ log ++ (p.losses ++ [.workersStopped])) broken := by
  have told : fates (opening ++ log ++ (p.losses ++ [.workersStopped])) =
      (List.range n).map (.started, ·) ++ fates log ++
        ((List.range n).filter fun w => p.workers[w]?.any Worker.isLost).map (.panicked, ·) := by
    rw [fates_append, fates_append, fates_append, opened, losses, fates_map _ (fun _ => rfl),
      recorded.size]
    simp [fates, Event.fate?]
  refine ⟨?_, ?_, ?_, ?_⟩
  · intro w
    rw [told, List.count_append, List.count_append, count_all_workers, count_workers,
      recorded.told]
    simp
  · intro w
    rw [told]
    simp only [List.count_append, count_all_workers, count_workers, recorded.told]
    by_cases inside : w < n
    · rw [stopped_or_lost dead (recorded.size ▸ inside)]
      cases p.workers[w]?.any Worker.isLost <;> simp [inside]
    · have none : p.workers[w]? = none := by
        rw [List.getElem?_eq_none_iff, recorded.size]
        exact Nat.not_lt.mp inside
      simp [none, inside]
  · refine List.nodup_iff_count_le_one.mpr fun ticket => ?_
    have few := recorded.once ticket
    split at few <;> omega
  · have others : (fates log).countP (·.1 = .panicked) = 0 := by
      refine List.countP_eq_zero.mpr ?_
      rintro ⟨fate, w⟩ member panicked
      obtain rfl : fate = .panicked := of_decide_eq_true panicked
      have counted := recorded.told .panicked w
      have untold : (fates log).count (.panicked, w) = 0 :=
        counted.trans (if_neg fun stopped => by cases stopped.1)
      exact absurd member (List.count_eq_zero.mp untold)
    rw [told, List.countP_append, List.countP_append, countP_workers, countP_workers, others,
      recorded.lost, ← countP_isLost dead, ← length_filter_range, recorded.size]
    simp

/-! ## The end of a start that fails -/

/-- The workers of a closed pool that has nothing to do stop one after the other. -/
theorem performAll_stops (connections : List γ) (done : Nat) (shut : p.isOpen = false)
    (waiting : p.waiting = []) (queue : p.queue = [])
    (workers : p.workers = List.replicate done .stopped ++ connections.map .idle) :
    p.performAll b ((List.range' done connections.length).map .stop) =
      ⟨{ p with workers := List.replicate (done + connections.length) .stopped },
        (List.range' done connections.length).map .workerStopped⟩ := by
  induction connections generalizing p done with
  | nil =>
      have same : { p with workers := List.replicate done .stopped } = p := by
        have all : List.replicate done .stopped = p.workers := by rw [workers]; simp
        rw [all]
      exact (congrArg pure same).symm
  | cons connection connections ih =>
      have here : p.workers[done]? = some (.idle connection) := by
        rw [workers, List.getElem?_append_right (Nat.le_of_eq (List.length_replicate))]
        simp
      have next : (p.workers.set done .stopped) =
          List.replicate (done + 1) .stopped ++ connections.map .idle := by
        rw [workers, List.set_append_right _ _ (Nat.le_of_eq (List.length_replicate))]
        simp [List.replicate_succ']
      have stops :
          p.perform b (.stop done) = ⟨p.setWorker done .stopped, [.workerStopped done]⟩ := by
        unfold perform act? stop?
        dsimp only
        rw [here, shut, waiting, queue]
        rfl
      have rest := ih (p := p.setWorker done .stopped) (done + 1) shut waiting queue next
      have first : p.performAll b ((List.range' done (connections.length + 1)).map .stop) =
          p.perform b (.stop done) >>= fun p =>
            p.performAll b ((List.range' (done + 1) connections.length).map .stop) := rfl
      have length : done + (connections.length + 1) = done + 1 + connections.length := by omega
      rw [List.length_cons, first, stops, length]
      exact Logged.bind_congr_value (g := fun _ => ⟨_, _⟩) rest

/-- A closed pool whose workers have never had a job is shut down by stopping each of them. -/
theorem shutDown_idle (connections : List γ) (depth : Nat) (shared : Shared) (store : σ) :
    ({ depth, workers := connections.map .idle, shared, store, isOpen := false } :
        Pool σ γ).shutDown b =
      ⟨{ depth, workers := List.replicate connections.length .stopped, shared, store,
          isOpen := false }, (List.range connections.length).map .workerStopped⟩ := by
  have stops := performAll_stops (b := b) connections 0
    (p := { depth, workers := connections.map .idle, shared, store, isOpen := false }) rfl rfl rfl
    rfl
  rw [Nat.zero_add, ← List.range_eq_range'] at stops
  have down : ({ depth, workers := connections.map .idle, shared, store, isOpen := false } :
      Pool σ γ).shutDown b = ({ depth, workers := connections.map .idle, shared, store
                                isOpen := false } : Pool σ γ).performAll b
        ((List.range (connections.map (Worker.idle (γ := γ))).length).map .stop) := rfl
  rw [down, List.length_map, stops]

/-- A start that is refused discharges the workers that it has started. -/
theorem discharged_of_refused {size depth i : Nat} {shared : Shared} {s : σ} {cause : StoreError}
    (discreet : b.Discreet) (events : (Pool.start b size depth shared s).events =
      startLog b i 0 s ++ b.attemptLog i s ++ [.workerFailed i (.store cause)] ++
        (List.range i).map .workerStopped) :
    Discharged i (Pool.start b size depth shared s).events [] := by
  have told : fates (Pool.start b size depth shared s).events =
      (List.range i).map (.started, ·) ++ (List.range i).map (.stopped, ·) := by
    have attempt : fates (b.attemptLog i s) = [] := discreet.connect _
    rw [events, fates_append, fates_append, fates_append, fates_startLog discreet, attempt,
      fates_map _ (fun _ => rfl)]
    simp [fates, Event.fate?]
  refine ⟨?_, ?_, List.nodup_nil, ?_⟩
  · intro w
    rw [told, List.count_append, count_all_workers, count_all_workers]
    simp
  · intro w
    rw [told]
    simp only [List.count_append, count_all_workers]
    simp
  · rw [told, List.countP_append, countP_workers, countP_workers]
    rfl

/-! ## From the start to the end -/

/-- How a pool of `n` workers comes to its end from a moment of its life on. -/
structure WindsUp (b : Backend σ γ) (n : Nat) (opening : List Event) (start : Pool σ γ)
    (log : List Event) (broken : List Nat) (p : Pool σ γ) : Prop where
  /-- As long as a closed pool has a worker left, something can happen of the pool's own. -/
  goes : p.isOpen = false → p.isAlive = true →
    ∃ (a : Action) (change : Logged (Pool σ γ)), a.isOwn = true ∧ p.act? b a = some change
  /-- Whatever happens of the pool's own brings the end nearer. -/
  nearer : ∀ (a : Action) (change : Logged (Pool σ γ)), a.isOwn = true →
    p.act? b a = some change → change.value.remaining < p.remaining
  /-- When no worker is left, the whole log accounts for all workers. -/
  ended : p.isAlive = false →
    Discharged n (opening ++ log ++ (p.losses ++ [.workersStopped])) broken
  /-- Joining the pool between two operations leaves no worker. -/
  joined : p.Unoccupied → (p.join b).value.isAlive = false ∧ ∃ (happened : List Event)
    (more : List Nat), Chronicle b start (log ++ happened) (broken ++ more) (p.join b).value ∧
      (p.join b).events = happened ++ ((p.join b).value.losses ++ [.workersStopped]) ∧
      Discharged n (opening ++ log ++ (p.join b).events) (broken ++ more)

/-- From every moment of its life a pool can be wound up. -/
theorem Chronicle.windsUp (chronicle : Chronicle b start log broken p) (discreet : b.Discreet)
    (begins : Recorded n [] [] start) {opening : List Event}
    (opened : fates opening = (List.range n).map (.started, ·)) :
    WindsUp b n opening start log broken p := by
  have recorded := chronicle.recorded discreet begins
  refine {
    goes := fun shut alive => Pool.goes recorded.dead recorded.room shut alive b
    nearer := fun a change own happens => (change_of_act? happens).nearer recorded.intact own
    ended := fun dead => recorded.discharged dead opened
    joined := ?_ }
  intro free
  have dead := shutDown_ends recorded.dead recorded.room free b
  obtain ⟨more, down⟩ := chronicle.shutDown
  have discharged := (down.recorded discreet begins).discharged dead opened
  rw [join_eq]
  refine ⟨dead, (p.shutDown b).events, more, down, rfl, ?_⟩
  rwa [← List.append_assoc, ← List.append_assoc] at discharged ⊢

/-- What becomes of the workers of a pool, from the first attempt to start it on. -/
structure Released (b : Backend σ γ) (size depth : Nat) (shared : Shared) (s : σ) : Prop where
  /-- A pool starts if it is to have workers and room for jobs and no worker is refused a
  connection, and only then. -/
  starts : (∃ p s', (Pool.start b size depth shared s).value = (.ok p, s')) ↔
    0 < size ∧ 0 < depth ∧ ∀ i < size, ∃ connection, b.attempt i s = .ok connection
  /-- The first refusal is the last attempt. The workers before it are stopped as a closed pool of
  theirs would be, which leaves the cache, the counters and the store alone. -/
  refused : ∀ (i : Nat) (cause : StoreError), i < size → 0 < depth →
    (∀ j < i, ∃ connection, b.attempt j s = .ok connection) → b.attempt i s = .error cause →
      ∃ connections : List γ,
        let left : Pool σ γ := { depth, workers := connections.map .idle, shared
                                 store := b.tried (i + 1) s, isOpen := false }
        connectAll b i 0 s = ⟨(.ok connections, b.tried i s), startLog b i 0 s⟩ ∧
        (Pool.start b size depth shared s).value =
          (.error (.refused (.store cause)), b.tried (i + 1) s) ∧
        (Pool.start b size depth shared s).events = startLog b i 0 s ++ b.attemptLog i s ++
          [.workerFailed i (.store cause)] ++ (left.shutDown b).events ∧
        (left.shutDown b).value = { left with workers := List.replicate i .stopped }
  /-- The log of a start that fails accounts for all workers that have started. -/
  failed : ∀ (cause : StartError) (s' : σ),
    (Pool.start b size depth shared s).value = (.error cause, s') →
      ∃ i ≤ size, Discharged i (Pool.start b size depth shared s).events []
  /-- What an attempt to connect leaves alone, a start leaves alone. -/
  untouched : ∀ {α : Type} (look : σ → α), (∀ s, look (b.connect s).value.2 = look s) →
    look (Pool.start b size depth shared s).value.2 = look s
  windsUp : ∀ {p : Pool σ γ} {s' : σ}, (Pool.start b size depth shared s).value = (.ok p, s') →
    ∀ {log : List Event} {broken : List Nat} {q : Pool σ γ}, Chronicle b p log broken q →
      WindsUp b size (Pool.start b size depth shared s).events p log broken q

/-- Whatever happens to a pool, none of its workers is leaked. -/
theorem no_worker_is_leaked {size depth capacity : Nat} {shared : Shared} (discreet : b.Discreet)
    (shallow : depth ≤ maxDepth) (reachable : Cache.Reachable capacity shared.cache) (s : σ) :
    Released b size depth shared s := by
  have sized : ∀ {p : Pool σ γ} {s' : σ},
      (Pool.start b size depth shared s).value = (.ok p, s') →
        fates (Pool.start b size depth shared s).events = (List.range size).map (.started, ·) := by
    intro p s' started
    obtain ⟨some, room, opened⟩ := (starts_iff shallow shared s).mp ⟨p, s', started⟩
    obtain ⟨connections, -, starts⟩ := start_opened some room shallow opened shared
    rw [starts, fates_append, fates_startLog discreet]
    simp [fates, Event.fate?]
  refine {
    starts := starts_iff shallow shared s
    refused := ?_
    failed := ?_
    untouched := ?_
    windsUp := ?_ }
  · intro i cause inside room opened refused
    obtain ⟨connections, length, connected⟩ := connectAll_opened 0 opened
    have fails := start_refused room shallow inside opened refused shared
    have stops := shutDown_idle (b := b) connections depth shared (b.tried (i + 1) s)
    rw [length] at stops
    refine ⟨connections, connected, congrArg Logged.value fails, ?_, congrArg Logged.value stops⟩
    rw [stops]
    exact congrArg Logged.events fails
  · intro cause s' fails
    rcases start_cases b size depth shared s with
      ⟨_, nothing⟩ | ⟨some, room, opened⟩ | ⟨room, i, inside, _, opened, refused⟩
    · rw [nothing]
      exact ⟨0, Nat.zero_le _, fun _ => rfl, fun _ => rfl, List.nodup_nil, rfl⟩
    · obtain ⟨_, -, starts⟩ := start_opened some room shallow opened shared
      rw [starts] at fails
      cases fails
    · have events := congrArg Logged.events
        (start_refused room shallow inside opened refused shared)
      exact ⟨i, Nat.le_of_lt inside, discharged_of_refused discreet events⟩
  · intro α look leaves
    rcases start_cases b size depth shared s with
      ⟨_, nothing⟩ | ⟨some, room, opened⟩ | ⟨room, i, inside, _, opened, refused⟩
    · rw [nothing]
      rfl
    · obtain ⟨_, -, starts⟩ := start_opened some room shallow opened shared
      rw [starts]
      exact b.tried_untouched look leaves size s
    · rw [start_refused room shallow inside opened refused]
      exact b.tried_untouched look leaves (i + 1) s
  · intro p s' started log broken q chronicle
    have begins : Recorded size [] [] p := .of_start reachable.intact.1 started
    exact chronicle.windsUp discreet begins (sized started)

/-- Two workers serve three operations together, and the store breaks down under one of them. Of
three other workers, the second is refused its connection. -/
theorem no_worker_is_leaked_after_loss :
    let crash : FaultRule := { verb := .get, key := some "b", fault := .crash "lost" }
    let fresh : Faulty Table := { store := {}, rules := [crash] }
    let crowded : Faulty Table := { store := {}, limit := some 1 }
    let start : Pool (Faulty Table) Unit := {
      depth := 1, workers := [.idle (), .idle ()], shared := .fresh 2
      store := { fresh with attempts := 2 } }
    let opening := (Pool.start Memory.backend.faulty 2 1 (.fresh 2) fresh).events
    let served := start.serveAll Memory.backend.faulty
      [.write "a" (some "1"), .read "b", .read "a"]
    let joined := served.value.2.join Memory.backend.faulty
    let refused := (Pool.start Memory.backend.faulty 3 1 (.fresh 2) crowded).events
    Memory.backend.faulty.Discreet ∧ 1 ≤ maxDepth ∧ Cache.Reachable 2 (Shared.fresh 2).cache ∧
      (Pool.start Memory.backend.faulty 2 1 (.fresh 2) fresh).value = (.ok start, start.store) ∧
      fates opening = [(.started, 0), (.started, 1)] ∧
      fates joined.events = [(.stopped, 0), (.panicked, 1)] ∧
      (∃ broken, Discharged 2 (opening ++ served.events ++ joined.events) broken) ∧
      fates refused = [(.started, 0), (.stopped, 0)] ∧ ∃ i ≤ 3, Discharged i refused [] := by
  intro crash fresh crowded start opening served joined refused
  have discreet : Memory.backend.faulty.Discreet := Memory.discreet.faulty
  have shallow : 1 ≤ maxDepth := by decide
  have reachable : Cache.Reachable 2 (Shared.fresh 2).cache := .new rfl
  have started : (Pool.start Memory.backend.faulty 2 1 (.fresh 2) fresh).value =
      (.ok start, start.store) := rfl
  have free : served.value.2.Unoccupied := by
    unfold Unoccupied
    decide +kernel
  have opened : fates opening = [(.started, 0), (.started, 1)] := by decide +kernel
  have ended : fates joined.events = [(.stopped, 0), (.panicked, 1)] := by decide +kernel
  have told : fates refused = [(.started, 0), (.stopped, 0)] := by decide +kernel
  have released : Released Memory.backend.faulty 2 1 (.fresh 2) fresh :=
    no_worker_is_leaked discreet shallow reachable fresh
  have crowds : Released Memory.backend.faulty 3 1 (.fresh 2) crowded :=
    no_worker_is_leaked discreet shallow reachable crowded
  have begins : Chronicle Memory.backend.faulty start [] [] start := .start
  obtain ⟨_, batch⟩ := begins.serveAll [.write "a" (some "1"), .read "b", .read "a"]
  rw [List.nil_append] at batch
  have winds := released.windsUp started batch
  have discharged : ∃ broken, Discharged 2 (opening ++ served.events ++ joined.events) broken := by
    obtain ⟨-, _, _, -, -, discharged⟩ := winds.joined free
    exact ⟨_, discharged⟩
  have failed : ∃ i ≤ 3, Discharged i refused [] :=
    crowds.failed (.refused (.store (.connection "too many connections")))
      { crowded with attempts := 2 } rfl
  exact ⟨discreet, shallow, reachable, started, opened, ended, discharged, told, failed⟩

end Pool

end CacheAside
