import CacheAside.Pool.Start
import CacheAside.Redis.Session
import CacheAside.Store.Faults
import CacheAside.Store.Memory

/-!
# Opening a pool

`Backend.attempt b i s` is what attempt `i` to connect comes to if every attempt before it has been
made, and `Backend.tried` what the store is by then. A pool starts exactly if it is to have a worker
and room for a job and none of its attempts is refused (`Pool.starts_iff`). The first refusal ends
the start (`Pool.start_refused`): no attempt follows it, and the workers that have started are
stopped.
-/

namespace CacheAside

/-! ## What a log says of the workers -/

/-- What a log can say of a worker. -/
inductive Fate
  | started
  /-- It has ended and given its connection back. -/
  | stopped
  | panicked
  deriving DecidableEq, Repr

/-- The worker that an event is about, and what has become of it. -/
def Event.fate? : Event → Option (Fate × Nat)
  | .workerStarted w => some (.started, w)
  | .workerStopped w => some (.stopped, w)
  | .workerPanicked w => some (.panicked, w)
  | _ => none

/-- All that a log says of the workers, the oldest first. -/
def fates (log : List Event) : List (Fate × Nat) := log.filterMap Event.fate?

@[simp] theorem fates_append (log later : List Event) :
    fates (log ++ later) = fates log ++ fates later := List.filterMap_append

theorem fates_map (f : Nat → Event) {fate : Fate} (tells : ∀ w, (f w).fate? = some (fate, w))
    (workers : List Nat) : fates (workers.map f) = workers.map (fate, ·) := by
  unfold fates
  rw [List.filterMap_map, ← List.filterMap_eq_map]
  exact congrArg (List.filterMap · workers) (funext tells)

/-- A loop reports what its rounds report. -/
theorem Logged.events_forM {α : Type} (f : α → Logged Unit) (xs : List α) :
    (xs.forM f).events = xs.flatMap fun x => (f x).events := by
  induction xs with
  | nil => rfl
  | cons x xs ih =>
      have first : (x :: xs).forM f = f x >>= fun _ => xs.forM f := rfl
      rw [first, Logged.events_bind, ih, List.flatMap_cons]

theorem Logged.events_forM_report (f : Nat → Event) (workers : List Nat) :
    (workers.forM fun w => report (f w)).events = workers.map f := by
  rw [Logged.events_forM]
  exact (List.map_eq_flatMap ..).symm

namespace Backend

variable {σ γ : Type}

/-- A backend does not know the workers, so it says nothing of them. -/
structure Discreet (b : Backend σ γ) : Prop where
  connect : ∀ s, fates (b.connect s).events = []
  call : ∀ r c s, fates (b.call r c s).events = []

namespace Discreet

variable {b : Backend σ γ}

theorem faulty (discreet : b.Discreet) : b.faulty.Discreet where
  connect s := by
    unfold Backend.faulty
    dsimp only
    split
    · rfl
    · simp only [Logged.events_bind, Logged.events_pure, List.append_nil]
      exact discreet.connect s.store
  call r c s := by
    unfold Backend.faulty
    dsimp only
    split
    · rfl
    · simp only [Logged.events_bind, Logged.events_pure, List.append_nil]
      exact discreet.call r c s.store

theorem reopen (discreet : b.Discreet) (s : σ) : fates (b.reopen s).events = [] := by
  unfold Backend.reopen
  rw [Logged.events_bind, fates_append, discreet.connect]
  rcases (b.connect s).value with ⟨_ | _, _⟩ <;> rfl

theorem replace (discreet : b.Discreet) (cause : StoreError) (s : σ) :
    fates (b.replace cause s).events = [] := by
  unfold Backend.replace
  rw [Logged.events_bind, fates_append, Logged.events_bind, fates_append, discreet.reopen]
  rcases (b.reopen s).value with ⟨_ | _, _⟩ <;> rfl

theorem callOpen (discreet : b.Discreet) (isFresh : Bool) (r : Request) (session : γ) (s : σ) :
    fates (b.callOpen isFresh r session s).events = [] := by
  unfold Backend.callOpen
  rw [Logged.events_bind, fates_append, discreet.call, List.nil_append]
  rcases (b.call r session s).value with ⟨_ | cause | _, session, s⟩
  · rfl
  · dsimp only
    split
    · rfl
    · split
      · rfl
      · rw [Logged.events_bind, fates_append, discreet.replace]
        rfl
  · rfl

/-- The reconnecting wrapper of a discreet backend is discreet. -/
theorem reconnecting (discreet : b.Discreet) : b.reconnecting.Discreet where
  connect s := by
    unfold Backend.reconnecting
    rw [Logged.events_bind, fates_append, discreet.connect]
    rfl
  call r c s := by
    cases c with
    | some session => exact discreet.callOpen false r session s
    | none =>
        unfold Backend.reconnecting
        dsimp only
        rw [Logged.events_bind, fates_append, Logged.events_bind, fates_append, discreet.reopen]
        rcases (b.reopen s).value with ⟨cause | session, s⟩
        · rfl
        · exact discreet.callOpen true r session s

end Discreet

/-- What the store is when `n` attempts to connect have been made. -/
def tried (b : Backend σ γ) : Nat → σ → σ
  | 0, s => s
  | n + 1, s => b.tried n (b.connect s).value.2

/-- What the attempt comes to before which there are `n` others. -/
def attempt (b : Backend σ γ) (n : Nat) (s : σ) : Except StoreError γ :=
  (b.connect (b.tried n s)).value.1

/-- What that attempt reports. -/
def attemptLog (b : Backend σ γ) (n : Nat) (s : σ) : List Event :=
  (b.connect (b.tried n s)).events

/-- What is left alone by one attempt is left alone by any number of them. -/
theorem tried_untouched {α : Type} {b : Backend σ γ} (look : σ → α)
    (leaves : ∀ s, look (b.connect s).value.2 = look s) (n : Nat) (s : σ) :
    look (b.tried n s) = look s := by
  induction n generalizing s with
  | zero => rfl
  | succ n ih => exact (ih _).trans (leaves s)

end Backend

/-- The table in memory reports nothing at all. -/
theorem Memory.discreet : Memory.backend.Discreet := ⟨fun _ => rfl, fun _ _ _ => rfl⟩

/-- A Redis store reports on its sessions, and on no worker. -/
theorem Redis.discreet {σ κ : Type} (t : Redis.Transport σ κ) (a : Redis.Address)
    (table : String) : (Redis.backend t a table).Discreet := by
  have sessions : (Redis.sessions t a table).Discreet := by
    refine ⟨fun s => ?_, fun r session s => ?_⟩
    · unfold Redis.sessions
      dsimp only
      split <;> rfl
    · unfold Redis.sessions
      dsimp only
      split <;> rfl
  refine ⟨fun s => ?_, sessions.reconnecting.call⟩
  unfold Redis.backend
  rw [Logged.events_bind, fates_append, sessions.reconnecting.connect]
  dsimp only
  split <;> rfl

namespace Pool

variable {σ γ : Type} {b : Backend σ γ}

/-! ## The connections -/

/-- What the first `n` workers report that get a connection; the first of them is worker `w`. -/
def startLog (b : Backend σ γ) (n w : Nat) (s : σ) : List Event :=
  (List.range n).flatMap fun i => b.attemptLog i s ++ [.workerStarted (w + i)]

theorem startLog_succ (b : Backend σ γ) (n w : Nat) (s : σ) :
    startLog b (n + 1) w s = (b.connect s).events ++ [.workerStarted w] ++
      startLog b n (w + 1) (b.connect s).value.2 := by
  unfold startLog
  rw [List.range_succ_eq_map, List.flatMap_cons, List.flatMap_map]
  refine congrArg _ (congrArg (List.flatMap · (List.range n)) (funext fun i => ?_))
  have next : w + 1 + i = w + (i + 1) := by omega
  rw [next]
  rfl

/-- If no attempt is refused, every worker gets its connection. -/
theorem connectAll_opened {n : Nat} (w : Nat) {s : σ}
    (opened : ∀ i < n, ∃ connection, b.attempt i s = .ok connection) :
    ∃ connections : List γ, connections.length = n ∧
      connectAll b n w s = ⟨(.ok connections, b.tried n s), startLog b n w s⟩ := by
  induction n generalizing w s with
  | zero => exact ⟨[], rfl, rfl⟩
  | succ n ih =>
      obtain ⟨connection, first⟩ := opened 0 (Nat.succ_pos n)
      have later : ∀ i < n, ∃ connection, b.attempt i (b.connect s).value.2 = .ok connection :=
        fun i inside => opened (i + 1) (Nat.succ_lt_succ inside)
      obtain ⟨connections, size, rest⟩ := ih (w + 1) later
      refine ⟨connection :: connections, congrArg Nat.succ size, ?_⟩
      rw [startLog_succ, Backend.tried]
      obtain ⟨t, connected⟩ : ∃ t, (b.connect s).value = (.ok connection, t) :=
        ⟨_, Prod.ext first rfl⟩
      rw [connected] at rest ⊢
      refine Logged.ext ?_ ?_
      · simp only [connectAll, Logged.value_bind, connected, rest, Logged.value_pure]
        rfl
      · simp only [connectAll, Logged.events_bind, connected, rest, Logged.events_pure,
          Logged.events_report, List.append_nil, List.append_assoc]

/-- The first refusal ends it: the workers that have started are stopped. -/
theorem connectAll_refused {n i : Nat} (w : Nat) {s : σ} {cause : StoreError} (inside : i < n)
    (opened : ∀ j < i, ∃ connection, b.attempt j s = .ok connection)
    (refused : b.attempt i s = .error cause) :
    connectAll b n w s = ⟨(.error cause, b.tried (i + 1) s), startLog b i w s ++
      b.attemptLog i s ++ [.workerFailed (w + i) (.store cause)] ++
        (List.range (w + i)).map .workerStopped⟩ := by
  induction i generalizing n w s with
  | zero =>
      obtain ⟨n, rfl⟩ := Nat.exists_eq_succ_of_ne_zero (Nat.ne_of_gt inside)
      obtain ⟨t, connected⟩ : ∃ t, (b.connect s).value = (.error cause, t) :=
        ⟨_, Prod.ext refused rfl⟩
      refine Logged.ext ?_ ?_
      · simp only [connectAll, Logged.value_bind, Logged.value_pure, Backend.tried, connected]
      · simp only [connectAll, Logged.events_bind, connected, Logged.events_report,
          Logged.events_forM_report, Logged.events_pure, List.append_nil, ← List.append_assoc]
        rfl
  | succ i ih =>
      obtain ⟨n, rfl⟩ := Nat.exists_eq_succ_of_ne_zero (Nat.ne_of_gt (Nat.zero_lt_of_lt inside))
      obtain ⟨connection, first⟩ := opened 0 (Nat.succ_pos i)
      have later : ∀ j < i, ∃ connection, b.attempt j (b.connect s).value.2 = .ok connection :=
        fun j before => opened (j + 1) (Nat.succ_lt_succ before)
      have rest := ih (w + 1) (Nat.lt_of_succ_lt_succ inside) later refused
      have next : w + 1 + i = w + (i + 1) := by omega
      have log : b.attemptLog (i + 1) s = b.attemptLog i (b.connect s).value.2 := rfl
      rw [startLog_succ, ← next, log, Backend.tried]
      obtain ⟨t, connected⟩ : ∃ t, (b.connect s).value = (.ok connection, t) :=
        ⟨_, Prod.ext first rfl⟩
      rw [connected] at rest ⊢
      refine Logged.ext ?_ ?_
      · simp only [connectAll, Logged.value_bind, connected, rest, Logged.value_pure]
        rfl
      · simp only [connectAll, Logged.events_bind, connected, rest, Logged.events_pure,
          Logged.events_report, List.append_nil, List.append_assoc]

/-- The attempts go on to the end or to the first refusal. -/
theorem attempts_cases (b : Backend σ γ) (n : Nat) (s : σ) :
    (∀ i < n, ∃ connection, b.attempt i s = .ok connection) ∨
      ∃ i < n, ∃ cause, (∀ j < i, ∃ connection, b.attempt j s = .ok connection) ∧
        b.attempt i s = .error cause := by
  induction n with
  | zero => exact .inl nofun
  | succ n ih =>
      rcases ih with opened | ⟨i, inside, refused⟩
      · cases last : b.attempt n s with
        | ok connection =>
            refine .inl fun i inside => ?_
            rcases Nat.lt_succ_iff_lt_or_eq.mp inside with before | rfl
            · exact opened i before
            · exact ⟨connection, last⟩
        | error cause => exact .inr ⟨n, Nat.lt_succ_self n, cause, opened, last⟩
      · exact .inr ⟨i, Nat.lt_succ_of_lt inside, refused⟩

/-! ## The start -/

variable {size depth : Nat}

/-- If no attempt is refused, the pool starts with idle workers. -/
theorem start_opened {s : σ} (some : 0 < size) (room : 0 < depth) (shallow : depth ≤ maxDepth)
    (opened : ∀ i < size, ∃ connection, b.attempt i s = .ok connection) (shared : Shared) :
    ∃ connections : List γ, connections.length = size ∧ start b size depth shared s =
      ⟨(.ok { depth, workers := connections.map .idle, shared, store := b.tried size s },
        b.tried size s), startLog b size 0 s ++ [.workersStarted size b.describe depth]⟩ := by
  obtain ⟨connections, length, connected⟩ := connectAll_opened 0 opened
  have sized : ¬ (size = 0 ∨ depth = 0) := by omega
  refine ⟨connections, length, ?_⟩
  unfold start
  rw [if_neg sized, if_neg (Nat.not_lt.mpr shallow), connected]
  rfl

/-- A start that fails for want of a connection makes no attempt after the one that was refused. -/
theorem start_refused {i : Nat} {s : σ} {cause : StoreError} (room : 0 < depth)
    (shallow : depth ≤ maxDepth) (inside : i < size)
    (opened : ∀ j < i, ∃ connection, b.attempt j s = .ok connection)
    (refused : b.attempt i s = .error cause) (shared : Shared) :
    start b size depth shared s =
      ⟨(.error (.refused (.store cause)), b.tried (i + 1) s), startLog b i 0 s ++
        b.attemptLog i s ++ [.workerFailed i (.store cause)] ++
          (List.range i).map .workerStopped⟩ := by
  have connected := connectAll_refused 0 inside opened refused
  have sized : ¬ (size = 0 ∨ depth = 0) := by omega
  unfold start
  rw [Nat.zero_add] at connected
  rw [if_neg sized, if_neg (Nat.not_lt.mpr shallow), connected]
  exact Logged.ext rfl (List.append_nil _)

/-- A start either attempts nothing, or gets all its connections, or meets a refusal. -/
theorem start_cases (b : Backend σ γ) (size depth : Nat) (shared : Shared) (s : σ) :
    (∃ cause, start b size depth shared s = pure (.error cause, s)) ∨
      (0 < size ∧ 0 < depth ∧ ∀ i < size, ∃ connection, b.attempt i s = .ok connection) ∨
      0 < depth ∧ ∃ i < size, ∃ cause, (∀ j < i, ∃ connection, b.attempt j s = .ok connection) ∧
        b.attempt i s = .error cause := by
  by_cases none : size = 0 ∨ depth = 0
  · exact .inl ⟨_, if_pos none⟩
  · have some : 0 < size := by omega
    have room : 0 < depth := by omega
    rcases attempts_cases b size s with opened | refused
    · exact .inr (.inl ⟨some, room, opened⟩)
    · exact .inr (.inr ⟨room, refused⟩)

/-- A pool starts if there is to be one and all its workers get a connection, and only then. -/
theorem starts_iff (shallow : depth ≤ maxDepth) (shared : Shared) (s : σ) :
    (∃ p s', (start b size depth shared s).value = (.ok p, s')) ↔
      0 < size ∧ 0 < depth ∧ ∀ i < size, ∃ connection, b.attempt i s = .ok connection := by
  constructor
  · rintro ⟨p, s', started⟩
    rcases start_cases b size depth shared s with
      ⟨cause, fails⟩ | opened | ⟨room, i, inside, cause, opened, refused⟩
    · rw [fails] at started
      cases started
    · exact opened
    · rw [start_refused room shallow inside opened refused] at started
      cases started
  · rintro ⟨some, room, opened⟩
    obtain ⟨connections, -, started⟩ := start_opened some room shallow opened shared
    exact ⟨_, _, congrArg Logged.value started⟩

/-! ## What the log of a start says -/

/-- The log of the start tells each worker once, in order. -/
theorem fates_startLog (discreet : b.Discreet) (n w : Nat) (s : σ) :
    fates (startLog b n w s) = (List.range n).map fun i => (.started, w + i) := by
  unfold startLog fates
  rw [List.filterMap_flatMap, List.map_eq_flatMap]
  refine congrArg (List.flatMap · (List.range n)) (funext fun i => ?_)
  have quiet : (b.attemptLog i s).filterMap Event.fate? = [] := discreet.connect _
  rw [List.filterMap_append, quiet]
  rfl

end Pool

end CacheAside
