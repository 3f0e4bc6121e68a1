import CacheAside.Proofs.Server.Lifecycle

/-!
# Settings that a server cannot run with

The checks on a configuration let through settings that are too large. A queue has a greatest depth,
which is met when the workers are brought up; a clock has a last reading, and a reporter whose first
report lies beyond it ends at once. `Server.start_runs_iff` says which of the configurations that
pass the checks run, and which reporters do.
-/

namespace CacheAside

variable {σ γ : Type}

/-- No connection is ever refused. -/
def Backend.Accepts (b : Backend σ γ) : Prop :=
  ∀ s, ∃ connection s', (b.connect s).value = (.ok connection, s')

/-- The checks ask only that no number is zero. -/
theorem Config.validate_eq_ok_iff {c : Config} :
    c.validate = .ok () ↔ c.capacity ≠ 0 ∧ c.workers ≠ 0 ∧ c.queueDepth ≠ 0 := by
  unfold validate
  split
  · simp_all
  · split
    · simp_all
    · split <;> simp_all

/-! ## The queue -/

namespace Pool

variable {b : Backend σ γ}

theorem connectAll_of_accepts (accepts : b.Accepts) (n w : Nat) (s : σ) :
    ∃ connections s', (connectAll b n w s).value = (.ok connections, s') := by
  induction n generalizing w s with
  | zero => exact ⟨[], s, rfl⟩
  | succ n ih =>
      obtain ⟨connection, s', connected⟩ := accepts s
      obtain ⟨others, s'', rest⟩ := ih (w + 1) s'
      refine ⟨connection :: others, s'', ?_⟩
      simp only [connectAll, Logged.value_bind, connected, rest, Logged.value_pure]
      rfl

/-- If connections are there, a pool with a worker and room for a job starts unless its queue is too
deep. -/
theorem start_of_accepts (accepts : b.Accepts) {size depth : Nat} (some : size ≠ 0)
    (room : depth ≠ 0) (shared : Shared) (s : σ) :
    (depth ≤ maxDepth → ∃ p, (Pool.start b size depth shared s).value.1 = .ok p) ∧
      (maxDepth < depth → (Pool.start b size depth shared s).value = (.error .tooDeep, s)) := by
  have sized : ¬ (size = 0 ∨ depth = 0) := by omega
  unfold Pool.start
  rw [if_neg sized]
  constructor
  · intro few
    obtain ⟨connections, s', opened⟩ := connectAll_of_accepts accepts size 0 s
    rw [if_neg (Nat.not_lt.mpr few)]
    simp only [Logged.value_bind, opened, Logged.value_pure]
    exact ⟨_, rfl⟩
  · intro deep
    rw [if_pos deep]
    rfl

end Pool

/-! ## The clock -/

namespace Reporter

/-- Time alone neither ends a reporter nor brings it back. -/
theorem isFinished_sleep (r : Reporter) (ms : Nat) (counters : Counters) :
    (r.sleep ms counters).value.isFinished = r.isFinished := by
  unfold sleep
  dsimp only
  split <;> rfl

end Reporter

/-- Whether the reporter of an instance has ended, if there is one. -/
def Instance.reporterEnded? (i : Instance σ γ) : Option Bool := i.reporter.map Reporter.isFinished

namespace Server

variable {s : Server σ γ}

/-- The reporter that a configuration asks for has ended at once if its first report lies beyond the
last reading of the clock. -/
theorem reporter_start (c : Config) (now : Nat) :
    (startReporter c now).value.map Reporter.isFinished =
      if c.statsInterval = 0 then none
      else some (decide (Reporter.clockEnd ≤ now / 1000 + c.statsInterval.toNat)) := by
  unfold startReporter
  by_cases none : c.statsInterval = 0
  · rw [if_pos none, if_pos none]
    rfl
  · have positive : c.statsInterval.toNat ≠ 0 := fun zero => none (UInt64.toNat_inj.mp zero)
    have seconds : Reporter.seconds c.statsInterval.toNat = c.statsInterval.toNat :=
      Nat.max_eq_left (Nat.one_le_iff_ne_zero.mpr positive)
    have started : (some <$> Reporter.start c.statsInterval.toNat now).value =
        some (Reporter.start c.statsInterval.toNat now).value := rfl
    rw [if_neg none, if_neg none, started, Option.map_some, Reporter.start]
    dsimp only [Logged.value_bind, Logged.value_pure]
    rw [seconds]

/-- No call but stopping the server ends its reporter or brings it back. -/
theorem reporterEnded_obey {i : Instance σ γ} (state : s.state = .running)
    (present : s.running = some i) {call : Call σ} (other : call ≠ .stop) :
    ∃ i', (s.obey call).running = some i' ∧ i'.reporterEnded? = i.reporterEnded? := by
  cases call with
  | start binding now task =>
      have refused : (s.start binding now task).value.2 = s := by
        unfold start
        rw [if_pos (by simp [state])]
        rfl
      exact ⟨i, (congrArg Server.running refused).trans present, rfl⟩
  | stop => exact absurd rfl other
  | trigger => exact ⟨i, present, rfl⟩
  | exchange link now r =>
      simp only [obey, exchange, present]
      cases link with
      | up => exact ⟨_, rfl, rfl⟩
      | down => exact ⟨i, present, rfl⟩
  | elapse ms =>
      simp only [obey, elapse, present]
      refine ⟨_, rfl, ?_⟩
      rcases i with ⟨address, pool, _ | r⟩
      · rfl
      · exact congrArg some (r.isFinished_sleep ms _)
  | modifyStore change =>
      simp only [obey, modifyStore, present]
      exact ⟨_, rfl, rfl⟩

theorem reporterEnded_obeyAll {i : Instance σ γ} (state : s.state = .running)
    (present : s.running = some i) {calls : List (Call σ)} (others : .stop ∉ calls) :
    ∃ i', (s.obeyAll calls).running = some i' ∧ i'.reporterEnded? = i.reporterEnded? := by
  induction calls generalizing s i with
  | nil => exact ⟨i, present, rfl⟩
  | cons call calls ih =>
      have other : call ≠ .stop := fun same => others (same ▸ List.mem_cons_self)
      have later : .stop ∉ calls := fun member => others (List.mem_cons_of_mem _ member)
      obtain ⟨i', here, same⟩ := reporterEnded_obey state present other
      have alone : .stop ∉ [call] := fun same => other (List.mem_singleton.mp same).symm
      have still : (s.obey call).state = .running := (keeps_running state alone).1
      obtain ⟨i'', there, same'⟩ := ih still here later
      exact ⟨i'', there, same'.trans same⟩

/-! ## The server -/

/-- Where the server itself and the listener stand in no way, it depends on the workers. -/
theorem start_eq_launch (stopped : s.state = .stopped) (valid : s.config.validate = .ok ())
    (untriggered : s.isTriggered = false) (port : UInt16) (now task : Nat) :
    s.start (.ok port) now task = s.launch { s.config with port }.listenAddress now task := by
  unfold start
  rw [if_neg (not_not_intro stopped), valid]
  dsimp only
  rw [if_neg (Bool.eq_false_iff.mp untriggered)]

/-- A pool that comes up runs with a fresh reporter. -/
theorem launch_running {pool : Pool σ γ} (up : s.bringUp.1 = .ok pool)
    (address : Net.SocketAddress) (now task : Nat) :
    ∃ i, (s.launch address now task).value =
        (.ok address, { s with state := .running, running := some i }) ∧
      i.reporter = (startReporter s.config now).value := by
  have started : (Pool.start s.backend s.config.workers.toNat s.config.queueDepth.toNat
      (.fresh s.config.capacity.toNat) s.store).value = (.ok pool, s.bringUp.2) := Prod.ext up rfl
  refine ⟨⟨address, pool, (startReporter s.config now).value⟩, ?_, rfl⟩
  simp only [launch, Logged.value_bind, started]
  rfl

/-- A queue that is too deep is reported as the panic of the task that makes it. -/
theorem launch_tooDeep (deep : s.bringUp = (.error .tooDeep, s.store))
    (address : Net.SocketAddress) (now task : Nat) :
    (s.launch address now task).value = (.error (startError task .tooDeep), s) := by
  unfold bringUp at deep
  simp only [launch, Logged.value_bind, deep]
  rfl

/-- Where the configuration passes the checks, the port is free, no connection is refused and
shutdown has not been requested, the server starts and runs exactly if its queue is not too deep for
a queue, and that is all that can keep it. Then it has a reporter exactly if it is to report at
intervals, and that reporter runs until the server is stopped, whatever else is done to the server
and however much time passes, exactly if its first report lies within the readings of the clock. A
queue that is too deep is reported as the panic of the task that was to make it, and the server
stays as it was. -/
theorem start_runs_iff (stopped : s.state = .stopped) (valid : s.config.validate = .ok ())
    (untriggered : s.isTriggered = false) (accepts : s.backend.Accepts) (port : UInt16)
    (now task : Nat) :
    let after := (s.start (.ok port) now task).value
    ((∃ address, after.1 = .ok address) ↔ s.config.queueDepth.toNat ≤ Pool.maxDepth) ∧
    (∀ address, after.1 = .ok address → ∀ calls, .stop ∉ calls →
      (after.2.obeyAll calls).state = .running ∧
        ∃ i, (after.2.obeyAll calls).running = some i ∧
          (i.reporter = none ↔ s.config.statsInterval = 0) ∧
          ∀ r, i.reporter = some r → (r.isFinished = false ↔
            now / 1000 + s.config.statsInterval.toNat < Reporter.clockEnd)) ∧
    ∀ e, after.1 = .error e →
      e = .spawn (panicked task Pool.StartError.tooDeep.message) ∧ after.2 = s := by
  intro after
  have launched : after = (s.launch { s.config with port }.listenAddress now task).value :=
    congrArg Logged.value (start_eq_launch stopped valid untriggered port now task)
  obtain ⟨-, workers, depth⟩ := Config.validate_eq_ok_iff.mp valid
  obtain ⟨comes, fails⟩ := Pool.start_of_accepts accepts
    (fun zero => workers (UInt64.toNat_inj.mp zero)) (fun zero => depth (UInt64.toNat_inj.mp zero))
    (.fresh s.config.capacity.toNat) s.store
  by_cases few : s.config.queueDepth.toNat ≤ Pool.maxDepth
  · obtain ⟨pool, up⟩ := comes few
    obtain ⟨i, running, reporter⟩ := launch_running up { s.config with port }.listenAddress now task
    rw [launched, running]
    refine ⟨⟨fun _ => few, fun _ => ⟨_, rfl⟩⟩, ?_, nofun⟩
    intro address _ calls others
    obtain ⟨i', present, ended⟩ :=
      reporterEnded_obeyAll (s := { s with state := .running, running := some i }) rfl rfl others
    refine ⟨(keeps_running rfl others).1, i', present, ?_⟩
    rw [Instance.reporterEnded?, Instance.reporterEnded?, reporter, reporter_start] at ended
    by_cases off : s.config.statsInterval = 0
    · rw [if_pos off, Option.map_eq_none_iff] at ended
      exact ⟨⟨fun _ => off, fun _ => ended⟩, fun r here => absurd (ended.symm.trans here) nofun⟩
    · rw [if_neg off, Option.map_eq_some_iff] at ended
      obtain ⟨r, here, finished⟩ := ended
      refine ⟨⟨fun absent => absurd (absent.symm.trans here) nofun, (absurd · off)⟩, ?_⟩
      intro r' there
      cases here.symm.trans there
      rw [finished, decide_eq_false_iff_not, Nat.not_le]
  · have deep : Pool.maxDepth < s.config.queueDepth.toNat := Nat.lt_of_not_le few
    rw [launched, launch_tooDeep (fails deep)]
    refine ⟨⟨nofun, fun small => absurd small few⟩, nofun, ?_⟩
    rintro _ ⟨⟩
    exact ⟨rfl, rfl⟩

theorem accepts_memory : Memory.backend.Accepts := fun s => ⟨(), s, rfl⟩

/-- With the default settings the server runs, and its reporter does until it is stopped. -/
theorem start_runs_by_default :
    let s := idle {} Memory.backend {}
    let after := (s.start (.ok 8080) 0 1).value
    s.state = .stopped ∧ s.config.validate = .ok () ∧ s.isTriggered = false ∧ s.backend.Accepts ∧
      (∃ address, after.1 = .ok address) ∧
      ∀ calls, .stop ∉ calls → ∃ i, (after.2.obeyAll calls).running = some i ∧
        i.reporter ≠ none ∧ ∀ r, i.reporter = some r → r.isFinished = false := by
  intro s after
  obtain ⟨starts, keeps, -⟩ := start_runs_iff (s := s) rfl rfl rfl accepts_memory 8080 0 1
  obtain ⟨address, ok⟩ := starts.mpr (by decide)
  refine ⟨rfl, rfl, rfl, accepts_memory, ⟨address, ok⟩, fun calls others => ?_⟩
  obtain ⟨-, i, present, asked, runs⟩ := keeps address ok calls others
  exact ⟨i, present, fun absent => absurd (asked.mp absent) (by decide),
    fun r here => (runs r here).mpr (by decide)⟩

/-- Two configurations that pass the checks. With the one the server does not start, as its queue is
too deep by one; with the other it starts, but its reporter has ended before it has reported. -/
theorem validate_admits_what_does_not_run :
    let deep : Config := { queueDepth := 0x2000000000000000 }
    let rare : Config := { statsInterval := 0xFFFFFFFFFFFFFFFF }
    let start (c : Config) := ((idle c Memory.backend {}).start (.ok 8080) 0 1).value
    deep.validate = .ok () ∧ rare.validate = .ok () ∧ Memory.backend.Accepts ∧
      (start deep).1 = .error (.spawn ("task 1 panicked with message \"a semaphore may not " ++
        "have more than MAX_PERMITS permits (2305843009213693951)\"")) ∧
      (start deep).2.state = .stopped ∧
      (start rare).1 = .ok (.v4 .unspecified 8080) ∧ (start rare).2.state = .running ∧
      ∃ i, (start rare).2.running = some i ∧ i.reporterEnded? = some true := by
  intro deep rare start
  exact ⟨rfl, rfl, accepts_memory, rfl, rfl, rfl, rfl, _, rfl, rfl⟩

end Server

end CacheAside
