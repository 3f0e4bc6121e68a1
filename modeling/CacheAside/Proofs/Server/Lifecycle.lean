import CacheAside.Proofs.Api.Exchange
import CacheAside.Proofs.Pool.Joining
import CacheAside.Server.Lifecycle
import CacheAside.Store.Faults
import CacheAside.Store.Memory

/-!
# The life of a server

A server is told to start, to stop and to shut down in any order, and serves requests in between.
`Server.Started` lists what telling it to start can come to: it is refused with the first of its
obstacles, or it runs. `Server.Obeyed` lists what any call can do. From these `Server.life_of_calls`
says, for every sequence of calls, which state the server is in and what the next call comes to.

The invariant is `Server.Settled`: the state and the running instance keep step, and the pool of an
instance is at rest.
-/

namespace CacheAside.Server

variable {σ γ : Type} {s : Server σ γ} {binding : Binding} {now task : Nat}

/-- A server that has not been started. -/
def idle (config : Config) (backend : Backend σ γ) (store : σ) : Server σ γ :=
  { config, backend, store }

/-! ## Starting -/

/-- The pool that a start brings up, or why it does not come up, and what the store is after it. -/
def bringUp (s : Server σ γ) : Except Pool.StartError (Pool σ γ) × σ :=
  (Pool.start s.backend s.config.workers.toNat s.config.queueDepth.toNat
    (.fresh s.config.capacity.toNat) s.store).value

/-- What can keep the server from starting, each on its own: that it runs, its configuration, that
shutdown has been requested, the listener, the workers. They are looked at in this order. -/
def obstacles (s : Server σ γ) (binding : Binding) (task : Nat) : List (Option ServerError) :=
  [ if s.state = .stopped then none else some .alreadyRunning,
    match s.config.validate with
    | .error e => some e
    | .ok () => none,
    if s.isTriggered then some .shutdownRequested else none,
    match binding with
    | .error reason => some (.bind s.config.listenAddress reason)
    | .ok _ => none,
    match s.bringUp.1 with
    | .error e => some (startError task e)
    | .ok _ => none ]

/-- The first thing that keeps the server from starting, if anything does. -/
def obstacle? (s : Server σ γ) (binding : Binding) (task : Nat) : Option ServerError :=
  (s.obstacles binding task).findSome? id

/-- Nothing keeps the server from starting. -/
structure Startable (s : Server σ γ) (port : UInt16) (pool : Pool σ γ) : Prop where
  stopped : s.state = .stopped
  valid : s.config.validate = .ok ()
  untriggered : s.isTriggered = false
  up : s.bringUp.1 = .ok pool

/-- What starting a server can come to. -/
inductive Started (s : Server σ γ) (task : Nat) : Binding →
    Except ServerError Net.SocketAddress × Server σ γ → Prop
  /-- It is refused. The store may have seen connections come and go. -/
  | refused {binding : Binding} {e : ServerError} {store : σ}
      (first : s.obstacle? binding task = some e) :
    Started s task binding (.error e, { s with store })
  | running {port : UInt16} {pool : Pool σ γ} {reporter : Option Reporter}
      (startable : s.Startable port pool) :
    Started s task (.ok port) (.ok { s.config with port }.listenAddress, { s with
      state := .running
      running := some ⟨{ s.config with port }.listenAddress, pool, reporter⟩ })

theorem Startable.obstacle? {port : UInt16} {pool : Pool σ γ} (startable : s.Startable port pool)
    (task : Nat) : s.obstacle? (.ok port) task = none := by
  simp [Server.obstacle?, obstacles, startable.stopped, startable.valid, startable.untriggered,
    startable.up]

/-- Telling a server to start comes to one of the two. -/
theorem started (s : Server σ γ) (binding : Binding) (now task : Nat) :
    Started s task binding (s.start binding now task).value := by
  unfold start
  by_cases stopped : s.state = .stopped
  · rw [if_neg (not_not_intro stopped)]
    cases valid : s.config.validate with
    | error e => exact .refused (by simp [obstacle?, obstacles, stopped, valid])
    | ok _ =>
        dsimp only
        cases triggered : s.isTriggered with
        | true => exact .refused (by simp [obstacle?, obstacles, stopped, valid, triggered])
        | false =>
            rw [if_neg Bool.false_ne_true]
            cases binding with
            | error reason =>
                exact .refused (by simp [obstacle?, obstacles, stopped, valid, triggered])
            | ok port =>
                dsimp only
                unfold launch
                rcases up : s.bringUp with ⟨e | pool, store⟩
                · have first : s.obstacle? (.ok port) task = some (startError task e) := by
                    simp [obstacle?, obstacles, stopped, valid, triggered, up]
                  unfold bringUp at up
                  simp only [Logged.value_bind, up]
                  exact .refused first
                · have startable : s.Startable port pool :=
                    ⟨stopped, valid, triggered, congrArg Prod.fst up⟩
                  unfold bringUp at up
                  simp only [Logged.value_bind, up]
                  exact .running startable
  · rw [if_pos stopped]
    exact .refused (by simp [obstacle?, obstacles, stopped])

/-- A server starts if and only if nothing keeps it from starting. -/
theorem start_ok_iff (s : Server σ γ) (binding : Binding) (now task : Nat) :
    (∃ address, (s.start binding now task).value.1 = .ok address) ↔
      ∃ port pool, binding = .ok port ∧ s.Startable port pool := by
  have started := s.started binding now task
  generalize (s.start binding now task).value = after at started
  constructor
  · rintro ⟨address, ok⟩
    cases started with
    | refused _ => cases ok
    | running startable => exact ⟨_, _, rfl, startable⟩
  · rintro ⟨port, pool, rfl, startable⟩
    cases started with
    | refused first => cases (startable.obstacle? task).symm.trans first
    | running _ => exact ⟨_, rfl⟩

/-- If it does not start, it says what has kept it first. -/
theorem start_error_iff (s : Server σ γ) (binding : Binding) (now task : Nat) (e : ServerError) :
    (s.start binding now task).value.1 = .error e ↔ s.obstacle? binding task = some e := by
  have started := s.started binding now task
  generalize (s.start binding now task).value = after at started
  cases started with
  | refused first =>
      rw [first]
      exact ⟨fun | rfl => rfl, fun | rfl => rfl⟩
  | running startable =>
      rw [startable.obstacle? task]
      exact ⟨nofun, nofun⟩

/-! ## Calls -/

/-- What a server can be told, and what can happen to it in between. -/
inductive Call (σ : Type)
  | start (binding : Binding) (now task : Nat)
  | stop
  | trigger
  | exchange (link : Link) (now : String) (r : Http.Request)
  | elapse (ms : Nat)
  /-- The store is changed, or its faults are, and no request does it. -/
  | modifyStore (change : σ → σ)

def obey (s : Server σ γ) : Call σ → Server σ γ
  | .start binding now task => (s.start binding now task).value.2
  | .stop => s.stop.value.2
  | .trigger => s.trigger
  | .exchange link now r => (s.exchange link now r).value.2
  | .elapse ms => (s.elapse ms).value
  | .modifyStore change => s.modifyStore change

def obeyAll (s : Server σ γ) (calls : List (Call σ)) : Server σ γ := calls.foldl obey s

/-- The pool of an instance is open and at rest. -/
def Instance.Rests (i : Instance σ γ) : Prop := i.pool.Resting ∧ i.pool.isOpen = true

/-- What a call can do to a server. -/
inductive Obeyed (s : Server σ γ) : Call σ → Server σ γ → Prop
  | started {binding : Binding} {now task : Nat}
      {after : Except ServerError Net.SocketAddress × Server σ γ}
      (started : Started s task binding after) :
    Obeyed s (.start binding now task) after.2
  | stopped {store : σ} : Obeyed s .stop { s with state := .stopped, running := none, store }
  | untouched (nothing : s.running = none) : Obeyed s .stop s
  | triggered : Obeyed s .trigger { s with isTriggered := true }
  /-- The instance lives on at its address. -/
  | within {call : Call σ} {i i' : Instance σ γ} (other : call ≠ .stop)
      (present : s.running = some i) (address : i'.address = i.address)
      (rests : Instance.Rests i → Instance.Rests i') :
    Obeyed s call { s with running := some i' }
  /-- There is no instance. -/
  | without {call : Call σ} {store : σ} (other : call ≠ .stop) (nothing : s.running = none) :
    Obeyed s call { s with store }

/-- Every call does one of these. -/
theorem obeyed (s : Server σ γ) (call : Call σ) : Obeyed s call (s.obey call) := by
  cases call with
  | start binding now task => exact .started (s.started binding now task)
  | stop =>
      cases present : s.running with
      | none =>
          have same : s.obey .stop = s := by
            simp only [obey, stop, present]
            rfl
          rw [same]
          exact .untouched present
      | some i =>
          simp only [obey, stop, present]
          exact .stopped
  | trigger => exact .triggered
  | exchange link now r =>
      cases present : s.running with
      | none =>
          simp only [obey, exchange, present]
          exact .without nofun present
      | some i =>
          cases link with
          | down =>
              have same : s.obey (.exchange .down now r) = { s with running := some i } := by
                simp only [obey, exchange, present]
                rw [← present]
                rfl
              rw [same]
              exact .within nofun present rfl id
          | up =>
              simp only [obey, exchange, present]
              exact .within nofun present rfl fun rests => Api.rests_handle rests s.backend now r
  | elapse ms =>
      cases present : s.running with
      | none =>
          simp only [obey, elapse, present]
          exact .without nofun present
      | some i =>
          simp only [obey, elapse, present]
          exact .within nofun present rfl id
  | modifyStore change =>
      unfold obey modifyStore
      dsimp only
      split
      · next i present =>
          exact .within nofun present rfl fun rests =>
            ⟨⟨rests.1.room, rests.1.waiting, rests.1.queue, rests.1.workers⟩, rests.2⟩
      · next nothing => exact .without nofun nothing

/-! ## What calls keep to -/

/-- The state and the running instance keep step. -/
inductive Settled (s : Server σ γ) : Prop
  | stopped (state : s.state = .stopped) (nothing : s.running = none)
  | running {i : Instance σ γ} (state : s.state = .running) (present : s.running = some i)
      (rests : Instance.Rests i)

theorem settled_idle (config : Config) (b : Backend σ γ) (store : σ) :
    (idle config b store).Settled := .stopped rfl rfl

theorem Startable.pool_start {port : UInt16} {pool : Pool σ γ} (startable : s.Startable port pool) :
    (Pool.start s.backend s.config.workers.toNat s.config.queueDepth.toNat
      (.fresh s.config.capacity.toNat) s.store).value = (.ok pool, s.bringUp.2) :=
  Prod.ext startable.up rfl

/-- No call puts the state and the instance out of step. -/
theorem Settled.obey (settled : s.Settled) (call : Call σ) : (s.obey call).Settled := by
  have obeyed := s.obeyed call
  generalize s.obey call = s' at obeyed
  cases obeyed with
  | started started =>
      cases started with
      | refused _ =>
          cases settled with
          | stopped state nothing => exact .stopped state nothing
          | running state present rests => exact .running state present rests
      | running startable => exact .running rfl rfl (Pool.rests_start startable.pool_start)
  | stopped => exact .stopped rfl rfl
  | untouched _ => exact settled
  | triggered =>
      cases settled with
      | stopped state nothing => exact .stopped state nothing
      | running state present rests => exact .running state present rests
  | within _ present _ rests =>
      cases settled with
      | stopped _ nothing => cases nothing.symm.trans present
      | running state here before =>
          cases here.symm.trans present
          exact .running state rfl (rests before)
  | without _ nothing =>
      cases settled with
      | stopped state _ => exact .stopped state nothing
      | running _ present _ => cases nothing.symm.trans present

theorem Settled.obeyAll (settled : s.Settled) (calls : List (Call σ)) :
    (s.obeyAll calls).Settled := by
  induction calls generalizing s with
  | nil => exact settled
  | cons call calls ih => exact ih (settled.obey call)

/-- A server that is stopped gives the counters that it has at that time. -/
theorem Settled.stop (settled : s.Settled) :
    (s.stop).value.1 = s.counters? ∧ (s.stop).value.2.state = .stopped ∧
      (s.stop).value.2.running = none := by
  cases settled with
  | stopped state nothing =>
      simp only [Server.stop, counters?, nothing]
      exact ⟨rfl, state, nothing⟩
  | running state present rests =>
      simp only [Server.stop, counters?, present]
      obtain ⟨shared, -⟩ := Pool.value_join (b := s.backend) rests.1.waiting rests.1.queue
      exact ⟨congrArg (some ·.counters) shared, rfl, rfl⟩

/-- A request for shutdown is never taken back. -/
theorem isTriggered_obeyAll (triggered : s.isTriggered = true) (calls : List (Call σ)) :
    (s.obeyAll calls).isTriggered = true := by
  induction calls generalizing s with
  | nil => exact triggered
  | cons call calls ih =>
      refine ih ?_
      have obeyed := s.obeyed call
      generalize s.obey call = s' at obeyed
      cases obeyed with
      | started started => cases started <;> exact triggered
      | triggered => rfl
      | stopped | untouched | within | without => exact triggered

/-- Nothing but stopping it ends a server that runs, or moves it to another address. -/
theorem keeps_running (running : s.state = .running) {calls : List (Call σ)}
    (others : .stop ∉ calls) :
    (s.obeyAll calls).state = .running ∧ (s.obeyAll calls).address? = s.address? := by
  induction calls generalizing s with
  | nil => exact ⟨running, rfl⟩
  | cons call calls ih =>
      have other : call ≠ .stop := fun same => others (same ▸ List.mem_cons_self)
      have later : .stop ∉ calls := fun member => others (List.mem_cons_of_mem _ member)
      have here : (s.obey call).state = .running ∧ (s.obey call).address? = s.address? := by
        have obeyed := s.obeyed call
        generalize s.obey call = s' at obeyed
        cases obeyed with
        | started started =>
            cases started with
            | refused _ => exact ⟨running, rfl⟩
            | running startable => cases running.symm.trans startable.stopped
        | stopped | untouched => exact absurd rfl other
        | triggered => exact ⟨running, rfl⟩
        | within _ present address _ =>
            refine ⟨running, ?_⟩
            rw [address?, address?, present]
            exact congrArg some address
        | without _ _ => exact ⟨running, rfl⟩
      obtain ⟨still, there⟩ := ih here.1 later
      exact ⟨still, there.trans here.2⟩

theorem config_obeyAll (s : Server σ γ) (calls : List (Call σ)) :
    (s.obeyAll calls).config = s.config ∧ (s.obeyAll calls).backend = s.backend := by
  induction calls generalizing s with
  | nil => exact ⟨rfl, rfl⟩
  | cons call calls ih =>
      have here : (s.obey call).config = s.config ∧ (s.obey call).backend = s.backend := by
        have obeyed := s.obeyed call
        generalize s.obey call = s' at obeyed
        cases obeyed with
        | started started => cases started <;> exact ⟨rfl, rfl⟩
        | stopped | untouched | triggered | within | without => exact ⟨rfl, rfl⟩
      obtain ⟨config, backend⟩ := ih (s.obey call)
      exact ⟨config.trans here.1, backend.trans here.2⟩

/-- Shutdown is requested by any call that asks for it, whatever comes later. -/
theorem isTriggered_of_mem {calls : List (Call σ)} (member : .trigger ∈ calls) (s : Server σ γ) :
    (s.obeyAll calls).isTriggered = true := by
  obtain ⟨before, after, rfl⟩ := List.append_of_mem member
  have split : s.obeyAll (before ++ .trigger :: after) =
      ((s.obeyAll before).obey .trigger).obeyAll after := List.foldl_append
  rw [split]
  exact isTriggered_obeyAll rfl after

/-! ## The whole life -/

/-- Whatever a server has been told and whatever it has served: it runs exactly if it holds an
instance, with an address and counters, and is stopped otherwise. It starts exactly if it is
stopped, its configuration is valid, shutdown has not been requested, the listener is bound and the
workers come up; then its cache is empty and its counters are zero. Otherwise it reports the first
of these that fails, and is as it was but for connections that its store has seen. Stopping it gives
its counters exactly if it runs, and leaves it stopped. After a request for shutdown it does not
start again, but as long as it is not stopped it keeps running. -/
theorem life_of_calls (config : Config) (b : Backend σ γ) (store : σ) (calls : List (Call σ)) :
    let s := (idle config b store).obeyAll calls
    (s.config = config ∧ s.backend = b) ∧
      ((s.state = .running ∧ ∃ i, s.running = some i ∧ s.address? = some i.address ∧
          s.counters? = some i.pool.shared.counters) ∨
        (s.state = .stopped ∧ s.running = none ∧ s.address? = none ∧ s.counters? = none)) ∧
      (∀ binding now task,
        let after := (s.start binding now task).value
        ((∃ address, after.1 = .ok address) ↔ s.state = .stopped ∧ config.validate = .ok () ∧
          s.isTriggered = false ∧ (∃ port, binding = .ok port) ∧ ∃ pool, s.bringUp.1 = .ok pool) ∧
        (∀ address, after.1 = .ok address → after.2.state = .running ∧
          after.2.address? = some address ∧ ∃ i, after.2.running = some i ∧
            i.pool.shared.cache.toList = [] ∧ i.pool.shared.counters = {}) ∧
        ∀ e, after.1 = .error e → s.obstacle? binding task = some e ∧
          after.2 = { s with store := after.2.store }) ∧
      (s.stop.value.1 = s.counters? ∧ (s.stop.value.1.isSome ↔ s.state = .running) ∧
        s.stop.value.2.state = .stopped) ∧
      (.trigger ∈ calls → ∀ binding now task,
        ∃ e, (s.start binding now task).value.1 = .error e) ∧
      (s.state = .running → ∀ later, .stop ∉ later →
        (s.obeyAll later).state = .running ∧ (s.obeyAll later).address? = s.address?) := by
  intro s
  obtain ⟨own, behind⟩ : s.config = config ∧ s.backend = b := config_obeyAll _ calls
  have settled : s.Settled := (settled_idle config b store).obeyAll calls
  refine ⟨⟨own, behind⟩, ?_, ?_, ?_, ?_, fun running later others => keeps_running running others⟩
  · cases settled with
    | stopped state nothing =>
        exact .inr ⟨state, nothing, by simp [address?, nothing], by simp [counters?, nothing]⟩
    | running state present _ =>
        exact .inl ⟨state, _, present, by simp [address?, present], by simp [counters?, present]⟩
  · intro binding now task after
    have started : Started s task binding after := s.started binding now task
    refine ⟨?_, ?_, ?_⟩
    · rw [← own, start_ok_iff]
      constructor
      · rintro ⟨port, pool, rfl, startable⟩
        exact ⟨startable.stopped, startable.valid, startable.untriggered, ⟨port, rfl⟩,
          pool, startable.up⟩
      · rintro ⟨stopped, valid, untriggered, ⟨port, rfl⟩, pool, up⟩
        exact ⟨port, pool, rfl, stopped, valid, untriggered, up⟩
    · intro address ok
      generalize after = after at started ok
      cases started with
      | refused _ => cases ok
      | running startable =>
          cases ok
          obtain ⟨-, -, connections, -, rfl⟩ := Pool.start_ok startable.pool_start
          exact ⟨rfl, rfl, _, rfl, rfl, rfl⟩
    · intro e failed
      refine ⟨(start_error_iff s binding now task e).mp failed, ?_⟩
      generalize after = after at started failed
      cases started with
      | refused _ => rfl
      | running _ => cases failed
  · obtain ⟨counters, stopped, -⟩ := settled.stop
    refine ⟨counters, ?_, stopped⟩
    rw [counters]
    cases settled with
    | stopped state nothing => simp [counters?, nothing, state]
    | running state present _ => simp [counters?, present, state]
  · intro member binding now task
    have triggered : s.isTriggered = true := isTriggered_of_mem member _
    have started : Started s task binding (s.start binding now task).value :=
      s.started binding now task
    generalize (s.start binding now task).value = after at started
    cases started with
    | refused _ => exact ⟨_, rfl⟩
    | running startable => cases startable.untriggered.symm.trans triggered

/-- A start without a listener, a life with a read, a second life, and a request for shutdown: the
second life counts from zero and goes on through a change of its store, and no third one begins. -/
theorem life_of_calls_twice :
    let config : Config := { capacity := 2, workers := 2, queueDepth := 4, statsInterval := 0 }
    let get : Http.Request := { method := "GET", target := "/api/kv?key=a" }
    let calls : List (Call (Faulty Table)) := [.start (.error "in use") 0 1,
      .start (.ok 4000) 0 1, .exchange .up "0" get, .stop, .start (.ok 4001) 0 2, .trigger]
    let crash : FaultRule := { verb := .get, key := none, fault := .crash "down" }
    let later : List (Call (Faulty Table)) :=
      [.modifyStore (·.inject crash), .start (.ok 4002) 1 3]
    let s := (idle config Memory.backend.faulty { store := {} }).obeyAll calls
    .trigger ∈ calls ∧ s.state = .running ∧ .stop ∉ later ∧
      s.address? = some (.v4 .unspecified 4001) ∧ (s.obeyAll later).address? = s.address? ∧
      s.stop.value.1 = some {} ∧ s.stop.value.2.state = .stopped ∧
      ∃ e, (s.start (.ok 4002) 1 3).value.1 = .error e := by
  intro config get calls crash later s
  have triggered : Call.trigger ∈ calls := by simp [calls]
  have running : s.state = .running := by decide +kernel
  have others : .stop ∉ later := by simp [later]
  have address : s.address? = some (.v4 .unspecified 4001) := by decide +kernel
  have counters : s.counters? = some {} := by decide +kernel
  clear_value config calls later
  obtain ⟨-, -, -, ⟨stops, -, stopped⟩, never, keeps⟩ :=
    life_of_calls config Memory.backend.faulty { store := {} } calls
  exact ⟨triggered, running, others, address, (keeps running later others).2,
    stops.trans counters, stopped, never triggered (.ok 4002) 1 3⟩

end CacheAside.Server
