import Mathlib.Algebra.Order.BigOperators.Group.List
import Mathlib.Algebra.Order.Group.Nat
import CacheAside.Proofs.Api.Abreast
import CacheAside.Proofs.Pool.Batch
import CacheAside.Proofs.Server.Lifecycle

/-!
# Restarts

A server over a table is stopped and started again at some points of a sequence of requests. A
second one is sent the same requests and goes on without a break. Each restart empties the cache and
sets the counters to zero, and the table stays. So the pools of the two servers stay abreast
(`Pool.Abreast`), and no answer tells them apart: `Server.restarts_are_invisible`. What the stops
report is told by lists of events, one for each life, whose numbers do not wrap.
-/

namespace CacheAside

namespace Pool

/-- Over a table workers always get their connections, so a pool that comes up over one table comes
up over every other. -/
theorem start_over_tables {start : Pool Table Unit} {n depth : Nat} {shared : Shared} {t t' : Table}
    (started : (Pool.start Memory.backend n depth shared t).value = (.ok start, t')) (s : Table) :
    (Pool.start Memory.backend n depth shared s).value =
      (.ok { depth, workers := List.replicate n (.idle ()), shared, store := s }, s) := by
  unfold Pool.start at started ⊢
  split at started
  · cases started
  · next some =>
      split at started
      · cases started
      · next shallow =>
          rw [if_neg some, if_neg shallow]
          simp only [Logged.value_bind, connectAll_memory, Logged.value_pure, List.map_replicate]

end Pool

/-! ## Configurations with which every start succeeds -/

/-- The pool that a configuration brings up over a table. -/
def Config.pool (c : Config) (t : Table) : Pool Table Unit :=
  { depth := c.queueDepth.toNat
    workers := List.replicate c.workers.toNat (.idle ())
    shared := .fresh c.capacity.toNat
    store := t }

/-- Nothing but the listener can keep the configuration from starting over a table. -/
structure Launches (c : Config) : Prop where
  valid : c.validate = .ok ()
  up : ∀ t, (Pool.start Memory.backend c.workers.toNat c.queueDepth.toNat
    (.fresh c.capacity.toNat) t).value = (.ok (c.pool t), t)

namespace Launches

variable {c : Config}

theorem capacity (launches : Launches c) : 0 < c.capacity.toNat := by
  have valid := launches.valid
  unfold Config.validate at valid
  split at valid
  · cases valid
  · next some => exact Nat.pos_of_ne_zero fun zero => some (UInt64.toNat_inj.mp zero)

theorem steady (launches : Launches c) (t : Table) : (c.pool t).Steady := by
  obtain ⟨some, -, -⟩ := Pool.start_ok (launches.up t)
  refine ⟨Pool.rests_start (launches.up t), ?_, .empty launches.capacity, ?_⟩
  · exact List.any_eq_true.mpr ⟨.idle (), List.mem_replicate.mpr ⟨Nat.ne_of_gt some, rfl⟩, rfl⟩
  · intro key value held
    have missing : (Cache.empty c.capacity.toNat).lookup[key]? = none := Std.TreeMap.getElem?_emptyc
    have unused : (Cache.empty c.capacity.toNat).peek key = none := by rw [Cache.peek, missing]
    cases unused.symm.trans held

end Launches

namespace Server

variable {s u : Server Table Unit} {c : Config} {p q : Pool Table Unit}

/-- If one start over a table succeeds, every other does, whatever the table. -/
theorem Startable.launches {port : UInt16} {store : Table} {pool : Pool Table Unit}
    (startable : (idle c Memory.backend store).Startable port pool) : Launches c :=
  ⟨startable.valid, Pool.start_over_tables startable.pool_start⟩

/-- The server runs with this configuration and this pool, and shutdown has not been requested. -/
structure Serving (s : Server Table Unit) (c : Config) (p : Pool Table Unit) : Prop where
  config : s.config = c
  backend : s.backend = Memory.backend
  untriggered : s.isTriggered = false
  present : ∃ i, s.running = some i ∧ i.pool = p

/-- With such a configuration a start succeeds, and the server serves from a fresh pool. -/
theorem serving_start (launches : Launches c) (config : s.config = c)
    (backend : s.backend = Memory.backend) (untriggered : s.isTriggered = false)
    (stopped : s.state = .stopped) (port : UInt16) (now task : Nat) :
    (∃ address, (s.start (.ok port) now task).value.1 = .ok address) ∧
      (s.start (.ok port) now task).value.2.Serving c (c.pool s.store) := by
  have up : s.bringUp = (.ok (c.pool s.store), s.store) := by
    rw [bringUp, config, backend]
    exact launches.up s.store
  have startable : s.Startable port (c.pool s.store) :=
    ⟨stopped, config ▸ launches.valid, untriggered, congrArg Prod.fst up⟩
  have started := s.started (.ok port) now task
  generalize (s.start (.ok port) now task).value = after at started
  cases started with
  | refused first => cases (startable.obstacle? task).symm.trans first
  | running startable' =>
      cases startable.up.symm.trans startable'.up
      exact ⟨⟨_, rfl⟩, config, backend, untriggered, _, rfl, rfl⟩

theorem Serving.exchange (serving : s.Serving c p) {response : Http.Response}
    {now : String} {r : Http.Request}
    (handled : (Api.handle Memory.backend now r p).value = (response, q)) :
    (s.exchange .up now r).value.1 = .ok response ∧ (s.exchange .up now r).value.2.Serving c q := by
  obtain ⟨i, present, rfl⟩ := serving.present
  rw [← serving.backend] at handled
  have exchanged : (s.exchange .up now r).value =
      (.ok response, { s with running := some { i with pool := q } }) := by
    simp only [Server.exchange, present, Logged.value_bind, handled, Logged.value_pure]
  rw [exchanged]
  exact ⟨rfl, serving.config, serving.backend, serving.untriggered, _, rfl, rfl⟩

/-- Stopping the server gives the counters of its pool, and the table of the pool is left. -/
theorem Serving.stop (serving : s.Serving c p) (resting : p.Resting) :
    s.stop.value.1 = some p.shared.counters ∧ s.stop.value.2.store = p.store ∧
      s.stop.value.2.running = none ∧ s.stop.value.2.state = .stopped ∧
      s.stop.value.2.config = c ∧ s.stop.value.2.backend = Memory.backend ∧
      s.stop.value.2.isTriggered = false := by
  obtain ⟨i, present, rfl⟩ := serving.present
  obtain ⟨shared, store⟩ := Pool.value_join (b := s.backend) resting.waiting resting.queue
  have stopped : s.stop.value = (some (i.pool.join s.backend).value.shared.counters, { s with
      state := .stopped, running := none, store := (i.pool.join s.backend).value.store }) := by
    simp only [Server.stop, present]
    rfl
  rw [stopped, shared, store]
  exact ⟨rfl, rfl, rfl, rfl, serving.config, serving.backend, serving.untriggered⟩

/-! ## Courses of requests and restarts -/

/-- A request arrives, or the server is stopped and started again, and its listener is bound to a
port. -/
inductive Episode
  | request (now : String) (r : Http.Request)
  | restart (port : UInt16) (now task : Nat)

def Episode.isRestart : Episode → Bool
  | .request _ _ => false
  | .restart _ _ _ => true

/-- Whether it is a request that asks for an operation. -/
def Episode.asks : Episode → Bool
  | .request _ r => (Api.operation? r).isSome
  | .restart _ _ _ => false

/-- What comes of a course: the answers to the requests, what each start comes to and what each stop
tells, and the server that is left. -/
structure Course (σ γ : Type) where
  answers : List (Except ExchangeError Http.Response) := []
  starts : List (Except ServerError Net.SocketAddress) := []
  stops : List (Option Counters)
  left : Server σ γ

/-- Goes through the episodes and stops. -/
def live {σ γ : Type} (s : Server σ γ) : List Episode → Course σ γ
  | [] => { stops := [s.stop.value.1], left := s.stop.value.2 }
  | .request now r :: episodes =>
    let (answer, s) := (s.exchange .up now r).value
    let course := s.live episodes
    { course with answers := answer :: course.answers }
  | .restart port now task :: episodes =>
    let (counters, s) := s.stop.value
    let (started, s) := (s.start (.ok port) now task).value
    let course := s.live episodes
    { course with starts := started :: course.starts, stops := counters :: course.stops }

theorem live_request {σ γ : Type} (s : Server σ γ) (now : String) (r : Http.Request)
    (episodes : List Episode) :
    s.live (.request now r :: episodes) =
      { (s.exchange .up now r).value.2.live episodes with
        answers := (s.exchange .up now r).value.1 ::
          ((s.exchange .up now r).value.2.live episodes).answers } := rfl

theorem live_restart {σ γ : Type} (s : Server σ γ) (port : UInt16) (now task : Nat)
    (episodes : List Episode) :
    s.live (.restart port now task :: episodes) =
      let started := (s.stop.value.2.start (.ok port) now task).value
      { started.2.live episodes with
        starts := started.1 :: (started.2.live episodes).starts
        stops := s.stop.value.1 :: (started.2.live episodes).stops } := rfl

/-- The requests of a course with restarts compared with those of one without. -/
structure Invisible (run whole : Course Table Unit) : Prop where
  answers : run.answers = whole.answers
  answered : ∀ answer ∈ run.answers, ∃ response, answer = .ok response
  started : ∀ start ∈ run.starts, ∃ address, start = .ok address
  content : ∀ key : Key, run.left.currentStore[key]? = whole.left.currentStore[key]?

/-- What the stops of two courses tell, by the events that they count: `lives` are those of each
life in the course with restarts, `total` are those of the course without. Each life counts the
requests that ask for an operation between two restarts. -/
structure Accounted (episodes : List Episode) (lives : List (List Counter)) (total : List Counter) :
    Prop where
  requests : lives.map (·.count .request) =
    (episodes.splitOnP Episode.isRestart).map (·.countP Episode.asks)
  whole : total.count .request = episodes.countP Episode.asks
  adds : (lives.map (·.count .request)).sum = total.count .request
  fewer : ∀ events ∈ total :: lives, events.count .hit ≤ events.count .request
  hits : (lives.map (·.count .hit)).sum ≤ total.count .hit

/-- A request is put to the account of the life in which it arrives, and of the whole. -/
theorem Accounted.request {episodes : List Episode} {first total : List Counter}
    {lives : List (List Counter)} (accounted : Accounted episodes (first :: lives) total)
    {now : String} {r : Http.Request}
    (hit : (Api.counted r p).count .hit ≤ (Api.counted r q).count .hit) :
    Accounted (.request now r :: episodes) ((Api.counted r p ++ first) :: lives)
      (Api.counted r q ++ total) := by
  obtain ⟨counts, fewer⟩ := Api.count_counted r p
  obtain ⟨counts', fewer'⟩ := Api.count_counted r q
  have asks : (Episode.request now r).asks = (Api.operation? r).isSome := rfl
  obtain ⟨life, rest, split⟩ :=
    List.exists_cons_of_ne_nil (List.splitOnP_ne_nil Episode.isRestart episodes)
  have longer : (Episode.request now r :: episodes).splitOnP Episode.isRestart =
      (.request now r :: life) :: rest := by
    rw [List.splitOnP_cons_eq_if_modifyHead, split]
    rfl
  have before := accounted.requests
  have hits := accounted.hits
  rw [split, List.map_cons, List.map_cons, List.cons.injEq] at before
  refine ⟨?_, ?_, ?_, ?_, ?_⟩
  · rw [longer, List.map_cons, List.map_cons, List.count_append, List.countP_cons, before.1,
      before.2, counts, asks, Nat.add_comm]
  · rw [List.count_append, List.countP_cons, counts', accounted.whole, asks, Nat.add_comm]
  · have adds := accounted.adds
    simp only [List.map_cons, List.sum_cons, List.count_append] at adds ⊢
    omega
  · have within := accounted.fewer
    simp only [List.forall_mem_cons, List.count_append] at within ⊢
    exact ⟨Nat.add_le_add fewer' within.1, Nat.add_le_add fewer within.2.1, within.2.2⟩
  · simp only [List.map_cons, List.sum_cons, List.count_append] at hits ⊢
    omega

/-- A restart opens an account and changes no sum. -/
theorem Accounted.restart {episodes : List Episode} {lives : List (List Counter)}
    {total : List Counter} (accounted : Accounted episodes lives total) (port : UInt16)
    (now task : Nat) : Accounted (.restart port now task :: episodes) ([] :: lives) total := by
  have split : (Episode.restart port now task :: episodes).splitOnP Episode.isRestart =
      [] :: episodes.splitOnP Episode.isRestart := by
    rw [List.splitOnP_cons_eq_if_modifyHead]
    rfl
  refine ⟨?_, ?_, ?_, ?_, ?_⟩
  · rw [split, List.map_cons, List.map_cons, accounted.requests]
    rfl
  · rw [List.countP_cons, accounted.whole]
    rfl
  · rw [List.map_cons, List.sum_cons, List.count_nil, Nat.zero_add]
    exact accounted.adds
  · have within := accounted.fewer
    simp only [List.forall_mem_cons] at within ⊢
    exact ⟨within.1, Nat.le_refl _, within.2⟩
  · rw [List.map_cons, List.sum_cons, List.count_nil, Nat.zero_add]
    exact accounted.hits

/-- The course with restarts compared with the one without, from two pools abreast on. -/
theorem live_abreast (launches : Launches c) (serving : s.Serving c p) (serving' : u.Serving c q)
    (abreast : Pool.Abreast c.capacity.toNat p q) {episodes : List Episode}
    (unobserved : ∀ now r, .request now r ∈ episodes → r.resource.path ≠ "/stats") :
    let run := s.live episodes
    let whole := u.live (episodes.filter (!·.isRestart))
    Invisible run whole ∧ ∃ first lives total, Accounted episodes (first :: lives) total ∧
      run.stops = some (p.shared.counters.recordAll first) ::
        lives.map (fun events => some (.recordAll {} events)) ∧
      whole.stops = [some (q.shared.counters.recordAll total)] := by
  induction episodes generalizing s u p q with
  | nil =>
      obtain ⟨counters, store, idle, -⟩ := serving.stop abreast.first.rests.1
      obtain ⟨counters', store', idle', -⟩ := serving'.stop abreast.second.rests.1
      refine ⟨⟨rfl, nofun, nofun, ?_⟩, [], [], [], ⟨rfl, rfl, rfl, ?_, Nat.le_refl _⟩, ?_, ?_⟩
      · intro key
        have content := congrFun abreast.content key
        simp only [List.filter_nil, live, currentStore, idle, idle', store, store']
        exact content
      · simp
      · exact congrArg (· :: []) counters
      · exact congrArg (· :: []) counters'
  | cons episode episodes ih =>
      have later : ∀ now r, .request now r ∈ episodes → r.resource.path ≠ "/stats" :=
        fun now r member => unobserved now r (List.mem_cons_of_mem _ member)
      cases episode with
      | request now r =>
          have here := unobserved now r List.mem_cons_self
          obtain ⟨response, p', q', handled, handled', abreast', counters, counters', hit⟩ :=
            Api.handle_abreast abreast here now
          obtain ⟨answer, next⟩ := serving.exchange handled
          obtain ⟨answer', next'⟩ := serving'.exchange handled'
          obtain ⟨same, first, lives, total, accounted, stops, stops'⟩ :=
            ih next next' abreast' later
          have kept : (Episode.request now r :: episodes).filter (!·.isRestart) =
              .request now r :: episodes.filter (!·.isRestart) := rfl
          dsimp only
          rw [kept, live_request, live_request, answer, answer']
          refine ⟨⟨?_, ?_, same.started, same.content⟩, Api.counted r p ++ first, lives,
            Api.counted r q ++ total, accounted.request hit, ?_, ?_⟩
          · exact congrArg (Except.ok response :: ·) same.answers
          · simp only [List.forall_mem_cons]
            exact ⟨⟨response, rfl⟩, same.answered⟩
          · rw [Counters.recordAll_append, ← counters]
            exact stops
          · rw [Counters.recordAll_append, ← counters']
            exact stops'
      | restart port now task =>
          obtain ⟨counters, store, -, stopped, config, backend, untriggered⟩ :=
            serving.stop abreast.first.rests.1
          obtain ⟨started, next⟩ :=
            serving_start launches config backend untriggered stopped port now task
          rw [store] at next
          have cold : Pool.Abreast c.capacity.toNat (c.pool p.store) q :=
            ⟨launches.steady _, abreast.second, abreast.content, rfl, abreast.room',
              List.nil_prefix⟩
          obtain ⟨same, first, lives, total, accounted, stops, stops'⟩ :=
            ih next serving' cold later
          have dropped : (Episode.restart port now task :: episodes).filter (!·.isRestart) =
              episodes.filter (!·.isRestart) := rfl
          dsimp only
          rw [dropped, live_restart, counters]
          refine ⟨⟨same.answers, same.answered, ?_, same.content⟩, [], first :: lives, total,
            accounted.restart port now task, ?_, stops'⟩
          · simp only [List.forall_mem_cons]
            exact ⟨started, same.started⟩
          · exact congrArg _ stops

/-- As long as the numbers fit into a word, what a stop tells are the numbers of the events. -/
theorem toNat_report {events : List Counter} (few : events.count .request < UInt64.size)
    (fewer : events.count .hit ≤ events.count .request) :
    (Counters.recordAll {} events).requests.toNat = events.count .request ∧
      (Counters.recordAll {} events).hits.toNat = events.count .hit := by
  simp only [Counters.recordAll_eq, UInt64.zero_add]
  exact ⟨UInt64.toNat_ofNat_of_lt' few, UInt64.toNat_ofNat_of_lt' (Nat.lt_of_le_of_lt fewer few)⟩

/-- As long as the requests can be counted, the counters tell the same as the events. -/
theorem Accounted.words {episodes : List Episode} {lives : List (List Counter)}
    {total : List Counter} (accounted : Accounted episodes lives total)
    (few : episodes.countP Episode.asks < UInt64.size) :
    let report : List Counter → Counters := Counters.recordAll {}
    lives.map (fun events => (report events).requests.toNat) =
        (episodes.splitOnP Episode.isRestart).map (·.countP Episode.asks) ∧
      (lives.map fun events => (report events).requests.toNat).sum =
        (report total).requests.toNat ∧
      (lives.map fun events => (report events).hits.toNat).sum ≤ (report total).hits.toNat := by
  intro report
  rw [← accounted.whole] at few
  have within := List.forall_mem_cons.mp accounted.fewer
  obtain ⟨requests, hits⟩ := toNat_report few within.1
  have each : ∀ events ∈ lives, (report events).requests.toNat = events.count .request ∧
      (report events).hits.toNat = events.count .hit := by
    intro events member
    have below : events.count .request ≤ total.count .request :=
      accounted.adds ▸ List.le_sum_of_mem (List.mem_map_of_mem member)
    exact toNat_report (Nat.lt_of_le_of_lt below few) (within.2 events member)
  rw [List.map_congr_left fun events member => (each events member).1,
    List.map_congr_left fun events member => (each events member).2, requests, hits]
  exact ⟨accounted.requests, accounted.adds, accounted.hits⟩

/-- A server over a table starts, is sent requests, is stopped and started again at any points in
between, and stops. Compared with the same course without the restarts: every start succeeds, every
request is answered, and with the same answer, and the table that is left has the same content. Each
stop tells the counters of the events since the last start, a request for each of the requests that
asked for an operation in that time. The requests of all lives add up to those of the whole, and
their hits to no more than its hits; so do the counters until they wrap. -/
theorem restarts_are_invisible {config : Config} {store : Table} {port : UInt16} {now task : Nat}
    {address : Net.SocketAddress}
    (begins : ((idle config Memory.backend store).start (.ok port) now task).value.1 = .ok address)
    {episodes : List Episode}
    (unobserved : ∀ now r, .request now r ∈ episodes → r.resource.path ≠ "/stats") :
    let start := ((idle config Memory.backend store).start (.ok port) now task).value.2
    let run := start.live episodes
    let whole := start.live (episodes.filter (!·.isRestart))
    Invisible run whole ∧ ∃ (lives : List (List Counter)) (total : List Counter),
      run.stops = lives.map (fun events => some (.recordAll {} events)) ∧
      whole.stops = [some (.recordAll {} total)] ∧ Accounted episodes lives total ∧
      (episodes.countP Episode.asks < UInt64.size →
        let report : List Counter → Counters := Counters.recordAll {}
        lives.map (fun events => (report events).requests.toNat) =
            (episodes.splitOnP Episode.isRestart).map (·.countP Episode.asks) ∧
          (lives.map fun events => (report events).requests.toNat).sum =
            (report total).requests.toNat ∧
          (lives.map fun events => (report events).hits.toNat).sum ≤
            (report total).hits.toNat) := by
  intro start run whole
  have launches : Launches config := by
    obtain ⟨_, pool, -, startable⟩ := (start_ok_iff _ (.ok port) now task).mp ⟨address, begins⟩
    exact startable.launches
  have serving : start.Serving config (config.pool store) :=
    (serving_start launches rfl rfl rfl rfl port now task).2
  have steady := launches.steady store
  have abreast : Pool.Abreast config.capacity.toNat (config.pool store) (config.pool store) :=
    ⟨steady, steady, rfl, rfl, rfl, List.prefix_refl _⟩
  obtain ⟨same, first, lives, total, accounted, stops, stops'⟩ :=
    live_abreast launches serving serving abreast unobserved
  exact ⟨same, first :: lives, total, stops, stops', accounted, accounted.words⟩

/-- A pair that was cached before the restart is read from the table after it, so a hit is lost, and
nobody notices. -/
theorem restarts_are_invisible_cold :
    let config : Config := { capacity := 1, workers := 1, queueDepth := 1, statsInterval := 0 }
    let store : Table := .ofList [("a", "1")]
    let get : Http.Request := { method := "GET", target := "/api/kv?key=a" }
    let delete : Http.Request := { method := "DELETE", target := "/api/kv?key=a" }
    let episodes : List Episode := [.request "0" get, .request "1" get, .restart 4001 5 2,
      .request "6" get, .request "7" delete, .request "8" get]
    let begun := ((idle config Memory.backend store).start (.ok 4000) 0 1).value
    let run := begun.2.live episodes
    let whole := begun.2.live (episodes.filter (!·.isRestart))
    begun.1 = .ok (.v4 .unspecified 4000) ∧
      (∀ now r, .request now r ∈ episodes → r.resource.path ≠ "/stats") ∧
      run.stops = [some ⟨2, 1, 1⟩, some ⟨3, 0, 2⟩] ∧ whole.stops = [some ⟨5, 2, 2⟩] ∧
      run.answers = whole.answers := by
  intro config store get delete episodes begun run whole
  have begins : begun.1 = .ok (.v4 .unspecified 4000) := by decide +kernel
  have path : get.resource.path = "/api/kv" ∧ delete.resource.path = "/api/kv" := by decide +kernel
  have unobserved : ∀ now r, .request now r ∈ episodes → r.resource.path ≠ "/stats" := by
    intro now r member
    have asked : r = get ∨ r = delete := by
      simp only [episodes, List.mem_cons, Episode.request.injEq, reduceCtorEq] at member
      tauto
    rcases asked with rfl | rfl
    · simp [path.1]
    · simp [path.2]
  have stops : run.stops = [some ⟨2, 1, 1⟩, some ⟨3, 0, 2⟩] := by decide +kernel
  have stops' : whole.stops = [some ⟨5, 2, 2⟩] := by decide +kernel
  obtain ⟨same, -⟩ := restarts_are_invisible begins unobserved
  exact ⟨begins, unobserved, stops, stops', same.answers⟩

end Server

end CacheAside
