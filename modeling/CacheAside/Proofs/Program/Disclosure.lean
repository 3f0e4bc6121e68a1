import Mathlib.Data.Bool.AllAny
import CacheAside.Log.Filter
import CacheAside.Proofs.Config.Environment
import CacheAside.Proofs.Program.Wording
import CacheAside.Proofs.Redis.Anonymity

/-!
# What a run discloses of the store URL

Two runs are compared whose store URLs differ only in credentials. A server does not look at its
store URL once the store is found (`Server.renamed`, `Program.serve_renamed`), and a store that
lets both in alike cannot tell them apart (`Program.served_alike`). What is left are the line of the
settings, which quotes the URL, and the text of a run whose store is not found. Both tell the URLs
apart, so two runs write the same exactly if neither is written: `Program.shown_alike_iff`.
-/

namespace CacheAside

open Redis (Alike InfoSwap ParameterSwap)

variable {σ γ κ : Type}

/-! ## Locations -/

namespace Location

open Url (isSchemeChar)

variable {url s s' : String} {l : Location} {e : StoreError} {scheme rest : List Char}

/-- Whether a URL is taken for that of a server. -/
def isRemote (url : String) : Bool := url.startsWith "redis://" || url.startsWith "redis+unix://"

theorem ofUrl_ok (found : ofUrl url = .ok l) : (isRemote url = false ∧ l = .memory) ∨
    isRemote url = true ∧ ∃ a, Redis.Address.ofString url = .ok a ∧ l = .redis a := by
  unfold ofUrl at found
  split at found
  · next near =>
      cases found
      refine .inl ⟨?_, rfl⟩
      rcases near with rfl | rfl <;> simp [isRemote]
  · split at found
    · next remote =>
        cases read : Redis.Address.ofString url with
        | ok a =>
            rw [read] at found
            cases found
            exact .inr ⟨remote, a, rfl, rfl⟩
        | error e =>
            rw [read] at found
            cases found
    · cases found

/-- A URL is unusable because of its scheme or because it gives no address. -/
theorem ofUrl_error (failed : ofUrl url = .error e) : (isRemote url = false ∧ e = unsupported url) ∨
    isRemote url = true ∧ ∃ cause : Redis.AddressError, e = cause.storeError := by
  unfold ofUrl at failed
  split at failed
  · cases failed
  · split at failed
    · next remote =>
        cases read : Redis.Address.ofString url with
        | ok a =>
            rw [read] at failed
            cases failed
        | error cause =>
            rw [read] at failed
            cases failed
            exact .inr ⟨remote, cause, rfl⟩
    · next other =>
        cases failed
        exact .inl ⟨Bool.eq_false_iff.mpr other, rfl⟩

/-- Only its scheme decides whether a URL is taken for that of a server. -/
theorem isRemote_of_scheme (schemed : ∀ c ∈ scheme, isSchemeChar c = true)
    (split : s.toList = scheme ++ ':' :: '/' :: '/' :: rest) :
    isRemote s = decide (scheme = "redis".toList ∨ scheme = "redis+unix".toList) := by
  have begins (name : List Char) {start : String} (named : ∀ c ∈ name, isSchemeChar c = true)
      (literal : start.toList = name ++ [':', '/', '/']) :
      s.startsWith start = true ↔ scheme = name := by
    constructor
    · intro starts
      have taken := Url.scheme_of_startsWith named literal starts
      rwa [split, Url.takeWhile_scheme schemed] at taken
    · rintro rfl
      rw [String.startsWith_string_iff, literal, split]
      exact ⟨rest, by simp⟩
  rw [Bool.eq_iff_iff, decide_eq_true_iff, isRemote, Bool.or_eq_true,
    begins "redis".toList (List.all_eq_true.mp (by decide)) (by decide),
    begins "redis+unix".toList (List.all_eq_true.mp (by decide)) (by decide)]

end Location

theorem Redis.InfoSwap.isRemote {s s' : String} (swap : InfoSwap s s') :
    Location.isRemote s' = Location.isRemote s := by
  obtain ⟨schemed, -, -, split, split'⟩ := swap
  rw [Location.isRemote_of_scheme schemed split, Location.isRemote_of_scheme schemed split']

theorem Redis.ParameterSwap.isRemote {s s' : String} (swap : ParameterSwap s s') :
    Location.isRemote s' = Location.isRemote s := by
  obtain ⟨schemed, -, -, -, -, -, -, -, -, split, split'⟩ := swap
  rw [Location.isRemote_of_scheme schemed split, Location.isRemote_of_scheme schemed split']

/-- URLs that differ in credentials are both of a server, or neither is. -/
theorem Redis.Alike.isRemote {s s' : String} (alike : Alike s s') :
    Location.isRemote s' = Location.isRemote s := by
  cases alike with
  | info swap => exact swap.isRemote
  | parameters swaps =>
      induction swaps with
      | single swap => exact swap.isRemote
      | tail _ swap ih => exact swap.isRemote.trans ih

/-! ## Servers -/

namespace Server

/-- The server with another store URL in its configuration. -/
def renamed (url : String) (s : Server σ γ) : Server σ γ :=
  { s with config := { s.config with storeUrl := url } }

variable {url : String} {s : Server σ γ}

theorem launch_renamed (address : Net.SocketAddress) (now task : Nat) :
    (s.renamed url).launch address now task =
      Prod.map id (renamed url) <$> s.launch address now task := by
  unfold launch
  dsimp only
  rw [map_bind]
  refine bind_congr fun brought => ?_
  obtain ⟨started, store⟩ := brought
  cases started with
  | error e => rfl
  | ok pool =>
      dsimp only
      simp only [map_bind, map_pure]
      rfl

/-- The store URL has no part in the start of a server. -/
theorem start_renamed (binding : Binding) (now task : Nat) :
    (s.renamed url).start binding now task =
      Prod.map id (renamed url) <$> s.start binding now task := by
  have valid : (s.renamed url).config.validate = s.config.validate := rfl
  have state : (s.renamed url).state = s.state := rfl
  have triggered : (s.renamed url).isTriggered = s.isTriggered := rfl
  unfold start
  rw [valid, state, triggered]
  split
  · rfl
  · split
    · rfl
    · split
      · rfl
      · split
        · rfl
        · exact launch_renamed _ now task

/-- The store URL has no part in the answer to a request. -/
theorem exchange_renamed (link : Link) (now : String) (r : Http.Request) :
    (s.renamed url).exchange link now r =
      Prod.map id (renamed url) <$> s.exchange link now r := by
  have running : (s.renamed url).running = s.running := rfl
  unfold exchange
  rw [running]
  split
  · rfl
  · rfl
  · rw [map_bind]
    rfl

theorem stop_renamed : (s.renamed url).stop = Prod.map id (renamed url) <$> s.stop := by
  have running : (s.renamed url).running = s.running := rfl
  unfold stop
  rw [running]
  split
  · rfl
  · simp only [map_bind, map_pure]
    rfl

end Server

namespace Program

variable {url : String} {s : Server σ γ}

theorem launch_renamed (binding : Binding) (now task : Nat) :
    launch (s.renamed url) binding now task =
      Prod.map id (Server.renamed url) <$> launch s binding now task := by
  unfold launch
  rw [Server.start_renamed, bind_map_left, map_bind]
  refine bind_congr fun started => ?_
  obtain ⟨_ | _, s⟩ := started <;> rfl

theorem exchangeAll_renamed (link : Link) (now : String) (requests : List Http.Request) :
    exchangeAll link now requests (s.renamed url) =
      Prod.map id (Server.renamed url) <$> exchangeAll link now requests s := by
  induction requests generalizing s with
  | nil => rfl
  | cons r rs ih =>
      unfold exchangeAll
      rw [Server.exchange_renamed, bind_map_left, map_bind]
      refine bind_congr fun exchanged => ?_
      obtain ⟨answer, s⟩ := exchanged
      dsimp only [Prod.map]
      rw [ih, bind_map_left, map_bind]
      rfl

theorem finish_renamed (signal : Signal) :
    finish (s.renamed url) signal = Server.renamed url <$> finish s signal := by
  have triggered : (s.renamed url).trigger = s.trigger.renamed url := rfl
  unfold finish
  rw [triggered, Server.stop_renamed]
  simp only [map_bind, bind_map_left, map_pure]
  rfl

/-- What a server serves, and what is reported on the way, does not depend on its store URL. -/
theorem serve_renamed (w : Surroundings σ κ) {τ : Type} (s : Server τ γ)
    (requests : List Http.Request) (signal : Signal) :
    serve w (s.renamed url) requests signal = serve w s requests signal := by
  have port : (s.renamed url).config.port = s.config.port := rfl
  unfold serve
  rw [port, launch_renamed, bind_map_left]
  refine bind_congr fun launched => ?_
  obtain ⟨_ | ⟨⟩, s⟩ := launched
  · rfl
  · dsimp only [Prod.map, id]
    rw [exchangeAll_renamed, bind_map_left]
    refine bind_congr fun exchanged => ?_
    obtain ⟨answers, s⟩ := exchanged
    dsimp only [Prod.map, id]
    rw [finish_renamed, bind_map_left]

/-- Serving ends well, or with a server that does not start. -/
theorem value_serve (w : Surroundings σ κ) {τ : Type} (s : Server τ γ)
    (requests : List Http.Request) (signal : Signal) :
    (∃ answers, (serve w s requests signal).value = .ok answers) ∨
      ∃ e, (serve w s requests signal).value = .error (.ofServer e) := by
  have launched : (∃ e, (launch s (w.binding s.config.port) w.uptime w.task).value.1 =
      .error (.ofServer e)) ∨
      (launch s (w.binding s.config.port) w.uptime w.task).value.1 = .ok () := by
    unfold launch
    rw [Logged.value_bind]
    obtain ⟨_ | _, s⟩ := (s.start (w.binding s.config.port) w.uptime w.task).value
    · exact .inl ⟨_, rfl⟩
    · exact .inr rfl
  unfold serve
  rw [Logged.value_bind]
  generalize (launch s (w.binding s.config.port) w.uptime w.task).value = found at launched
  obtain ⟨started, s⟩ := found
  rcases launched with ⟨e, failed⟩ | up
  · cases failed
    exact .inr ⟨e, rfl⟩
  · cases up
    exact .inl ⟨_, rfl⟩

/-! ## Runs -/

/-- A run with a store in a known place. -/
def served (w : Surroundings σ κ) (config : Config) (requests : List Http.Request)
    (signal : Signal) : Location → Logged Ending
  | .memory => serve w { config, backend := Memory.backend, store := {} } requests signal
  | .redis address =>
    let backend := Redis.backend w.transport address Redis.defaultTable
    serve w { config, backend, store := w.network } requests signal

variable {w : Surroundings σ κ} {env env' : Environment} {requests : List Http.Request}
  {signal : Signal} {l l' : Location} {config : Config} {u u' : String} {e : StoreError}

/-- Once the store is found, its URL has no part in the run. -/
theorem served_renamed (url : String) (l : Location) :
    served w { config with storeUrl := url } requests signal l =
      served w config requests signal l := by
  cases l with
  | memory =>
      exact serve_renamed w { config, backend := Memory.backend, store := {} } requests signal
  | redis address =>
      let backend := Redis.backend w.transport address Redis.defaultTable
      exact serve_renamed w { config, backend, store := w.network } requests signal

theorem storeUrl_ofEnvironment (set : env .storeUrl = some (.text u)) :
    (Config.ofEnvironment env).storeUrl = u := by
  unfold Config.ofEnvironment
  rw [Environment.text?_eq_some_iff.mpr set]
  rfl

/-- A run reports its settings first, and then looks for the store. -/
theorem run_eq (set : env .storeUrl = some (.text u)) : run w env requests signal = (do
    Logged.report .programStarted
    Logged.report (.configured (Config.ofEnvironment env))
    match Location.ofUrl u with
    | .ok l => served w (Config.ofEnvironment env) requests signal l
    | .error e => return .error (.ofStore u e)) := by
  have url := storeUrl_ofEnvironment set
  unfold run begin
  simp only [bind_assoc, url]
  refine bind_congr fun _ => bind_congr fun _ => ?_
  rcases Location.ofUrl u with e | _ | a <;> rfl

/-- A run with an unusable URL ends with the text of that failure. -/
theorem errorText_run_unusable (set : env .storeUrl = some (.text u))
    (failed : Location.ofUrl u = .error e) :
    errorText (run w env requests signal).value = (Failure.ofStore u e).text := by
  rw [run_eq set, failed]
  rfl

/-- A run that has found its store does not end with the text of one that has not. -/
theorem errorText_run_ne (set : env .storeUrl = some (.text u)) (found : Location.ofUrl u = .ok l)
    (url : String) (e : StoreError) :
    errorText (run w env requests signal).value ≠ (Failure.ofStore url e).text := by
  have ending : (∃ answers, (run w env requests signal).value = .ok answers) ∨
      ∃ f, (run w env requests signal).value = .error (.ofServer f) := by
    rw [run_eq set, found]
    cases l <;> exact value_serve w _ requests signal
  rcases ending with ⟨answers, ending⟩ | ⟨f, ending⟩
  · rw [ending, Failure.text_ofStore]
    intro same
    have texts := congrArg (·.toList.head?) same
    simp [errorText] at texts
  · rw [ending]
    exact (Failure.text_ofStore_ne url e f).symm

/-! ## Two runs -/

/-- Environments that differ in the store URL give configurations that do. -/
theorem ofEnvironment_renamed (set' : env' .storeUrl = some (.text u'))
    (others : ∀ v, v ≠ .storeUrl → env' v = env v) :
    Config.ofEnvironment env' = { Config.ofEnvironment env with storeUrl := u' } := by
  have text (v : Variable) (other : v ≠ .storeUrl) : env'.text? v = env.text? v := by
    rw [Environment.text?, Environment.text?, others v other]
  unfold Config.ofEnvironment Environment.port Environment.count Environment.number
  dsimp only
  rw [text .port (by decide), text .capacity (by decide), text .workers (by decide),
    text .queueDepth (by decide), text .statsInterval (by decide),
    Environment.text?_eq_some_iff.mpr set']
  rfl

/-- Two servers that differ only in how to log in are served from alike if they let both in
alike. -/
theorem served_alike (alike : Alike u u') (found : Location.ofUrl u = .ok l)
    (found' : Location.ofUrl u' = .ok l')
    (login : ∀ a a', Redis.Address.ofString u = .ok a → Redis.Address.ofString u' = .ok a' →
      ∀ connection s, Redis.authenticate w.transport a' { connection } s =
        Redis.authenticate w.transport a { connection } s) :
    served w config requests signal l' = served w config requests signal l := by
  have kind := alike.isRemote
  rcases Location.ofUrl_ok found with ⟨near, rfl⟩ | ⟨remote, a, read, rfl⟩ <;>
    rcases Location.ofUrl_ok found' with ⟨near', rfl⟩ | ⟨remote', a', read', rfl⟩
  · rfl
  · rw [near, remote'] at kind
    cases kind
  · rw [remote, near'] at kind
    cases kind
  · dsimp only [served]
    rw [Redis.backend_congr (alike.anonymous read read') (login a a' read read')]

/-- What the reason of an unusable URL quotes of it ends as many lines as the URL. -/
theorem lineEnds_ofUrl_error (failed : Location.ofUrl u = .error e) :
    Failure.lineEnds e.message.toList =
      if Location.isRemote u then 0 else Failure.lineEnds u.toList := by
  rcases Location.ofUrl_error failed with ⟨other, rfl⟩ | ⟨remote, cause, rfl⟩
  · have quoted : (Location.unsupported u).message =
        "Store connection error: " ++ ("unsupported store URL '" ++ u ++ "'") := rfl
    rw [other, if_neg Bool.false_ne_true, quoted, String.toList_append, String.toList_append,
      String.toList_append]
    simp [Failure.lineEnds]
  · have text : Failure.lineEnds cause.text.toList = 0 := by cases cause <;> decide +kernel
    have quoted : cause.storeError.message =
        "Store command failed: " ++ (cause.text ++ "- InvalidClientConfig") := rfl
    rw [remote, if_pos rfl, quoted, String.toList_append, String.toList_append,
      Failure.lineEnds_append, Failure.lineEnds_append, text]
    decide +kernel

/-- Two unusable URLs that differ only in credentials have different error texts. -/
theorem text_ofStore_alike_ne {e' : StoreError} (apart : u' ≠ u) (alike : Alike u u')
    (failed : Location.ofUrl u = .error e) (failed' : Location.ofUrl u' = .error e') :
    (Failure.ofStore u' e').text ≠ (Failure.ofStore u e).text := by
  refine fun same => apart (Failure.text_ofStore_inj ?_ ?_ same)
  all_goals
    rw [lineEnds_ofUrl_error failed, lineEnds_ofUrl_error failed', alike.isRemote]
    split <;> omega

/-! ## Simple surroundings -/

/-- An environment in which only the store URL is set. -/
def storeAt (url : String) : Environment
  | .storeUrl => some (.text url)
  | _ => none

/-- Surroundings in which every server is reached and answers `OK` to everything. -/
def obliging : Surroundings Unit Unit where
  transport :=
    { dial := fun _ s => (.ok (), s), send := fun _ c s => ([43, 79, 75, 13, 10], c, s) }
  network := ()
  binding := .ok
  link := .up
  uptime := 0
  now := ""
  task := 1

theorem authenticate_obliging (a : Redis.Address) :
    Redis.authenticate obliging.transport a { connection := () } () =
      (.ok (), { connection := () }, ()) := by
  unfold Redis.authenticate
  split <;> rfl

theorem standard_passes (c : Config) : Filter.standard.passes (.configured c) = true := by
  simp [Filter.standard, Filter.passes, Filter.closest?, Directive.names, Event.source,
    Event.level, Level.rank]

/-! ## What is written -/

/-- What can be read of a run: the lines of its log that a filter lets pass, and the text on the
error stream. -/
def shown (f : Filter) (run : Logged Ending) : List String × String :=
  ((run.events.filter f.passes).map Event.fullLine, errorText run.value)

/-- A filter cannot tell the settings from the rest of what the program itself reports. -/
theorem shown_begun (f : Filter) (config : Config) (rest : Logged Ending) :
    shown f (do
      Logged.report .programStarted
      Logged.report (.configured config)
      rest) =
    ((if f.passes (.configured config) then
        [Event.programStarted.fullLine, (Event.configured config).fullLine] else []) ++
      (shown f rest).1, (shown f rest).2) := by
  have starts : f.passes .programStarted = f.passes (.configured config) := rfl
  have events : (do
      Logged.report .programStarted
      Logged.report (.configured config)
      rest).events = .programStarted :: .configured config :: rest.events := rfl
  unfold shown
  rw [events]
  cases passes : f.passes (.configured config) <;> simp [starts, passes]

/-- The line of the settings tells two store URLs apart unless it is hidden. -/
theorem shown_begun_iff (apart : u' ≠ config.storeUrl) (f : Filter) (rest : Logged Ending) :
    (shown f (do
      Logged.report .programStarted
      Logged.report (.configured { config with storeUrl := u' })
      rest) =
    shown f (do
      Logged.report .programStarted
      Logged.report (.configured config)
      rest)) ↔ ∀ c, f.passes (.configured c) = false := by
  have hides (c : Config) : f.passes (.configured c) = f.passes .programStarted := rfl
  rw [shown_begun, shown_begun, Prod.mk.injEq]
  simp only [hides, and_true]
  cases passes : f.passes .programStarted with
  | false => simp
  | true =>
      rw [if_pos rfl, if_pos rfl]
      refine ⟨fun same => ?_, fun hidden => nomatch hidden config⟩
      have told := (List.cons.inj (List.cons.inj (List.append_cancel_right same)).2).1
      exact absurd (Event.fullLine_configured_inj (c := config) (u := config.storeUrl) told) apart

/-- A run writes the same for two URLs that differ only in credentials exactly if the filter hides
the settings and both URLs are usable: the line of the settings quotes the URL, and so does the
text of a failure to find the store. Nothing else that is written depends on credentials, as long
as the store lets both in alike. -/
theorem shown_alike_iff (set : env .storeUrl = some (.text u))
    (set' : env' .storeUrl = some (.text u')) (others : ∀ v, v ≠ .storeUrl → env' v = env v)
    (apart : u' ≠ u) (alike : Alike u u')
    (login : ∀ a a', Redis.Address.ofString u = .ok a → Redis.Address.ofString u' = .ok a' →
      ∀ connection s, Redis.authenticate w.transport a' { connection } s =
        Redis.authenticate w.transport a { connection } s)
    (f : Filter) (requests : List Http.Request) (signal : Signal) :
    shown f (run w env' requests signal) = shown f (run w env requests signal) ↔
      (∀ c, f.passes (.configured c) = false) ∧
        (∃ l, Location.ofUrl u = .ok l) ∧ ∃ l', Location.ofUrl u' = .ok l' := by
  have texts (same : shown f (run w env' requests signal) = shown f (run w env requests signal)) :
      errorText (run w env' requests signal).value = errorText (run w env requests signal).value :=
    congrArg Prod.snd same
  -- Whether a URL is usable can depend on its credentials: escapes in them have to be UTF-8.
  cases found : Location.ofUrl u with
  | ok l =>
      cases found' : Location.ofUrl u' with
      | ok l' =>
          have url := storeUrl_ofEnvironment set
          rw [run_eq set, run_eq set', found, found', ofEnvironment_renamed set' others]
          dsimp only
          rw [served_renamed u' l', served_alike alike found found' login,
            shown_begun_iff (url ▸ apart)]
          exact ⟨fun hidden => ⟨hidden, ⟨l, rfl⟩, l', rfl⟩, fun parts => parts.1⟩
      | error e' =>
          refine ⟨fun same => ?_, ?_⟩
          · exact absurd ((texts same).symm.trans (errorText_run_unusable set' found'))
              (errorText_run_ne set found u' e')
          · rintro ⟨-, -, l', usable⟩
            cases usable
  | error e =>
      refine ⟨fun same => ?_, ?_⟩
      · have unusable := (texts same).trans (errorText_run_unusable set found)
        cases found' : Location.ofUrl u' with
        | ok l' => exact absurd unusable (errorText_run_ne set' found' u e)
        | error e' =>
            exact absurd ((errorText_run_unusable set' found').symm.trans unusable)
              (text_ofStore_alike_ne apart alike found found')
      · rintro ⟨-, ⟨l, usable⟩, -⟩
        cases usable

/-- Two runs with a socket and different credentials in the query. With warnings only they write the
same, and with the filter of a program that has not been told they do not. -/
theorem shown_alike_socket :
    let url login := "redis+unix:///run/kv.sock?" ++ login
    let alice := run obliging (storeAt (url "user=alice&pass=secret")) [] .interrupt
    let bob := run obliging (storeAt (url "user=bob&pass=hunter2")) [] .interrupt
    let warnings : Filter := [⟨"kv_cache_server", 2, false⟩]
    Alike (url "user=alice&pass=secret") (url "user=bob&pass=hunter2") ∧
      shown warnings bob = shown warnings alice ∧
      shown Filter.standard bob ≠ shown Filter.standard alice := by
  intro url alice bob warnings
  have all {p : Char → Prop} [DecidablePred p] {cs : List Char} (every : cs.all (p ·) = true) :
      ∀ c ∈ cs, p c := List.all_iff_forall_prop.mp every
  have user : ParameterSwap (url "user=alice&pass=secret") (url "user=bob&pass=secret") :=
    @ParameterSwap.intro _ _ "redis+unix".toList "/run/kv.sock".toList [] "user".toList
      "alice".toList "bob".toList "&pass=secret".toList (all (by decide)) (all (by decide))
      (by decide) (.inl rfl) (all (by decide)) (by decide +kernel) (all (by decide))
      (all (by decide)) (.inr ⟨'&', "pass=secret".toList, rfl, by decide⟩) (by decide +kernel)
      (by decide +kernel)
  have pass : ParameterSwap (url "user=bob&pass=secret") (url "user=bob&pass=hunter2") :=
    @ParameterSwap.intro _ _ "redis+unix".toList "/run/kv.sock".toList "user=bob&".toList
      "pass".toList "secret".toList "hunter2".toList [] (all (by decide)) (all (by decide))
      (by decide) (.inr ⟨"user=bob".toList, rfl⟩) (all (by decide)) (by decide +kernel)
      (all (by decide)) (all (by decide)) (.inl rfl) (by decide +kernel) (by decide +kernel)
  have alike := Alike.parameters (.tail (.single user) pass)
  have usable : Location.ofUrl (url "user=alice&pass=secret") =
      .ok (.redis ⟨.socket "/run/kv.sock", 0, some "alice", some "secret"⟩) := by
    simp [url, Location.ofUrl]
    rfl
  have usable' : Location.ofUrl (url "user=bob&pass=hunter2") =
      .ok (.redis ⟨.socket "/run/kv.sock", 0, some "bob", some "hunter2"⟩) := by
    simp [url, Location.ofUrl]
    rfl
  have hidden (c : Config) : warnings.passes (.configured c) = false := by
    simp [warnings, Filter.passes, Filter.closest?, Directive.names, Event.source, Event.level,
      Level.rank]
  have others (v : Variable) (other : v ≠ .storeUrl) :
      storeAt (url "user=bob&pass=hunter2") v = storeAt (url "user=alice&pass=secret") v := by
    cases v <;> first | rfl | exact absurd rfl other
  have same (f : Filter) := shown_alike_iff (w := obliging) rfl rfl others (by decide) alike
    (fun a a' _ _ _ _ => (authenticate_obliging a').trans (authenticate_obliging a).symm)
    f [] .interrupt
  refine ⟨alike, (same warnings).mpr ⟨hidden, ⟨_, usable⟩, _, usable'⟩, fun told => ?_⟩
  exact absurd (((same Filter.standard).mp told).1 {}) (standard_passes {} ▸ nofun)

/-- Two URLs of a store that is not supported, the same but for credentials. The settings in the
log and the text on the error stream show the credentials of each. -/
theorem credentials_are_shown :
    let url login := "postgres://" ++ login ++ "@db/kv"
    let log url := ["INFO kv_cache_server: Starting KV Cache Server",
      "INFO kv_cache_server: Configuration loaded: port=8080, cache_size=1000, workers=8, " ++
        "queue_depth=1024, store=" ++ url ++ ", stats_interval=60s"]
    let text url := "Error: unusable store url '" ++ url ++ "'\n\nCaused by:\n" ++
      "    Store connection error: unsupported store URL '" ++ url ++ "'\n"
    let output url := shown Filter.standard (run obliging (storeAt url) [] .interrupt)
    Alike (url "alice:secret") (url "bob:hunter2") ∧
      output (url "alice:secret") = (log (url "alice:secret"), text (url "alice:secret")) ∧
      output (url "bob:hunter2") = (log (url "bob:hunter2"), text (url "bob:hunter2")) ∧
      output (url "bob:hunter2") ≠ output (url "alice:secret") := by
  intro url log text output
  have alike : Alike (url "alice:secret") (url "bob:hunter2") :=
    .info (@InfoSwap.intro _ _ "postgres".toList "alice:secret".toList "bob:hunter2".toList
      "db/kv".toList (List.all_eq_true.mp (by decide)) (List.all_iff_forall_prop.mp (by decide))
      (List.all_iff_forall_prop.mp (by decide)) (by decide +kernel) (by decide +kernel))
  have shows (name : String)
      (failed : Location.ofUrl (url name) = .error (Location.unsupported (url name))) :
      output (url name) = ([Event.programStarted.fullLine,
        (Event.configured { storeUrl := url name }).fullLine],
        (Failure.ofStore (url name) (Location.unsupported (url name))).text) := by
    have set : storeAt (url name) .storeUrl = some (.text (url name)) := rfl
    dsimp only [output]
    rw [run_eq set, failed, shown_begun, if_pos (standard_passes _)]
    rfl
  have alices : output (url "alice:secret") =
      (log (url "alice:secret"), text (url "alice:secret")) :=
    (shows _ (by simp [url, Location.ofUrl])).trans (by decide +kernel)
  have bobs : output (url "bob:hunter2") = (log (url "bob:hunter2"), text (url "bob:hunter2")) :=
    (shows _ (by simp [url, Location.ofUrl])).trans (by decide +kernel)
  refine ⟨alike, alices, bobs, ?_⟩
  rw [alices, bobs]
  decide +kernel

end Program

end CacheAside
