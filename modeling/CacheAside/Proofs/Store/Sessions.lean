import Mathlib.Data.List.Basic
import Mathlib.Data.List.Induction
import CacheAside.Proofs.Store.Record
import CacheAside.Store.Script

/-!
# One session after the other

Which requests the reconnecting wrapper sends to which session. `Backend.Course` is a record in
which every contact fits what is open at that time: a request goes to the open session, and an
attempt to connect is made only while none is open. Each call of the wrapper continues such a course
by one or two contacts (`Called.course`), so every run leaves one (`course_callAll`).

From the course alone it follows that the sessions take turns (`Backend.sessions_in_blocks`): the
requests of each stand together, in the order in which the sessions were opened; a session is given
up when, and only when, it is broken; and each answers as if it were alone.
-/

namespace CacheAside

variable {σ γ : Type}

/-- The requests sent, in order, each with the number of its session and the reply. -/
def calls (contacts : List (Contact σ γ)) : List (Nat × Request × Reply) :=
  contacts.filterMap Contact.call?

/-- The requests sent to one session, in order. -/
def block (number : Nat) (contacts : List (Contact σ γ)) : List (Request × Reply) :=
  ((calls contacts).filter (·.1 = number)).map Prod.snd

theorem calls_append (contacts later : List (Contact σ γ)) :
    calls (contacts ++ later) = calls contacts ++ calls later := List.filterMap_append

theorem block_append (number : Nat) (contacts later : List (Contact σ γ)) :
    block number (contacts ++ later) = block number contacts ++ block number later := by
  rw [block, calls_append, List.filter_append, List.map_append]
  rfl

theorem block_called (number : Nat) (r : Request) (reply : Reply) :
    block number [(.called number r reply : Contact σ γ)] = [(r, reply)] := by
  simp [block, calls, Contact.call?]

theorem block_called_of_ne {number other : Nat} (ne : other ≠ number) (r : Request)
    (reply : Reply) : block number [(.called other r reply : Contact σ γ)] = [] := by
  simp [block, calls, Contact.call?, ne]

theorem block_refused (number : Nat) (cause : StoreError) :
    block number [(.refused cause : Contact σ γ)] = [] := rfl

theorem block_opened (number : Nat) (session : γ) (store : σ) :
    block number [.opened session store] = [] := rfl

/-- A block is empty exactly if nothing was sent to its session. -/
theorem block_eq_nil_iff {number : Nat} {contacts : List (Contact σ γ)} :
    block number contacts = [] ↔ ∀ call ∈ calls contacts, call.1 ≠ number := by
  simp [block, List.filter_eq_nil_iff]

/-- The blocks of the first `n` sessions, one after the other. -/
def blocks (n : Nat) (contacts : List (Contact σ γ)) : List (Nat × Request × Reply) :=
  (List.range n).flatMap fun number => (block number contacts).map (number, ·)

theorem blocks_succ (n : Nat) (contacts : List (Contact σ γ)) :
    blocks (n + 1) contacts = blocks n contacts ++ (block n contacts).map (n, ·) := by
  simp [blocks, List.range_succ]

/-- What is sent to later sessions leaves the blocks as they are. -/
theorem blocks_append_of_block_eq_nil {n : Nat} {later : List (Contact σ γ)}
    (idle : ∀ number < n, block number later = []) (contacts : List (Contact σ γ)) :
    blocks n (contacts ++ later) = blocks n contacts := by
  refine List.flatMap_congr fun number inRange => ?_
  rw [block_append, idle number (List.mem_range.mp inRange), List.append_nil]

/-- A request to the newest session stands at the end. -/
theorem blocks_append_called (number : Nat) (r : Request) (reply : Reply)
    (contacts : List (Contact σ γ)) :
    blocks (number + 1) (contacts ++ [.called number r reply]) =
      blocks (number + 1) contacts ++ [(number, r, reply)] := by
  have older : ∀ other < number, block other [(.called number r reply : Contact σ γ)] = [] :=
    fun other less => block_called_of_ne (Nat.ne_of_gt less) r reply
  rw [blocks_succ, blocks_succ, blocks_append_of_block_eq_nil older, block_append, block_called,
    List.map_append, List.append_assoc]
  rfl

namespace Backend

variable {b : Backend σ γ} {r : Request} {reply : Reply} {n number : Nat}
  {c c' : Option (Nat × γ)} {s s' t : σ} {contact : Contact σ γ}
  {contacts earlier later : List (Contact σ γ)} {session session' : γ}

theorem sessions_refused (contacts : List (Contact σ γ)) (cause : StoreError) :
    sessions (contacts ++ [.refused cause]) = sessions contacts := by
  rw [sessions, List.filterMap_append]
  exact List.append_nil _

theorem sessions_opened (contacts : List (Contact σ γ)) (session : γ) (store : σ) :
    sessions (contacts ++ [.opened session store]) = sessions contacts ++ [(session, store)] :=
  List.filterMap_append

/-- Another request continues the session where the others have left it. -/
theorem callAll_concat {requests : List Request} {replies : List Reply}
    (ran : b.callAll requests session s = (replies, session', s')) {last : γ}
    (replied : (b.call r session' s').value = (reply, last, t)) :
    b.callAll (requests ++ [r]) session s = (replies ++ [reply], last, t) := by
  induction requests generalizing session s replies with
  | nil =>
      cases ran
      exact callAll_cons replied []
  | cons first requests ih =>
      rcases answered : (b.call first session s).value with ⟨reply', session'', s''⟩
      rcases rest : b.callAll requests session'' s'' with ⟨others, final⟩
      rw [callAll_cons answered, rest] at ran
      cases ran
      rw [List.cons_append, callAll_cons answered, ih rest]
      rfl

/-! ## A course of contacts -/

/-- A contact that fits what is open: the number of sessions before it is `n`, the open session and
the store are these before and after it. -/
inductive Fits (b : Backend σ γ) (n : Nat) : Option (Nat × γ) → σ → Contact σ γ →
    Option (Nat × γ) → σ → Prop
  | refused {s t : σ} {cause : StoreError} (connected : (b.connect s).value = (.error cause, t)) :
    Fits b n none s (.refused cause) none t
  | opened {session : γ} {s t : σ} (connected : (b.connect s).value = (.ok session, t)) :
    Fits b n none s (.opened session t) (some (n, session)) t
  | served {number : Nat} {session session' : γ} {s t : σ} {r : Request} {reply : Reply}
      (replied : (b.call r session s).value = (reply, session', t))
      (sane : reply.isBroken = false) :
    Fits b n (some (number, session)) s (.called number r reply) (some (number, session')) t
  | broken {number : Nat} {session session' : γ} {s t : σ} {r : Request} {reply : Reply}
      (replied : (b.call r session s).value = (reply, session', t))
      (broken : reply.isBroken = true) :
    Fits b n (some (number, session)) s (.called number r reply) none t

/-- A record all of whose contacts fit, with the session and the store that it leaves. -/
inductive Course (b : Backend σ γ) : List (Contact σ γ) → Option (Nat × γ) → σ → Prop
  | start (s : σ) : Course b [] none s
  | next {contacts : List (Contact σ γ)} {c c' : Option (Nat × γ)} {s t : σ}
      {contact : Contact σ γ} (course : Course b contacts c s)
      (fits : Fits b (sessions contacts).length c s contact c' t) :
    Course b (contacts ++ [contact]) c' t

/-- A call of the wrapper continues the course. -/
theorem Called.course (called : Called b r (sessions contacts).length c s later (reply, c', t))
    (course : Course b contacts c s) : Course b (contacts ++ later) c' t := by
  cases called with
  | served replied sane => exact course.next (.served replied sane)
  | replaced replied broken connected =>
      have closed := course.next (.broken replied broken)
      have reopened := closed.next (.opened connected)
      rw [sessions_called, List.append_assoc] at reopened
      exact reopened
  | lost replied broken connected =>
      have closed := course.next (.broken replied broken)
      have refused := closed.next (.refused connected)
      rw [List.append_assoc] at refused
      exact refused
  | unavailable connected => exact course.next (.refused connected)
  | resumed connected replied sane =>
      have reopened := course.next (.opened connected)
      have served := reopened.next (.served replied sane)
      rw [List.append_assoc] at served
      exact served
  | dropped connected replied broken =>
      have reopened := course.next (.opened connected)
      have closed := reopened.next (.broken replied broken)
      rw [List.append_assoc] at closed
      exact closed

/-- So does every run of it. -/
theorem course_callAll (requests : List Request) {c : Option (Nat × γ)} {s : Recorded σ γ}
    (course : Course b s.contacts c s.store) :
    let (_, c, s) := b.recorded.reconnecting.callAll requests c s
    Course b s.contacts c s.store := by
  induction requests generalizing c s with
  | nil => exact course
  | cons r requests ih =>
      obtain ⟨contacts, reply, c', t, recorded, called⟩ := b.called r c s
      rw [callAll_cons recorded]
      exact ih (called.course course)

namespace Course

/-- The open session is the one that was opened last. -/
theorem number_succ (course : Course b contacts (some (number, session)) s) :
    number + 1 = (sessions contacts).length := by
  generalize opened : some (number, session) = c at course
  induction course generalizing session with
  | start => cases opened
  | next course fits ih =>
      cases fits with
      | refused | broken => cases opened
      | opened =>
          cases opened
          rw [sessions_opened, List.length_append]
          rfl
      | served =>
          cases opened
          rw [sessions_called]
          exact ih rfl

/-- Every request went to a session that had been opened. -/
theorem lt_of_mem_calls (course : Course b contacts c s) {call : Nat × Request × Reply}
    (sent : call ∈ calls contacts) : call.1 < (sessions contacts).length := by
  induction course with
  | start => cases sent
  | next course fits ih =>
      rw [calls_append, List.mem_append] at sent
      cases fits with
      | refused =>
          rw [sessions_refused]
          exact ih (sent.resolve_right nofun)
      | opened =>
          rw [sessions_opened, List.length_append]
          exact Nat.lt_succ_of_lt (ih (sent.resolve_right nofun))
      | served | broken =>
          rw [sessions_called]
          rcases sent with before | new
          · exact ih before
          · rw [List.mem_singleton.mp new]
            exact Nat.lt_of_succ_le (Nat.le_of_eq course.number_succ)

/-- Nothing is sent to a session before it is opened. -/
theorem block_eq_nil (course : Course b contacts c s)
    (unopened : (sessions contacts).length ≤ number) : block number contacts = [] := by
  refine block_eq_nil_iff.mpr fun call sent same => ?_
  have opened := course.lt_of_mem_calls sent
  omega

/-- The requests come in one block a session, in the order in which the sessions were opened. -/
theorem calls_eq (course : Course b contacts c s) :
    calls contacts = blocks (sessions contacts).length contacts := by
  induction course with
  | start => rfl
  | @next contacts c c' s t contact course fits ih =>
      rw [calls_append, ih]
      cases fits with
      | refused =>
          rw [sessions_refused,
            blocks_append_of_block_eq_nil (fun number _ => block_refused number _) contacts]
          exact List.append_nil _
      | @opened session =>
          have idle := fun number (_ : number < (sessions contacts).length) =>
            block_opened number session t
          have unused := course.block_eq_nil (Nat.le_refl (sessions contacts).length)
          rw [sessions_opened, List.length_append, List.length_singleton, blocks_succ, block_append,
            unused, block_opened, blocks_append_of_block_eq_nil idle]
          rfl
      | @served number | @broken number =>
          rw [sessions_called, ← course.number_succ]
          exact (blocks_append_called number _ _ contacts).symm

/-- A session that is open has not been broken. -/
theorem sane_of_open (course : Course b contacts (some (number, session)) s) :
    ∀ call ∈ block number contacts, call.2.isBroken = false := by
  generalize opened : some (number, session) = c at course
  induction course generalizing session with
  | start => cases opened
  | next course fits ih =>
      intro call sent
      rw [block_append] at sent
      cases fits with
      | refused | broken => cases opened
      | opened =>
          cases opened
          rw [course.block_eq_nil (Nat.le_refl _)] at sent
          cases sent
      | served replied sane =>
          cases opened
          rw [block_called] at sent
          rcases List.mem_append.mp sent with before | new
          · exact ih rfl call before
          · rw [List.mem_singleton.mp new]
            exact sane

/-- Only the last request to a session can have broken it. -/
theorem sane (course : Course b contacts c s) (number : Nat) :
    ∀ call ∈ (block number contacts).dropLast, call.2.isBroken = false := by
  induction course with
  | start => exact nofun
  | next course fits ih =>
      rw [block_append]
      cases fits with
      | refused | opened =>
          rw [show block number [_] = [] from rfl, List.append_nil]
          exact ih
      | @served other | @broken other =>
          by_cases same : other = number
          · subst other
            rw [block_called, List.dropLast_concat]
            exact course.sane_of_open
          · rw [block_called_of_ne same, List.append_nil]
            exact ih

/-- A session that has been broken is not sent anything more. -/
theorem abandoned (course : Course b (earlier ++ .called number r reply :: later) c s)
    (broken : reply.isBroken = true) : ∀ call ∈ calls later, call.1 ≠ number := by
  have sane := course.sane number
  rw [← List.singleton_append, block_append, block_append, block_called] at sane
  refine block_eq_nil_iff.mp ?_
  by_contra more
  have inner : (r, reply) ∈
      (block number earlier ++ ([(r, reply)] ++ block number later)).dropLast := by
    rw [← List.append_assoc, List.dropLast_append_of_ne_nil more]
    simp
  rw [sane _ inner] at broken
  cases broken

/-- The last contact of a course fits what the others leave. -/
theorem prior (course : Course b (contacts ++ [contact]) c' t) :
    ∃ c s, Course b contacts c s ∧ Fits b (sessions contacts).length c s contact c' t := by
  generalize same : contacts ++ [contact] = all at course
  cases course with
  | start => simp at same
  | next course fits =>
      obtain ⟨rfl, last⟩ := List.append_inj' same rfl
      cases last
      exact ⟨_, _, course, fits⟩

theorem upTo (course : Course b (earlier ++ later) c s) : ∃ c s, Course b earlier c s := by
  induction later using List.reverseRecOn generalizing c s with
  | nil =>
      rw [List.append_nil] at course
      exact ⟨c, s, course⟩
  | append_singleton later contact ih =>
      rw [← List.append_assoc] at course
      obtain ⟨_, _, before, -⟩ := course.prior
      exact ih before

/-- The open session is in the state to which its requests have brought it. -/
theorem exists_opening (course : Course b contacts (some (number, session)) s) :
    ∃ first store, (sessions contacts)[number]? = some (first, store) ∧
      b.callAll ((block number contacts).map Prod.fst) first store =
        ((block number contacts).map Prod.snd, session, s) := by
  generalize opened : some (number, session) = c at course
  induction course generalizing session with
  | start => cases opened
  | next course fits ih =>
      rw [block_append]
      cases fits with
      | refused | broken => cases opened
      | opened =>
          cases opened
          rw [sessions_opened, course.block_eq_nil (Nat.le_refl _)]
          exact ⟨_, _, List.getElem?_concat_length, rfl⟩
      | served replied sane =>
          cases opened
          obtain ⟨first, store, known, ran⟩ := ih rfl
          rw [sessions_called, block_called, List.map_append, List.map_append]
          exact ⟨first, store, known, callAll_concat ran replied⟩

/-- Every session has answered as it would have done alone. -/
theorem alone (course : Course b contacts c s) {first : γ} {store : σ}
    (opened : (sessions contacts)[number]? = some (first, store)) :
    (b.callAll ((block number contacts).map Prod.fst) first store).1 =
      (block number contacts).map Prod.snd := by
  induction course with
  | start => cases opened
  | @next contacts c c' s t contact course fits ih =>
      rw [block_append]
      cases fits with
      | refused =>
          rw [sessions_refused] at opened
          rw [block_refused, List.append_nil]
          exact ih opened
      | opened =>
          rw [sessions_opened] at opened
          rw [block_opened, List.append_nil]
          by_cases older : number < (sessions contacts).length
          · rw [List.getElem?_append_left older] at opened
            exact ih opened
          · rw [course.block_eq_nil (Nat.le_of_not_lt older)]
            rfl
      | @served other _ _ _ _ _ _ replied | @broken other _ _ _ _ _ _ replied =>
          rw [sessions_called] at opened
          by_cases same : other = number
          · subst other
            obtain ⟨first', store', known, ran⟩ := course.exists_opening
            cases opened.symm.trans known
            rw [block_called, List.map_append, List.map_append]
            exact congrArg Prod.fst (callAll_concat ran replied)
          · rw [block_called_of_ne same, List.append_nil]
            exact ih opened

end Course

/-- A record after which no session is open: no attempt was made so far, or the last one was
refused, or the session that was opened last has just been broken. -/
inductive Closed : List (Contact σ γ) → Prop
  | start : Closed []
  | refused (contacts : List (Contact σ γ)) (cause : StoreError) :
    Closed (contacts ++ [.refused cause])
  | broken {number : Nat} {contacts : List (Contact σ γ)} {r : Request} {reply : Reply}
      (last : number + 1 = (sessions contacts).length) (broken : reply.isBroken = true) :
    Closed (contacts ++ [.called number r reply])

/-- A course that leaves no session ends in one of the three ways. -/
theorem Course.closed (course : Course b contacts none s) : Closed contacts := by
  generalize none : none = c at course
  cases course with
  | start => exact .start
  | next course fits =>
      cases fits with
      | opened | served => cases none
      | refused => exact .refused _ _
      | broken _ broken => exact .broken course.number_succ broken

/-- An attempt to connect is made only while no session is open. -/
theorem Course.needed (course : Course b (earlier ++ contact :: later) c s)
    (attempt : contact.isAttempt = true) : Closed earlier := by
  rw [← List.singleton_append, ← List.append_assoc] at course
  obtain ⟨_, _, attempted⟩ := course.upTo
  obtain ⟨_, _, before, fits⟩ := attempted.prior
  cases fits with
  | refused | opened => exact before.closed
  | served | broken => cases attempt

/-- What a record says of the sessions, if each takes its turn. -/
structure InTurn (b : Backend σ γ) (contacts : List (Contact σ γ)) : Prop where
  /-- The requests come in one block a session, in the order in which the sessions were opened. -/
  calls : calls contacts = blocks (sessions contacts).length contacts
  /-- No reply but the last of a block is an error of the connection. -/
  sane : ∀ number, ∀ call ∈ (block number contacts).dropLast, call.2.isBroken = false
  /-- After such an error a session is not sent anything more. -/
  abandoned : ∀ {earlier number r reply later},
    contacts = earlier ++ .called number r reply :: later → reply.isBroken = true →
      ∀ call ∈ CacheAside.calls later, call.1 ≠ number
  /-- As long as a session is open, no attempt is made to open another. -/
  needed : ∀ {earlier contact later}, contacts = earlier ++ contact :: later →
    contact.isAttempt = true → Closed earlier
  /-- Each session answers its requests as it does if they are all that is sent, from the store on
  that it was opened with. -/
  alone : ∀ {number first store}, (sessions contacts)[number]? = some (first, store) →
    (b.callAll ((block number contacts).map Prod.fst) first store).1 =
      (block number contacts).map Prod.snd

theorem Course.inTurn (course : Course b contacts c s) : InTurn b contacts where
  calls := course.calls_eq
  sane := course.sane
  abandoned same := (same ▸ course).abandoned
  needed same := (same ▸ course).needed
  alone := course.alone

/-- Whatever is sent over a connection of the reconnecting wrapper, the sessions that it opens take
turns. All of it is read off the record of the backend, which changes nothing. -/
theorem sessions_in_blocks {c : Option (Nat × γ)} {t : Recorded σ γ}
    (connected : (b.recorded.reconnecting.connect { store := s }).value = (.ok c, t))
    (requests : List Request) :
    let met := b.recorded.reconnecting.callAll requests c t
    InTurn b met.2.2.contacts ∧
      b.reconnecting.callAll requests (unnumbered c) t.store =
        (met.1, unnumbered met.2.1, met.2.2.store) := by
  obtain ⟨session, store, opened, rfl, rfl⟩ := exists_session_of_connected connected
  have course : Course b [.opened session store] (some (0, session)) store :=
    (Course.start s).next (.opened opened)
  exact ⟨(course_callAll requests course).inTurn, b.callAll_recorded requests _ _⟩

/-- Two sessions are broken under their second and their first request, an attempt between them is
refused, and the third session, which refuses a command only, is kept. -/
theorem sessions_in_blocks_mixed :
    let lost : StoreError := .connection "reset"
    let busy : StoreError := .command "busy"
    let script : List Line := [.done, .fails lost, .found "unread"]
    let rest : List Opening :=
      [.refused busy, .session [.fails lost], .session [.fails busy, .found "1"]]
    let b := Stage.backend
    let stage : Stage := { openings := .session script :: rest }
    let connected := (b.recorded.reconnecting.connect { store := stage }).value
    let t : Recorded Stage (List Line) := ⟨⟨rest, 1, 0⟩, [.opened script ⟨rest, 1, 0⟩]⟩
    let requests : List Request := [.put "a" "1", .get "a", .delete "a", .put "b" "2", .get "b"]
    let contacts := (b.recorded.reconnecting.callAll requests (some (0, script)) t).2.2.contacts
    connected = (.ok (some (0, script)), t) ∧
      (sessions contacts).map Prod.fst =
        [script, [.fails lost], [.fails busy, .found "1"]] ∧
      blocks 3 contacts = [(0, .put "a" "1", .answered none), (0, .get "a", .failed lost),
        (1, .delete "a", .failed lost), (2, .put "b" "2", .failed busy),
        (2, .get "b", .answered (some "1"))] ∧
      InTurn b contacts := by
  intro lost busy script rest b stage connected t requests contacts
  have opened : connected = (.ok (some (0, script)), t) := rfl
  exact ⟨opened, rfl, by decide, (sessions_in_blocks opened requests).1⟩

end Backend

namespace Stage

variable {contacts : List (Contact Stage (List Line))} {script : List Line} {stage : Stage}
  {number : Nat}

/-- A session that is asked on its own plays its script, and succeeds after the end of it. -/
theorem callAll_eq_script {requests : List Request} {n : Nat} (enough : requests.length ≤ n)
    (script : List Line) (stage : Stage) :
    (backend.callAll requests script stage).1 =
      List.zipWith Line.reply requests (script ++ List.replicate n .done) := by
  induction requests generalizing n script stage with
  | nil => rfl
  | cons r requests ih =>
      cases script with
      | nil =>
          cases n with
          | zero => cases enough
          | succ n =>
              exact congrArg (Reply.answered none :: ·) (ih (Nat.le_of_succ_le_succ enough) [] _)
      | cons line script =>
          exact congrArg (line.reply r :: ·) (ih (Nat.le_of_succ_le enough) script _)

/-- So it does if it takes turns with others. -/
theorem block_eq_script (turn : backend.InTurn contacts)
    (opened : (sessions contacts)[number]? = some (script, stage)) :
    (block number contacts).map Prod.snd =
      List.zipWith Line.reply ((block number contacts).map Prod.fst)
        (script ++ List.replicate (block number contacts).length .done) := by
  have enough : ((block number contacts).map Prod.fst).length ≤ (block number contacts).length :=
    Nat.le_of_eq (List.length_map _)
  rw [← turn.alone opened, callAll_eq_script enough]

end Stage

end CacheAside
