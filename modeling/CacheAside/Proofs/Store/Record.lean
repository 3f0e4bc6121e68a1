import CacheAside.Store.Reconnect

/-!
# What a backend is asked

`Backend.recorded` is a backend that keeps a record of every attempt to connect and of every request
that is sent to one of its sessions, and is otherwise the backend that it records. As the
reconnecting wrapper works on any backend, what it asks of one can be read off the record of the
recorded one; `Backend.callAll_recorded` says that the record is all that is added.

`Backend.Called` lists what one call of the wrapper can ask, in each case with the answer and the
session that is open afterwards. `Backend.called` shows that there is nothing else.
-/

namespace CacheAside

/-- Something that a backend was asked, and what came of it. -/
inductive Contact (σ γ : Type)
  /-- An attempt to connect that was refused. -/
  | refused (cause : StoreError)
  /-- An attempt to connect that opened a session, and the store that it found. -/
  | opened (session : γ) (store : σ)
  /-- A request, sent to the session of this number. -/
  | called (number : Nat) (r : Request) (reply : Reply)

namespace Contact

variable {σ γ : Type}

@[simp] def isAttempt : Contact σ γ → Bool
  | .refused _ | .opened .. => true
  | .called .. => false

@[simp] def isCall : Contact σ γ → Bool
  | .called .. => true
  | .refused _ | .opened .. => false

/-- The session opened, and the store at that time. -/
def session? : Contact σ γ → Option (γ × σ)
  | .opened session store => some (session, store)
  | .refused _ | .called .. => none

/-- The request sent, with its reply, and the number of the session. -/
def call? : Contact σ γ → Option (Nat × Request × Reply)
  | .called number r reply => some (number, r, reply)
  | .refused _ | .opened .. => none

end Contact

/-- The sessions opened, in order. Their positions are their numbers. -/
def sessions {σ γ : Type} (contacts : List (Contact σ γ)) : List (γ × σ) :=
  contacts.filterMap Contact.session?

/-- A store, and what the backend in front of it was asked so far, the oldest first. -/
structure Recorded (σ γ : Type) where
  store : σ
  contacts : List (Contact σ γ) := []

namespace Backend

variable {σ γ : Type}

def recorded (b : Backend σ γ) : Backend (Recorded σ γ) (Nat × γ) where
  describe := b.describe
  connect s := do
    let (opened, store) ← b.connect s.store
    match opened with
    | .ok session =>
      return (.ok ((sessions s.contacts).length, session),
        { store, contacts := s.contacts ++ [.opened session store] })
    | .error cause => return (.error cause, { store, contacts := s.contacts ++ [.refused cause] })
  call r c s := do
    let (reply, session, store) ← b.call r c.2 s.store
    return (reply, (c.1, session), { store, contacts := s.contacts ++ [.called c.1 r reply] })

/-- Sends requests one after the other over one connection. -/
def callAll (b : Backend σ γ) : List Request → γ → σ → List Reply × γ × σ
  | [], c, s => ([], c, s)
  | r :: requests, c, s =>
    let (reply, c, s) := (b.call r c s).value
    let (replies, c, s) := b.callAll requests c s
    (reply :: replies, c, s)

theorem callAll_cons {b : Backend σ γ} {r : Request} {c c' : γ} {s s' : σ} {reply : Reply}
    (replied : (b.call r c s).value = (reply, c', s')) (requests : List Request) :
    b.callAll (r :: requests) c s =
      (reply :: (b.callAll requests c' s').1, (b.callAll requests c' s').2) := by
  rw [callAll, replied]

/-! ## What one call asks -/

/-- What a call of the wrapper asks of the backend when `n` sessions have been opened before it, the
open one among them: the contacts that it makes, and what it leaves. -/
inductive Called (b : Backend σ γ) (r : Request) (n : Nat) : Option (Nat × γ) → σ →
    List (Contact σ γ) → Reply × Option (Nat × γ) × σ → Prop
  /-- The open session has answered, and stays open. -/
  | served {number : Nat} {session session' : γ} {s s' : σ} {reply : Reply}
      (replied : (b.call r session s).value = (reply, session', s'))
      (sane : reply.isBroken = false) :
    Called b r n (some (number, session)) s [.called number r reply]
      (reply, some (number, session'), s')
  /-- The open session was broken, and another was opened. -/
  | replaced {number : Nat} {session session' next : γ} {s s' t : σ} {reply : Reply}
      (replied : (b.call r session s).value = (reply, session', s'))
      (broken : reply.isBroken = true) (connected : (b.connect s').value = (.ok next, t)) :
    Called b r n (some (number, session)) s [.called number r reply, .opened next t]
      (reply, some (n, next), t)
  /-- The open session was broken, and no other could be opened. -/
  | lost {number : Nat} {session session' : γ} {s s' t : σ} {reply : Reply} {cause : StoreError}
      (replied : (b.call r session s).value = (reply, session', s'))
      (broken : reply.isBroken = true) (connected : (b.connect s').value = (.error cause, t)) :
    Called b r n (some (number, session)) s [.called number r reply, .refused cause]
      (reply, none, t)
  /-- No session was open, and none could be opened. -/
  | unavailable {s t : σ} {cause : StoreError}
      (connected : (b.connect s).value = (.error cause, t)) :
    Called b r n none s [.refused cause] (.failed cause, none, t)
  /-- A session was opened for the request. -/
  | resumed {session session' : γ} {s s' t : σ} {reply : Reply}
      (connected : (b.connect s).value = (.ok session, t))
      (replied : (b.call r session t).value = (reply, session', s'))
      (sane : reply.isBroken = false) :
    Called b r n none s [.opened session t, .called n r reply] (reply, some (n, session'), s')
  /-- A session was opened for the request, and was broken at once. -/
  | dropped {session session' : γ} {s s' t : σ} {reply : Reply}
      (connected : (b.connect s).value = (.ok session, t))
      (replied : (b.call r session t).value = (reply, session', s'))
      (broken : reply.isBroken = true) :
    Called b r n none s [.opened session t, .called n r reply] (reply, none, s')

variable {b : Backend σ γ} {r : Request} {reply : Reply} {session session' next : γ} {s s' t : σ}
  {cause : StoreError}

/-- A reply that does not break the session is the answer, and the session stays open. -/
theorem value_callOpen_sane (replied : (b.call r session s).value = (reply, session', s'))
    (sane : reply.isBroken = false) (isFresh : Bool) :
    (b.callOpen isFresh r session s).value = (reply, some session', s') := by
  rw [callOpen, Logged.value_bind, replied]
  cases reply with
  | answered | crashed => rfl
  | failed cause =>
      have command : cause.isConnection = false := sane
      simp [command]

/-- A fresh session that breaks is given up, and no other is tried. -/
theorem value_callOpen_fresh (replied : (b.call r session s).value = (reply, session', s'))
    (broken : reply.isBroken = true) :
    (b.callOpen true r session s).value = (reply, none, s') := by
  rw [callOpen, Logged.value_bind, replied]
  cases reply with
  | answered | crashed => cases broken
  | failed cause =>
      have connection : cause.isConnection = true := broken
      simp [connection]

/-- An older session that breaks is replaced if the store lets one in, and not asked again. -/
theorem value_callOpen_broken (replied : (b.call r session s).value = (reply, session', s'))
    (broken : reply.isBroken = true) :
    (b.callOpen false r session s).value =
      (reply, (b.connect s').value.1.toOption, (b.connect s').value.2) := by
  rw [callOpen, Logged.value_bind, replied]
  cases reply with
  | answered | crashed => cases broken
  | failed cause =>
      have connection : cause.isConnection = true := broken
      simp only [connection, Bool.not_true, Bool.false_eq_true, if_false, Logged.value_bind,
        Logged.value_pure, replace, reopen]
      rcases (b.connect s').value with ⟨_ | next, t⟩ <;> rfl

/-- Without a session and without a new one, the refusal is the answer. -/
theorem value_reconnecting_refused (connected : (b.connect s).value = (.error cause, t)) :
    (b.reconnecting.call r none s).value = (.failed cause, none, t) := by
  simp only [reconnecting, reopen, Logged.value_bind, connected, Logged.value_pure]

theorem value_reconnecting_opened (connected : (b.connect s).value = (.ok session, t)) :
    (b.reconnecting.call r none s).value = (b.callOpen true r session t).value := by
  simp only [reconnecting, reopen, Logged.value_bind, connected, Logged.value_pure]

/-! ## The record -/

theorem value_recorded_call (replied : (b.call r session s).value = (reply, session', s'))
    (number : Nat) (contacts : List (Contact σ γ)) :
    (b.recorded.call r (number, session) ⟨s, contacts⟩).value =
      (reply, (number, session'), ⟨s', contacts ++ [.called number r reply]⟩) := by
  simp only [recorded, Logged.value_bind, replied, Logged.value_pure]

/-- A session that is opened goes on record, and its number is the next one. -/
theorem value_recorded_opened {contacts : List (Contact σ γ)}
    (connected : (b.connect s).value = (.ok session, t)) :
    (b.recorded.connect ⟨s, contacts⟩).value = (.ok ((sessions contacts).length, session),
      ⟨t, contacts ++ [.opened session t]⟩) := by
  simp only [recorded, Logged.value_bind, connected, Logged.value_pure]

theorem value_recorded_refused {contacts : List (Contact σ γ)}
    (connected : (b.connect s).value = (.error cause, t)) :
    (b.recorded.connect ⟨s, contacts⟩).value =
      (.error cause, ⟨t, contacts ++ [.refused cause]⟩) := by
  simp only [recorded, Logged.value_bind, connected, Logged.value_pure]

/-- A connection of the wrapper starts with its first session. -/
theorem exists_session_of_connected {c : Option (Nat × γ)} {t : Recorded σ γ}
    (connected : (b.recorded.reconnecting.connect { store := s }).value = (.ok c, t)) :
    ∃ session store, (b.connect s).value = (.ok session, store) ∧ c = some (0, session) ∧
      t = ⟨store, [.opened session store]⟩ := by
  rw [reconnecting, Logged.value_bind] at connected
  rcases opened : (b.connect s).value with ⟨cause | session, store⟩
  · rw [value_recorded_refused opened] at connected
    cases connected
  · rw [value_recorded_opened opened] at connected
    cases connected
    exact ⟨session, store, rfl, rfl, rfl⟩

theorem sessions_called (contacts : List (Contact σ γ)) (number : Nat) (r : Request)
    (reply : Reply) : sessions (contacts ++ [.called number r reply]) = sessions contacts := by
  rw [sessions, List.filterMap_append]
  exact List.append_nil _

/-- Every call of the wrapper asks one of these. -/
theorem called (b : Backend σ γ) (r : Request) (c : Option (Nat × γ)) (s : Recorded σ γ) :
    ∃ contacts reply c' t,
      (b.recorded.reconnecting.call r c s).value = (reply, c', ⟨t, s.contacts ++ contacts⟩) ∧
        Called b r (sessions s.contacts).length c s.store contacts (reply, c', t) := by
  rcases s with ⟨s, contacts⟩
  rcases c with _ | ⟨number, session⟩
  · rcases connected : (b.connect s).value with ⟨cause | session, t⟩
    · refine ⟨_, _, _, _, ?_, .unavailable connected⟩
      rw [value_reconnecting_refused (value_recorded_refused connected)]
    · rw [value_reconnecting_opened (value_recorded_opened connected)]
      rcases replied : (b.call r session t).value with ⟨reply, session', s'⟩
      have recorded := value_recorded_call replied (sessions contacts).length
        (contacts ++ [.opened session t])
      cases broken : reply.isBroken with
      | false =>
          refine ⟨_, _, _, _, ?_, .resumed connected replied broken⟩
          rw [value_callOpen_sane recorded broken, List.append_assoc]
          rfl
      | true =>
          refine ⟨_, _, _, _, ?_, .dropped connected replied broken⟩
          rw [value_callOpen_fresh recorded broken, List.append_assoc]
          rfl
  · have own : (b.recorded.reconnecting.call r (some (number, session)) ⟨s, contacts⟩) =
        b.recorded.callOpen false r (number, session) ⟨s, contacts⟩ := rfl
    rw [own]
    rcases replied : (b.call r session s).value with ⟨reply, session', s'⟩
    have recorded := value_recorded_call replied number contacts
    cases broken : reply.isBroken with
    | false =>
        refine ⟨_, _, _, _, ?_, .served replied broken⟩
        rw [value_callOpen_sane recorded broken]
    | true =>
        rw [value_callOpen_broken recorded broken]
        rcases connected : (b.connect s').value with ⟨cause | next, t⟩
        · refine ⟨_, _, _, _, ?_, .lost replied broken connected⟩
          rw [value_recorded_refused connected, List.append_assoc]
          rfl
        · refine ⟨_, _, _, _, ?_, .replaced replied broken connected⟩
          rw [value_recorded_opened connected, List.append_assoc, sessions_called]
          rfl

/-! ## The record is all that is added -/

/-- A connection of the wrapper without the number of its session. -/
def unnumbered (c : Option (Nat × γ)) : Option γ := c.map Prod.snd

/-- What a call makes of its contacts is what the wrapper makes of the backend itself. -/
theorem Called.value {n : Nat} {c c' : Option (Nat × γ)} {contacts : List (Contact σ γ)}
    (called : Called b r n c s contacts (reply, c', t)) :
    (b.reconnecting.call r (unnumbered c) s).value = (reply, unnumbered c', t) := by
  cases called with
  | served replied sane => exact value_callOpen_sane replied sane false
  | replaced replied broken connected =>
      refine (value_callOpen_broken replied broken).trans ?_
      rw [connected]
      rfl
  | lost replied broken connected =>
      refine (value_callOpen_broken replied broken).trans ?_
      rw [connected]
      rfl
  | unavailable connected => exact value_reconnecting_refused connected
  | resumed connected replied sane =>
      exact (value_reconnecting_opened connected).trans (value_callOpen_sane replied sane true)
  | dropped connected replied broken =>
      exact (value_reconnecting_opened connected).trans (value_callOpen_fresh replied broken)

/-- Calls of the wrapper on a recorded backend come to what they come to on the backend itself. -/
theorem callAll_recorded (b : Backend σ γ) (requests : List Request) (c : Option (Nat × γ))
    (s : Recorded σ γ) :
    b.reconnecting.callAll requests (unnumbered c) s.store =
      let (replies, c, s) := b.recorded.reconnecting.callAll requests c s
      (replies, unnumbered c, s.store) := by
  induction requests generalizing c s with
  | nil => rfl
  | cons r requests ih =>
      obtain ⟨contacts, reply, c', t, recorded, called⟩ := b.called r c s
      have later := ih c' ⟨t, s.contacts ++ contacts⟩
      rw [callAll_cons called.value, callAll_cons recorded, later]

end Backend

end CacheAside
