import CacheAside.Proofs.Store.Record
import CacheAside.Store.Script

/-!
# Reconnecting once and never sending twice

What the reconnecting wrapper does on each of its calls, over any backend and after any calls before
it (`Backend.reconnects_once`): it makes at most one attempt to connect, and that only if it finds
no open session or a broken one; it sends the request at most once; and it answers with what the
session has answered, or with the error of the attempt if no session could be asked.
-/

namespace CacheAside

namespace Backend

variable {σ γ : Type} {b : Backend σ γ} {r : Request} {n : Nat} {c c' : Option (Nat × γ)} {s t : σ}
  {contacts : List (Contact σ γ)} {reply : Reply}

/-- What a call of the wrapper keeps to, if it finds the connection `c`, makes these contacts,
answers `reply` and leaves the connection `c'`. -/
structure Once (r : Request) (c : Option (Nat × γ)) (contacts : List (Contact σ γ)) (reply : Reply)
    (c' : Option (Nat × γ)) : Prop where
  attempts_le : contacts.countP Contact.isAttempt ≤ 1
  calls_le : contacts.countP Contact.isCall ≤ 1
  /-- It tries to connect exactly if no session is open or the open one is broken by the request. -/
  attempts : (∃ contact ∈ contacts, contact.isAttempt = true) ↔
    c = none ∨ ∃ number session reply', c = some (number, session) ∧
      .called number r reply' ∈ contacts ∧ reply'.isBroken = true
  /-- The request reaches a session unless none is open and the attempt fails. -/
  reaches : (∃ contact ∈ contacts, contact.isCall = true) ↔
    ¬ (c = none ∧ ∃ cause, .refused cause ∈ contacts)
  /-- What is sent is the request, and what the session answers is the answer. -/
  answer : ∀ number r' reply', .called number r' reply' ∈ contacts → r' = r ∧ reply' = reply
  /-- If no session is asked, the answer is the error of the attempt. -/
  refusal : (∀ contact ∈ contacts, contact.isCall = false) →
    ∃ cause, .refused cause ∈ contacts ∧ reply = .failed cause
  /-- No session is open afterwards exactly if the attempt failed, or was made for the request and
  the new session was broken by it. -/
  closed : c' = none ↔ (∃ cause, .refused cause ∈ contacts) ∨
    ∃ session store number reply', contacts = [.opened session store, .called number r reply'] ∧
      reply'.isBroken = true

namespace Called

theorem attempts_le (called : Called b r n c s contacts (reply, c', t)) :
    contacts.countP Contact.isAttempt ≤ 1 := by
  cases called with
  | served => exact Nat.zero_le _
  | replaced | lost | unavailable | resumed | dropped => exact Nat.le_refl _

/-- A call sends its request at most once. -/
theorem calls_le (called : Called b r n c s contacts (reply, c', t)) :
    contacts.countP Contact.isCall ≤ 1 := by
  cases called with
  | unavailable => exact Nat.zero_le _
  | served | replaced | lost | resumed | dropped => exact Nat.le_refl _

/-- It attempts one exactly if no session is open, or if the open one breaks under the request. -/
theorem attempts (called : Called b r n c s contacts (reply, c', t)) :
    (∃ contact ∈ contacts, contact.isAttempt = true) ↔
      c = none ∨ ∃ number session reply', c = some (number, session) ∧
        .called number r reply' ∈ contacts ∧ reply'.isBroken = true := by
  cases called with
  | served _ sane => simp [sane]
  | replaced _ broken _ | lost _ broken _ => simp [broken]
  | unavailable | resumed | dropped => simp

/-- The request is sent unless there is no session and none to be had. -/
theorem reaches (called : Called b r n c s contacts (reply, c', t)) :
    (∃ contact ∈ contacts, contact.isCall = true) ↔
      ¬ (c = none ∧ ∃ cause, .refused cause ∈ contacts) := by
  cases called with
  | served | replaced | lost | unavailable | resumed | dropped => simp

theorem answer (called : Called b r n c s contacts (reply, c', t)) {number : Nat} {r' : Request}
    {reply' : Reply} (asked : .called number r' reply' ∈ contacts) : r' = r ∧ reply' = reply := by
  cases called with
  | served | replaced | lost | unavailable | resumed | dropped => simp_all

/-- If nothing was sent, the answer is the refusal of the attempt. -/
theorem refusal (called : Called b r n c s contacts (reply, c', t))
    (unasked : ∀ contact ∈ contacts, contact.isCall = false) :
    ∃ cause, .refused cause ∈ contacts ∧ reply = .failed cause := by
  cases called with
  | unavailable => exact ⟨_, List.mem_cons_self, rfl⟩
  | served | replaced | lost | resumed | dropped => simp at unasked

/-- No session is left exactly if the attempt was refused, or if the new session broke at once. -/
theorem closed (called : Called b r n c s contacts (reply, c', t)) :
    c' = none ↔ (∃ cause, .refused cause ∈ contacts) ∨
      ∃ session store number reply',
        contacts = [.opened session store, .called number r reply'] ∧
          reply'.isBroken = true := by
  cases called with
  | served | replaced | lost | unavailable => simp
  | resumed _ _ sane =>
      refine iff_of_false nofun ?_
      rintro (⟨cause, refused⟩ | ⟨_, _, _, _, same, broken⟩)
      · simp at refused
      · cases same
        rw [sane] at broken
        cases broken
  | dropped _ _ broken => exact iff_of_true rfl (.inr ⟨_, _, _, _, rfl, broken⟩)

theorem once (called : Called b r n c s contacts (reply, c', t)) :
    Once r c contacts reply c' where
  attempts_le := called.attempts_le
  calls_le := called.calls_le
  attempts := called.attempts
  reaches := called.reaches
  answer _ _ _ := called.answer
  refusal := called.refusal
  closed := called.closed

end Called

/-! ## All calls -/

/-- The attempts and the requests of a run, besides those that it finds on record. -/
theorem countP_callAll (b : Backend σ γ) (requests : List Request) (c : Option (Nat × γ))
    (s : Recorded σ γ) :
    (b.recorded.reconnecting.callAll requests c s).2.2.contacts.countP Contact.isAttempt ≤
        s.contacts.countP Contact.isAttempt + requests.length ∧
      (b.recorded.reconnecting.callAll requests c s).2.2.contacts.countP Contact.isCall ≤
        s.contacts.countP Contact.isCall + requests.length := by
  induction requests generalizing c s with
  | nil => exact ⟨Nat.le_refl _, Nat.le_refl _⟩
  | cons r requests ih =>
      obtain ⟨contacts, reply, c', t, recorded, called⟩ := b.called r c s
      have attempt := called.attempts_le
      have call := called.calls_le
      obtain ⟨attempts, calls⟩ := ih c' ⟨t, s.contacts ++ contacts⟩
      rw [List.countP_append] at attempts calls
      rw [callAll_cons recorded, List.length_cons]
      dsimp only
      constructor
      · omega
      · omega

/-- Whatever has been sent over a connection before, the next request makes at most one attempt to
connect and is sent at most once, each exactly if it has to be. After `n` requests no more than
`n + 1` attempts have been made, the one that opened the connection among them, and no more than `n`
requests have been sent. All of it is read off the record of the backend, which changes nothing. -/
theorem reconnects_once {c : Option (Nat × γ)} {t : Recorded σ γ}
    (connected : (b.recorded.reconnecting.connect { store := s }).value = (.ok c, t))
    (before : List Request) (r : Request) :
    let met := b.recorded.reconnecting.callAll before c t
    let left := (b.recorded.reconnecting.call r met.2.1 met.2.2).value
    (∃ contacts, left.2.2.contacts = met.2.2.contacts ++ contacts ∧
        Once r met.2.1 contacts left.1 left.2.1) ∧
      met.2.2.contacts.countP Contact.isAttempt ≤ before.length + 1 ∧
      met.2.2.contacts.countP Contact.isCall ≤ before.length ∧
      b.reconnecting.callAll before (unnumbered c) t.store =
        (met.1, unnumbered met.2.1, met.2.2.store) := by
  intro met left
  obtain ⟨contacts, reply, c', t', recorded, called⟩ := b.called r met.2.1 met.2.2
  obtain ⟨session, store, -, rfl, rfl⟩ := exists_session_of_connected connected
  obtain ⟨attempts, calls⟩ :=
    b.countP_callAll before (some (0, session)) ⟨store, [.opened session store]⟩
  have first : [Contact.opened session store].countP Contact.isAttempt = 1 := rfl
  refine ⟨⟨contacts, ?_⟩, ?_, ?_, b.callAll_recorded before _ _⟩
  · dsimp only [left]
    rw [recorded]
    exact ⟨rfl, called.once⟩
  · rw [first, Nat.add_comm] at attempts
    exact attempts
  · rw [List.countP_singleton, Contact.isCall, if_neg Bool.false_ne_true, Nat.zero_add] at calls
    exact calls

/-- A session breaks under its second request and the attempt to open another is refused; the next
request opens one that breaks at once, and the one after it opens one that stays. -/
theorem reconnects_once_after_breaks :
    let lost : StoreError := .connection "reset"
    let script : List Line := [.done, .fails lost]
    let rest : List Opening :=
      [.refused (.command "busy"), .session [.fails lost], .session [.found "1"]]
    let b := Stage.backend
    let stage : Stage := { openings := .session script :: rest }
    let connected := (b.recorded.reconnecting.connect { store := stage }).value
    let t : Recorded Stage (List Line) := ⟨⟨rest, 1, 0⟩, [.opened script ⟨rest, 1, 0⟩]⟩
    let requests : List Request := [.get "a", .put "a" "1", .delete "a"]
    let met := b.recorded.reconnecting.callAll requests (some (0, script)) t
    let left := (b.recorded.reconnecting.call (.get "a") met.2.1 met.2.2).value
    connected = (.ok (some (0, script)), t) ∧
      met.1 = [.answered none, .failed lost, .failed lost] ∧ met.2.1 = none ∧
      left.1 = .answered (some "1") ∧
      met.2.2.contacts.countP Contact.isAttempt = 3 ∧ 3 ≤ requests.length + 1 ∧
      ∃ contacts, left.2.2.contacts = met.2.2.contacts ++ contacts ∧
        Once (.get "a") none contacts (.answered (some "1")) left.2.1 := by
  intro lost script rest b stage connected t requests met left
  have opened : connected = (.ok (some (0, script)), t) := rfl
  obtain ⟨once, attempts, -, -⟩ := reconnects_once opened requests (.get "a")
  exact ⟨opened, rfl, rfl, rfl, rfl, attempts, once⟩

end Backend

end CacheAside
