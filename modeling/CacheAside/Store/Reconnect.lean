import CacheAside.Store.Backend

/-!
# Reconnecting once

`Backend.reconnecting` keeps a session of another backend open. A session that answers with a
connection error is given up and, unless it was opened for this very request, one attempt is made
to open another; the error is the answer all the same. A request that finds no open session first
makes one attempt to open one, and fails with that attempt if it fails. No request is sent twice.
-/

namespace CacheAside.Backend

variable {σ γ : Type}

/-- One attempt to open a session in place of one that is gone. -/
def reopen (b : Backend σ γ) (s : σ) : Logged (Except StoreError γ × σ) := do
  let (opened, s) ← b.connect s
  match opened with
  | .ok session =>
    Logged.report .connectionRestored
    return (.ok session, s)
  | .error cause => return (.error cause, s)

/-- The session that is open after `session` has been lost to `cause`. -/
def replace (b : Backend σ γ) (cause : StoreError) (s : σ) : Logged (Option γ × σ) := do
  Logged.report (.connectionLost cause)
  let (opened, s) ← b.reopen s
  match opened with
  | .ok session => return (some session, s)
  | .error cause =>
    Logged.report (.reconnectFailed cause)
    return (none, s)

/-- Sends a request to an open session. `isFresh` says that it was opened for this request. -/
def callOpen (b : Backend σ γ) (isFresh : Bool) (r : Request) (session : γ) (s : σ) :
    Logged (Reply × Option γ × σ) := do
  let (reply, session, s) ← b.call r session s
  match reply with
  | .failed cause =>
    if !cause.isConnection then return (reply, some session, s)
    else if isFresh then return (reply, none, s)
    else
      let (next, s) ← b.replace cause s
      return (reply, next, s)
  | _ => return (reply, some session, s)

/-- The connection of the wrapper is the open session, if there is one. -/
def reconnecting (b : Backend σ γ) : Backend σ (Option γ) where
  describe := b.describe
  connect s := do
    let (opened, s) ← b.connect s
    return (opened.map some, s)
  call r c s :=
    match c with
    | some session => b.callOpen false r session s
    | none => do
      Logged.report .connectionUnavailable
      let (opened, s) ← b.reopen s
      match opened with
      | .ok session => b.callOpen true r session s
      | .error cause => return (.failed cause, none, s)

end CacheAside.Backend
