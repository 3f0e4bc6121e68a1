import CacheAside.Log.Logged

/-!
# Backends

A backend opens connections to a store and serves requests on them. The store is shared by all
connections: `σ` is what it holds, `γ` is what one connection remembers, and both are handed
through every step. Nothing else is known of a backend, so the rules of the dispatcher and of the
reconnecting wrapper hold for each of them.
-/

namespace CacheAside

structure Backend (σ γ : Type) where
  /-- Names the store in the log, without any credentials. -/
  describe : String
  /-- Opens a connection. -/
  connect : σ → Logged (Except StoreError γ × σ)
  /-- Serves one request on a connection. -/
  call : Request → γ → σ → Logged (Reply × γ × σ)

end CacheAside
