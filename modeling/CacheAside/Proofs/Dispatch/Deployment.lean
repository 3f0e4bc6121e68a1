import CacheAside.Proofs.Store.Memory

/-!
# Operations over several connections

A `Deployment` is what operations act on: the cache and the counters that all of them share, the
connections they are sent over, and the store behind these. Its operations are dispatched one at a
time, each over a connection of its own choice.

Over the store in memory a run is a list of moves: operations, faults that come and go, and changes
of the store that the cache does not learn of.
-/

namespace CacheAside

/-- What operations share, their connections, and the store behind them. -/
structure Deployment (σ γ : Type) (n : Nat) where
  shared : Shared
  connections : Vector γ n
  store : σ

namespace Deployment

variable {σ γ : Type} {n : Nat}

def dispatch (b : Backend σ γ) (i : Fin n) (op : Operation) (d : Deployment σ γ n) :
    Logged (Result × Deployment σ γ n) := do
  let (result, shared, connection, store) ←
    CacheAside.dispatch b.answering op d.shared (d.connections[i], d.store)
  return (result, { shared, connections := d.connections.set i connection, store })

def cached (d : Deployment σ γ n) (key : Key) : Option Value := d.shared.cache.peek key

/-- Whichever connection carries it, an operation comes to one of the endings of a dispatch. -/
theorem ending {d : Deployment σ γ n} (intact : d.shared.cache.Intact) (b : Backend σ γ) (i : Fin n)
    (op : Operation) :
    ∃ connection, Dispatch.Ending b.answering d.shared (d.connections[i], d.store) op
      ((d.dispatch b i op).value.1, (d.dispatch b i op).value.2.shared, connection,
        (d.dispatch b i op).value.2.store) :=
  ⟨_, Dispatch.ending intact b.answering op (d.connections[i], d.store)⟩

end Deployment

/-! ## Runs over the store in memory -/

/-- A deployment over the store in memory, with faults in front of it. -/
abbrev InMemory (n : Nat) := Deployment (Faulty Table) Unit n

/-- What can happen to it. -/
inductive Move (n : Nat)
  | dispatch (connection : Fin n) (op : Operation)
  | inject (rule : FaultRule)
  | heal
  /-- The store takes a pair from elsewhere. -/
  | put (key : Key) (value : Value)
  /-- The store drops a key, told so from elsewhere. -/
  | delete (key : Key)
  deriving DecidableEq, Repr

/-- Whether the move is a change of the store under this key that the cache does not learn of. -/
def Move.changes {n : Nat} (key : Key) : Move n → Prop
  | .put changed _ => changed = key
  | .delete changed => changed = key
  | _ => False

namespace InMemory

variable {n : Nat}

/-- Nothing is cached or counted yet. -/
def fresh (capacity : Nat) (connections : Vector Unit n) (store : Faulty Table) : InMemory n :=
  { shared := .fresh capacity, connections, store }

/-- What the store has under a key. -/
def stored (d : InMemory n) (key : Key) : Option Value := d.store.store[key]?

def carryOut (d : InMemory n) (i : Fin n) (op : Operation) : Result × InMemory n :=
  (d.dispatch Memory.backend.faulty i op).value

/-- Changes the store directly. -/
def reach (d : InMemory n) (r : Request) : InMemory n :=
  { d with store := { d.store with store := (d.store.store.serve r).2 } }

def move (d : InMemory n) : Move n → InMemory n
  | .dispatch i op => (d.carryOut i op).2
  | .inject rule => { d with store := d.store.inject rule }
  | .heal => { d with store := d.store.heal }
  | .put key value => d.reach (.put key value)
  | .delete key => d.reach (.delete key)

def play (d : InMemory n) (moves : List (Move n)) : InMemory n := moves.foldl move d

theorem play_concat (d : InMemory n) (moves : List (Move n)) (m : Move n) :
    d.play (moves ++ [m]) = (d.play moves).move m := by
  rw [play, List.foldl_append]
  rfl

theorem intact_fresh {capacity : Nat} (positive : 0 < capacity) (connections : Vector Unit n)
    (store : Faulty Table) : (fresh capacity connections store).shared.cache.Intact :=
  .empty positive

/-- A deployment begins with nothing cached, whatever its store has. -/
theorem cached_fresh (capacity : Nat) (connections : Vector Unit n) (store : Faulty Table)
    (key : Key) : (fresh capacity connections store).cached key = none := by
  have missing : (Cache.empty capacity).lookup[key]? = none := Std.TreeMap.getElem?_emptyc
  rw [Deployment.cached, fresh, Shared.fresh, Cache.peek, missing]

variable {d : InMemory n} {key : Key} {value : Value}

/-- The same over the table in memory, where connections have no state. -/
theorem ending (intact : d.shared.cache.Intact) (i : Fin n) (op : Operation) :
    Dispatch.Ending Memory.backend.faulty.answering d.shared (d.connections[i], d.store) op
      ((d.carryOut i op).1, (d.carryOut i op).2.shared, (), (d.carryOut i op).2.store) := by
  obtain ⟨connection, ending⟩ := Deployment.ending intact Memory.backend.faulty i op
  exact ending

/-- An operation keeps the cache intact. -/
theorem intact_carryOut (intact : d.shared.cache.Intact) (i : Fin n) (op : Operation) :
    (d.carryOut i op).2.shared.cache.Intact := (ending intact i op).intact intact

theorem intact_move (intact : d.shared.cache.Intact) (m : Move n) :
    (d.move m).shared.cache.Intact := by
  cases m with
  | dispatch i op => exact intact_carryOut intact i op
  | inject | heal | put | delete => exact intact

/-- The cache is intact at every moment of a play. -/
theorem intact_play (intact : d.shared.cache.Intact) (moves : List (Move n)) :
    (d.play moves).shared.cache.Intact := by
  induction moves generalizing d with
  | nil => exact intact
  | cons m moves ih => exact ih (intact_move intact m)

end InMemory

end CacheAside
