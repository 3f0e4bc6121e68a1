import CacheAside.Basic

/-!
# The recency order

What a cache means, without slots and links: the list of its pairs, most recently used first, and
the effect of each operation on that list. This is the model that the arena is compared with.
-/

namespace CacheAside

/-- The pairs of a cache, most recently used first. -/
abbrev Recency := List (Key × Value)

namespace Recency

/-- The value under `key`, leaving the order as it is. -/
def peek (r : Recency) (key : Key) : Option Value := r.lookup key

/-- The pairs under all other keys, in the order they had. -/
def without (r : Recency) (key : Key) : Recency := r.filter (·.1 ≠ key)

/-- A pair that is found moves to the front. -/
def get (r : Recency) (key : Key) : Option Value × Recency :=
  match r.peek key with
  | some value => (some value, (key, value) :: r.without key)
  | none => (none, r)

/-- A known key takes the new value and moves to the front, and nothing is displaced. A new key
goes to the front after the last pair has been dropped, if the list was full. -/
def put (capacity : Nat) (r : Recency) (key : Key) (value : Value) : Option Key × Recency :=
  match r.peek key with
  | some _ => (none, (key, value) :: r.without key)
  | none =>
    if r.length = capacity then (r.getLast?.map Prod.fst, (key, value) :: r.dropLast)
    else (none, (key, value) :: r)

/-- Forgets the pair under `key`, and says whether there was one. -/
def erase (r : Recency) (key : Key) : Bool × Recency :=
  match r.peek key with
  | some _ => (true, r.without key)
  | none => (false, r)

def keys (r : Recency) : List Key := r.map Prod.fst

end Recency

end CacheAside
