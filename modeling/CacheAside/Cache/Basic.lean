import CacheAside.Basic
import Std.Data.TreeMap

/-!
# The cache

A map of bounded size that forgets the least recently used pair first. Entries live in an arena
of slots and are linked, by slot number, into one list from the most recently used entry (`head`)
to the least recently used one (`tail`), so that using an entry relinks a constant number of
slots and moves nothing. `lookup` leads from a key to its slot, and slots given up by an erased
or evicted entry wait on the stack `free`.

`Cache.get`, `Cache.put` and `Cache.erase` are the operations; `Cache.peek`, `Cache.contains`,
`Cache.size` and `Cache.keys` observe without changing what counts as recent.
-/

namespace CacheAside

/-- A cached pair and its neighbours in the recency list: `prev` is the slot of the next more
recently used entry, `next` the slot of the next less recently used one. -/
structure Entry where
  key : Key
  value : Value
  prev : Option Nat := none
  next : Option Nat := none
  deriving DecidableEq, Repr

/-- The slot arena, the table that leads into it, and the two ends of the recency list. -/
structure Cache where
  /-- The number of entries above which a new key displaces an old one. -/
  capacity : Nat
  /-- The slot of each cached key. -/
  lookup : Std.TreeMap Key Nat := {}
  /-- The arena; `none` marks a slot that holds no entry. -/
  slots : Array (Option Entry) := #[]
  /-- The slots that can be used again, the one given up last first. -/
  free : List Nat := []
  /-- The most recently used entry. -/
  head : Option Nat := none
  /-- The least recently used entry, the next to be displaced. -/
  tail : Option Nat := none

namespace Cache

/-- A cache that could never hold an entry is refused. -/
inductive CapacityError
  | zero
  deriving DecidableEq, Repr

def CapacityError.message : CapacityError → String
  | .zero => "LRU capacity must be greater than 0"

/-- The cache of the given capacity that holds nothing. -/
def empty (capacity : Nat) : Cache := { capacity }

/-- An empty cache, unless its capacity is zero. -/
def create (capacity : Nat) : Except CapacityError Cache :=
  if capacity = 0 then .error .zero else .ok (empty capacity)

/-- The entry in slot `i`; a free slot and a slot beyond the arena hold none. -/
def entry? (c : Cache) (i : Nat) : Option Entry := c.slots[i]?.join

/-- Applies `f` to the entry in slot `i`, if there is one. -/
def modifyEntry (c : Cache) (i : Nat) (f : Entry → Entry) : Cache :=
  { c with slots := c.slots.modify i (·.map f) }

/-! ## The recency list -/

/-- Takes slot `i` out of the list and joins its neighbours. The entry stays in its slot. -/
def unlink (c : Cache) (i : Nat) : Cache :=
  match c.entry? i with
  | none => c
  | some e =>
    let c := c.modifyEntry i ({ · with prev := none, next := none })
    let c := match e.prev with
      | some p => c.modifyEntry p ({ · with next := e.next })
      | none => { c with head := e.next }
    match e.next with
    | some n => c.modifyEntry n ({ · with prev := e.prev })
    | none => { c with tail := e.prev }

/-- Puts the unlinked slot `i` in front of the list. -/
def pushFront (c : Cache) (i : Nat) : Cache :=
  let front := c.head
  let c := c.modifyEntry i ({ · with prev := none, next := front })
  let c := match front with
    | some h => c.modifyEntry h ({ · with prev := some i })
    | none => c
  { c with head := some i, tail := c.tail.or (some i) }

/-- Makes slot `i` the most recently used one. -/
def promote (c : Cache) (i : Nat) : Cache :=
  if c.head = some i then c else (c.unlink i).pushFront i

/-- Stores a detached entry, in a slot given up before if there is one, and says where. -/
def alloc (c : Cache) (key : Key) (value : Value) : Nat × Cache :=
  match c.free with
  | i :: rest =>
    (i, { c with slots := c.slots.setIfInBounds i (some { key, value }), free := rest })
  | [] => (c.slots.size, { c with slots := c.slots.push (some { key, value }) })

/-- Empties slot `i` and keeps it for later use. -/
def release (c : Cache) (i : Nat) : Cache :=
  { c with slots := c.slots.setIfInBounds i none, free := i :: c.free }

/-- Displaces the least recently used entry and gives its key. -/
def evictTail (c : Cache) : Option Key × Cache :=
  match c.tail with
  | none => (none, c)
  | some i =>
    let c := c.unlink i
    match c.entry? i with
    | none => (none, c)
    | some e =>
      let c := c.release i
      (some e.key, { c with lookup := c.lookup.erase e.key })

/-! ## Operations -/

/-- The value under `key`, which becomes the most recently used key if it is there. -/
def get (c : Cache) (key : Key) : Option Value × Cache :=
  match c.lookup[key]? with
  | none => (none, c)
  | some i =>
    let c := c.promote i
    ((c.entry? i).map Entry.value, c)

/-- Keeps `value` under `key` as the most recently used pair. A new key displaces the least
recently used one when the cache is full; the displaced key is the result. -/
def put (c : Cache) (key : Key) (value : Value) : Option Key × Cache :=
  match c.lookup[key]? with
  | some i => (none, (c.modifyEntry i ({ · with value := value })).promote i)
  | none =>
    let (evicted, c) := if c.capacity ≤ c.lookup.size then c.evictTail else (none, c)
    let (i, c) := c.alloc key value
    let c := c.pushFront i
    (evicted, { c with lookup := c.lookup.insert key i })

/-- Forgets `key`, and says whether it was there. -/
def erase (c : Cache) (key : Key) : Bool × Cache :=
  match c.lookup[key]? with
  | none => (false, c)
  | some i => (true, ({ c with lookup := c.lookup.erase key }.unlink i).release i)

/-! ## Observations -/

/-- The value under `key`, leaving its recency as it is. -/
def peek (c : Cache) (key : Key) : Option Value :=
  match c.lookup[key]? with
  | none => none
  | some i => (c.entry? i).map Entry.value

def contains (c : Cache) (key : Key) : Bool := c.lookup.contains key

def size (c : Cache) : Nat := c.lookup.size

def isEmpty (c : Cache) : Bool := c.lookup.isEmpty

/-- The entries met from slot `i` on along `next`, at most `n` of them. -/
def walk (c : Cache) : Nat → Option Nat → List Entry
  | n + 1, some i =>
    match c.entry? i with
    | some e => e :: c.walk n e.next
    | none => []
  | _, _ => []

/-- The cached pairs, most recently used first. The list links each slot at most once, so as many
steps as there are slots reach its end. -/
def toList (c : Cache) : List (Key × Value) :=
  (c.walk c.slots.size c.head).map fun e => (e.key, e.value)

/-- The cached keys, most recently used first. -/
def keys (c : Cache) : List Key := c.toList.map Prod.fst

end Cache

end CacheAside
