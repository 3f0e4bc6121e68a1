import CacheAside.Cache.Basic

/-!
# Auditing a cache

`Cache.audit` walks the recency list once and compares it with the key table. It is meant for
any value of the type, also one whose links are broken or run in a circle: the walk visits at most
one slot more than the table has keys, so it always ends.
-/

namespace CacheAside.Cache

/-- What an audit can find, in the order in which it looks. -/
inductive Flaw
  /-- The table holds more keys than the capacity allows. -/
  | overCapacity (entries capacity : Nat)
  /-- A link leads to a slot that holds no entry. -/
  | freeSlot (slot : Nat)
  /-- An entry's `prev` is not the slot it was reached from. -/
  | backLink (key : Key)
  /-- The table does not lead from a listed key to the slot that holds it. -/
  | unmapped (key : Key)
  /-- The list has more entries than the table has keys. -/
  | tooLong
  /-- The last listed entry is not the tail. -/
  | openEnd
  /-- The list has fewer entries than the table has keys. -/
  | miscounted (listed mapped : Nat)
  deriving DecidableEq, Repr

def Flaw.message : Flaw → String
  | .overCapacity entries capacity => s!"{entries} entries exceed capacity {capacity}"
  | .freeSlot slot => s!"list points at free slot {slot}"
  | .backLink key => s!"broken back link at key '{key}'"
  | .unmapped key => s!"key '{key}' not mapped to its slot"
  | .tooLong => "recency list longer than lookup table"
  | .openEnd => "tail does not terminate the recency list"
  | .miscounted listed mapped => s!"recency list holds {listed} entries, lookup table {mapped}"

/-- Follows the list from `cursor`, reached from `prev` after `walked` entries, for at most `budget`
entries. The result is the last slot of the list and the number of entries. -/
def follow (c : Cache) : (budget walked : Nat) → (prev cursor : Option Nat) →
    Except Flaw (Option Nat × Nat)
  | _, walked, prev, none => .ok (prev, walked)
  | budget, walked, prev, some i =>
    match c.entry? i with
    | none => .error (.freeSlot i)
    | some e =>
      if e.prev ≠ prev then .error (.backLink e.key)
      else if c.lookup[e.key]? ≠ some i then .error (.unmapped e.key)
      else match budget with
        | 0 => .error .tooLong
        | budget + 1 => c.follow budget (walked + 1) (some i) e.next

/-- The first flaw of the recency list and the key table, or `ok` if they agree. -/
def audit (c : Cache) : Except Flaw Unit :=
  if c.capacity < c.lookup.size then .error (.overCapacity c.lookup.size c.capacity)
  else
    match c.follow c.lookup.size 0 none c.head with
    | .error flaw => .error flaw
    | .ok (last, walked) =>
      if last ≠ c.tail then .error .openEnd
      else if walked ≠ c.lookup.size then .error (.miscounted walked c.lookup.size)
      else .ok ()

end CacheAside.Cache
