import CacheAside.Proofs.Cache.Refinement

/-!
# No access goes astray

`Cache.entry?` answers `none` for a free slot and for a slot beyond the arena, and the operations
carry on as if the entry did not matter. The strict operations of this module do the same work in
the same order, but stop with a `Stray` at any access that does not meet an entry, at a full cache
without a last entry, and at a list that does not end. On a cache with a layout each of them gets
through, and ends as the operation itself.
-/

namespace CacheAside.Cache

/-- What an access can meet instead of what it expects. -/
inductive Stray
  | outside (slot : Nat)
  | vacant (slot : Nat)
  /-- There is no entry to displace. -/
  | noTail
  /-- The list goes on after as many entries as there are slots. -/
  | endless
  deriving DecidableEq, Repr

namespace Strict

/-! ## Accesses -/

def entry (c : Cache) (i : Nat) : Except Stray Entry :=
  match c.slots[i]? with
  | none => .error (.outside i)
  | some none => .error (.vacant i)
  | some (some e) => .ok e

/-- Slot `i` is about to be overwritten, whatever it holds. -/
def within (c : Cache) (i : Nat) : Except Stray Unit :=
  if i < c.slots.size then .ok () else .error (.outside i)

def modifyEntry (c : Cache) (i : Nat) (f : Entry → Entry) : Except Stray Cache := do
  let _ ← entry c i
  return c.modifyEntry i f

/-! ## The recency list -/

def joinNext (c : Cache) (p n : Option Nat) : Except Stray Cache :=
  match p with
  | some p => modifyEntry c p ({ · with next := n })
  | none => pure { c with head := n }

def joinPrev (c : Cache) (n p : Option Nat) : Except Stray Cache :=
  match n with
  | some n => modifyEntry c n ({ · with prev := p })
  | none => pure { c with tail := p }

def unlink (c : Cache) (i : Nat) : Except Stray Cache := do
  let e ← entry c i
  let c := c.modifyEntry i ({ · with prev := none, next := none })
  let c ← joinNext c e.prev e.next
  joinPrev c e.next e.prev

def pushFront (c : Cache) (i : Nat) : Except Stray Cache := do
  let front := c.head
  let c ← modifyEntry c i ({ · with prev := none, next := front })
  let c ← match front with
    | some h => modifyEntry c h ({ · with prev := some i })
    | none => pure c
  return { c with head := some i, tail := c.tail.or (some i) }

def promote (c : Cache) (i : Nat) : Except Stray Cache :=
  if c.head = some i then pure c else do pushFront (← unlink c i) i

def alloc (c : Cache) (key : Key) (value : Value) : Except Stray (Nat × Cache) := do
  match c.free with
  | i :: _ => within c i
  | [] => pure ()
  return c.alloc key value

def release (c : Cache) (i : Nat) : Except Stray Cache := do
  within c i
  return c.release i

def evictTail (c : Cache) : Except Stray (Option Key × Cache) :=
  match c.tail with
  | none => .error .noTail
  | some i => do
    let c ← unlink c i
    let e ← entry c i
    let c ← release c i
    return (some e.key, { c with lookup := c.lookup.erase e.key })

/-! ## Operations and observers -/

def get (c : Cache) (key : Key) : Except Stray (Option Value × Cache) :=
  match c.lookup[key]? with
  | none => pure (none, c)
  | some i => do
    let c ← promote c i
    return (some (← entry c i).value, c)

def add (c : Cache) (key : Key) (value : Value) : Except Stray Cache := do
  let (i, c) ← alloc c key value
  let c ← pushFront c i
  return { c with lookup := c.lookup.insert key i }

def put (c : Cache) (key : Key) (value : Value) : Except Stray (Option Key × Cache) :=
  match c.lookup[key]? with
  | some i => do
    let c ← modifyEntry c i ({ · with value := value })
    return (none, ← promote c i)
  | none => do
    let (evicted, c) ← if c.capacity ≤ c.lookup.size then evictTail c else pure (none, c)
    return (evicted, ← add c key value)

def erase (c : Cache) (key : Key) : Except Stray (Bool × Cache) :=
  match c.lookup[key]? with
  | none => pure (false, c)
  | some i => do
    let c ← unlink { c with lookup := c.lookup.erase key } i
    return (true, ← release c i)

def peek (c : Cache) (key : Key) : Except Stray (Option Value) :=
  match c.lookup[key]? with
  | none => pure none
  | some i => do return some (← entry c i).value

/-- The entries from slot `i` on, if there are at most `n`. -/
def walk (c : Cache) : Nat → Option Nat → Except Stray (List Entry)
  | _, none => pure []
  | 0, some _ => .error .endless
  | n + 1, some i => do
    let e ← entry c i
    return e :: (← walk c n e.next)

def keys (c : Cache) : Except Stray (List Key) := do
  return (← walk c c.slots.size c.head).map Entry.key

def perform (c : Cache) : Call → Except Stray (Return × Cache)
  | .put key value => do return (← put c key value).map .displaced id
  | .get key => do return (← get c key).map .found id
  | .erase key => do return (← erase c key).map .whether id
  | .peek key => do return (.found (← peek c key), c)
  | .contains key => pure (.whether (c.contains key), c)
  | .size => pure (.count c.size, c)
  | .isEmpty => pure (.whether c.isEmpty, c)
  | .keys => do return (.listed (← keys c), c)

end Strict

variable {c c' : Cache} {xs l r : List Cell} {x : Cell} {i : Nat} {e : Entry} {key : Key}

/-! ## Accesses that meet an entry -/

theorem ok_bind {α β : Type} {m : Except Stray α} {a : α} (f : α → Except Stray β)
    (done : m = .ok a) : (m >>= f) = f a := by
  rw [done]
  rfl

/-- An access to a slot that holds an entry finds it. -/
theorem strict_entry (here : c.entry? i = some e) : Strict.entry c i = .ok e := by
  rw [Cache.entry?, Option.join_eq_some_iff] at here
  rw [Strict.entry, here]

theorem strict_within (inside : i < c.slots.size) : Strict.within c i = .ok () := if_pos inside

/-- An entry that is there is changed as the lenient operation does it. -/
theorem strict_modifyEntry (occupied : (c.entry? i).isSome) (f : Entry → Entry) :
    Strict.modifyEntry c i f = .ok (c.modifyEntry i f) := by
  obtain ⟨e, here⟩ := Option.isSome_iff_exists.mp occupied
  rw [Strict.modifyEntry, ok_bind _ (strict_entry here)]
  rfl

/-- Every slot of a chain holds an entry. -/
theorem Chain.occupied {before after : Option Nat} (chain : c.Chain before xs after)
    (member : i ∈ xs.map Cell.slot) : (c.entry? i).isSome := by
  obtain ⟨x, inside, rfl⟩ := List.mem_map.mp member
  obtain ⟨prev, next, here⟩ := chain.entry inside
  exact Option.isSome_of_eq_some here

/-! ## The recency list -/

theorem strict_joinNext {p : Option Nat} (occupied : ∀ i, p = some i → (c.entry? i).isSome)
    (n : Option Nat) : Strict.joinNext c p n = .ok (c.joinNext p n) := by
  cases p with
  | none => rfl
  | some p => exact strict_modifyEntry (occupied p rfl) _

theorem strict_joinPrev {n : Option Nat} (occupied : ∀ i, n = some i → (c.entry? i).isSome)
    (p : Option Nat) : Strict.joinPrev c n p = .ok (c.joinPrev n p) := by
  cases n with
  | none => rfl
  | some n => exact strict_modifyEntry (occupied n rfl) _

/-- Unlinking a listed cell meets its own entry and those of its neighbours. -/
theorem Listed.strict_unlink (listed : c.Listed (l ++ x :: r)) :
    Strict.unlink c x.slot = .ok (c.unlink x.slot) := by
  obtain ⟨front, -, back⟩ := chain_append.mp listed.chain
  let detached := c.modifyEntry x.slot ({ · with prev := none, next := none })
  have detaching : c.Relinked detached := relinked_modifyEntry c _ _
  have joining := detaching.trans
    (relinked_joinNext detached (Cell.last none l) (Cell.first r none))
  have left : ∀ i, Cell.last none l = some i → (detached.entry? i).isSome := fun i last => by
    have inside := (Cell.mem_of_last last).resolve_left (fun start => nomatch start)
    rw [detaching.occupied]
    exact front.occupied inside
  have right : ∀ i, Cell.first r none = some i → (Cache.entry? (detached.joinNext
      (Cell.last none l) (Cell.first r none)) i).isSome := fun i first => by
    rw [joining.occupied]
    exact back.occupied (Cell.mem_of_first first)
  rw [unlink_eq_join listed.entry, Strict.unlink, ok_bind _ (strict_entry listed.entry)]
  exact (ok_bind _ (strict_joinNext left _)).trans (strict_joinPrev right _)

/-- Putting a loose cell in front meets its own entry and that of the old head. -/
theorem Loose.strict_pushFront (loose : c.Loose x xs) :
    Strict.pushFront c x.slot = .ok (c.pushFront x.slot) := by
  have linking := relinked_modifyEntry c x.slot ({ · with prev := none, next := c.head })
  have here := Option.isSome_of_eq_some loose.here
  rw [Strict.pushFront, ok_bind _ (strict_modifyEntry here _), Cache.pushFront]
  cases front : c.head with
  | none => rfl
  | some h =>
      rw [front] at linking
      have first := loose.listed.head.symm.trans front
      have occupied := loose.listed.chain.occupied (Cell.mem_of_first first)
      have second := strict_modifyEntry ((linking.occupied h).trans occupied)
        ({ · with prev := some x.slot })
      exact ok_bind _ second

/-- Moving a listed cell to the front meets only entries. -/
theorem Housed.strict_promote (housed : c.Housed (l ++ x :: r)) :
    Strict.promote c x.slot = .ok (c.promote x.slot) := by
  unfold Strict.promote promote
  split
  · rfl
  · rw [ok_bind _ housed.listed.strict_unlink]
    exact housed.unlink.strict_pushFront

theorem Housed.strict_alloc (housed : c.Housed xs) (key : Key) (value : Value) :
    Strict.alloc c key value = .ok (c.alloc key value) := by
  rw [Strict.alloc]
  cases given : c.free with
  | nil => rfl
  | cons i rest =>
      have member : i ∈ c.free ++ xs.map Cell.slot :=
        List.mem_append_left _ (given ▸ List.mem_cons_self)
      have inside := List.mem_range.mp (housed.arena.mem_iff.mp member)
      exact ok_bind _ (strict_within inside)

theorem Loose.strict_release (loose : c.Loose x xs) :
    Strict.release c x.slot = .ok (c.release x.slot) := by
  exact ok_bind _ (strict_within loose.fresh.2.2)

/-- Displacing the last cell meets only entries. -/
theorem Layout.strict_evictTail (layout : c.Layout (l ++ [x])) :
    Strict.evictTail c = .ok c.evictTail := by
  have tail : c.tail = some x.slot := layout.listed.tail.trans (Cell.last_append none l [x])
  have table := (relinked_unlink c x.slot).lookup
  have loose := layout.toHoused.unlink
  rw [layout.evictTail_cell, Strict.evictTail, tail]
  dsimp only
  rw [ok_bind _ layout.listed.strict_unlink, ok_bind _ (strict_entry loose.here),
    ok_bind _ loose.strict_release, Cache.remove, ← table]
  rfl

/-! ## Operations and observers -/

/-- A new key gets a slot and a place in front without a stray access. -/
theorem Housed.strict_add (housed : c.Housed xs) (key : Key) (value : Value) :
    Strict.add c key value = .ok (c.add key value) := by
  have loose := housed.alloc key value
  rw [Strict.add, ok_bind _ (housed.strict_alloc key value)]
  exact ok_bind _ loose.strict_pushFront

/-- A read makes no stray access. -/
theorem Layout.strict_get (layout : c.Layout xs) (key : Key) :
    Strict.get c key = .ok (c.get key) := by
  cases found : c.lookup[key]? with
  | none =>
      rw [Strict.get, found, get_missing found]
      rfl
  | some i =>
      obtain ⟨l, x, r, rfl, rfl, rfl⟩ := layout.exists_cell found
      have promoted : (c.promote x.slot).Listed ([] ++ x :: (l ++ r)) := layout.listed.promote
      rw [layout.get_cell, Strict.get, found]
      dsimp only
      rw [ok_bind _ layout.toHoused.strict_promote]
      exact ok_bind _ (strict_entry promoted.entry)

/-- Erasing a key makes no stray access. -/
theorem Layout.strict_erase (layout : c.Layout xs) (key : Key) :
    Strict.erase c key = .ok (c.erase key) := by
  cases found : c.lookup[key]? with
  | none =>
      rw [Strict.erase, found, erase_missing found]
      rfl
  | some i =>
      obtain ⟨l, x, r, rfl, rfl, rfl⟩ := layout.exists_cell found
      have housed := layout.toHoused.table (c.lookup.erase x.key)
      rw [erase, Strict.erase, found]
      dsimp only
      rw [ok_bind _ housed.listed.strict_unlink]
      exact ok_bind _ housed.unlink.strict_release

/-- A put makes no stray access in any of its three cases. -/
theorem Intact.strict_put (intact : c.Intact) (key : Key) (value : Value) :
    Strict.put c key value = .ok (c.put key value) := by
  cases intact.putCase key with
  | @known l r x layout here =>
      subst here
      have valued := layout.setValue value
      have occupied := Option.isSome_of_eq_some layout.listed.entry
      rw [put, Strict.put, layout.lookup_cell]
      dsimp only
      rw [ok_bind _ (strict_modifyEntry occupied _)]
      exact ok_bind _ valued.toHoused.strict_promote
  | new layout missing room =>
      have less : ¬ c.capacity ≤ c.lookup.size :=
        Nat.not_le_of_lt (layout.size_lookup ▸ room)
      rw [put_missing missing, Strict.put, missing]
      dsimp only
      rw [if_neg less, if_neg less]
      exact ok_bind _ (layout.toHoused.strict_add key value)
  | evicting layout missing full =>
      have crowded := layout.capacity_le_size full
      rw [put_missing missing, Strict.put, missing]
      dsimp only
      rw [if_pos crowded, if_pos crowded, ok_bind _ layout.strict_evictTail, layout.evictTail_cell]
      exact ok_bind _ (layout.remove_last.toHoused.strict_add key value)

theorem Layout.strict_peek (layout : c.Layout xs) (key : Key) :
    Strict.peek c key = .ok (c.peek key) := by
  cases found : c.lookup[key]? with
  | none =>
      rw [Strict.peek, peek, found]
      rfl
  | some i =>
      obtain ⟨l, x, r, rfl, rfl, rfl⟩ := layout.exists_cell found
      rw [Strict.peek, peek, found]
      dsimp only
      rw [ok_bind _ (strict_entry layout.listed.entry), layout.listed.entry]
      rfl

/-- Along a chain the walk meets entries only, and it ends with the chain. -/
theorem Chain.strict_walk {before : Option Nat} {n : Nat} (chain : c.Chain before xs none)
    (enough : xs.length ≤ n) :
    Strict.walk c n (Cell.first xs none) = .ok (c.walk n (Cell.first xs none)) := by
  induction xs generalizing before n with
  | nil => cases n <;> rfl
  | cons x rest ih =>
      obtain ⟨n, rfl⟩ : ∃ m, n = m + 1 := ⟨n - 1, by simp only [List.length_cons] at enough; omega⟩
      obtain ⟨here, later⟩ := chain
      have more := ih later (Nat.le_of_succ_le_succ enough)
      simp only [Cell.first, Strict.walk, Cache.walk, here]
      rw [ok_bind _ (strict_entry here)]
      exact ok_bind _ more

/-- Listing the keys walks over entries only, and within its budget. -/
theorem Layout.strict_keys (layout : c.Layout xs) : Strict.keys c = .ok c.keys := by
  have enough : xs.length ≤ c.slots.size := layout.size_slots ▸ Nat.le_add_left _ _
  rw [Strict.keys, keys, toList, layout.listed.head, List.map_map]
  exact ok_bind _ (layout.listed.chain.strict_walk enough)

/-- No call on an intact cache goes astray. -/
theorem Intact.strict_perform (intact : c.Intact) (call : Call) :
    Strict.perform c call = .ok (c.perform call) := by
  obtain ⟨-, xs, layout⟩ := id intact
  cases call with
  | put key value => exact ok_bind _ (intact.strict_put key value)
  | get key => exact ok_bind _ (layout.strict_get key)
  | erase key => exact ok_bind _ (layout.strict_erase key)
  | peek key => exact ok_bind _ (layout.strict_peek key)
  | keys => exact ok_bind _ layout.strict_keys
  | contains | size | isEmpty => rfl

end CacheAside.Cache
