import CacheAside.Cache.Audit
import CacheAside.Proofs.Cache.Strict

/-!
# The representation of a reachable cache

`Cache.Represented` spells the invariant out in terms of the fields of a cache: where the links
lead, what the slots hold, what the table and the free slots list. Every cache that `put`, `get` and
`erase` can make out of a new one is represented in this way, on it no access goes astray, and an
audit finds nothing.
-/

namespace CacheAside.Cache

/-- Following `step` from `cursor` visits the slots `order`, all of them occupied, and then ends. -/
def Trail (c : Cache) (step : Entry → Option Nat) : (cursor : Option Nat) → List Nat → Prop
  | cursor, [] => cursor = none
  | cursor, i :: rest => cursor = some i ∧ ∃ e, c.entry? i = some e ∧ c.Trail step (step e) rest

/-- The recency list visits the slots `order`, and the rest of the cache agrees with it. -/
structure Represented (c : Cache) (order : List Nat) : Prop where
  forward : c.Trail Entry.next c.head order
  backward : c.Trail Entry.prev c.tail order.reverse
  nodup : order.Nodup
  tail : c.tail = order.getLast?
  head_eq_none : c.head = none ↔ c.isEmpty
  tail_eq_none : c.tail = none ↔ c.isEmpty
  /-- The visited slots are the occupied ones. -/
  occupied : ∀ i, i ∈ order ↔ (c.entry? i).isSome
  /-- The table leads from each stored key to its own slot, and knows no other key. -/
  mapped : ∀ key i, c.lookup[key]? = some i ↔ ∃ e, c.entry? i = some e ∧ e.key = key
  free_nodup : c.free.Nodup
  /-- The free slots are the slots of the arena that hold nothing. -/
  free : ∀ i, i ∈ c.free ↔ c.Vacant i
  count : c.lookup.size + c.free.length = c.slots.size
  bounded : c.lookup.size ≤ c.capacity

/-- The caches that operations make out of a new one. There is none of capacity zero. -/
inductive Reachable (capacity : Nat) : Cache → Prop
  | new {c : Cache} (created : create capacity = .ok c) : Reachable capacity c
  | put {c : Cache} (key : Key) (value : Value) (before : Reachable capacity c) :
      Reachable capacity (c.put key value).2
  | get {c : Cache} (key : Key) (before : Reachable capacity c) : Reachable capacity (c.get key).2
  | erase {c : Cache} (key : Key) (before : Reachable capacity c) :
      Reachable capacity (c.erase key).2

variable {c : Cache} {xs l r : List Cell} {x : Cell} {capacity i : Nat}

/-- Whatever calls have made the cache, it is intact and has the capacity it began with. -/
theorem Reachable.intact (reachable : Reachable capacity c) :
    c.Intact ∧ c.capacity = capacity := by
  induction reachable with
  | @new c created =>
      unfold create at created
      split at created
      next => cases created
      next nonzero =>
        cases created
        exact ⟨Intact.empty (Nat.pos_of_ne_zero nonzero), rfl⟩
  | put key value _ ih =>
      exact ⟨(ih.1.put_refines key value).1, (capacity_put _ key value).trans ih.2⟩
  | get key _ ih => exact ⟨(ih.1.get_refines key).1, (capacity_get _ key).trans ih.2⟩
  | erase key _ ih => exact ⟨(ih.1.erase_refines key).1, (capacity_erase _ key).trans ih.2⟩

/-! ## Both ways along the list -/

/-- The links to the next cell visit the cells of a chain in order. -/
theorem Chain.forward {before : Option Nat} (chain : c.Chain before xs none) :
    c.Trail Entry.next (Cell.first xs none) (xs.map Cell.slot) := by
  induction xs generalizing before with
  | nil => rfl
  | cons x rest ih =>
      obtain ⟨here, later⟩ := chain
      exact ⟨rfl, _, here, ih later⟩

/-- The links to the previous cell visit the cells of a chain in the opposite order. -/
theorem Chain.backward {after : Option Nat} (chain : c.Chain none xs after) :
    c.Trail Entry.prev (Cell.last none xs) (xs.map Cell.slot).reverse := by
  -- The trail begins at the last cell, so the induction is on the reversed list.
  generalize reversed : xs.reverse = ys
  induction ys generalizing xs after with
  | nil =>
      rw [List.reverse_eq_nil_iff] at reversed
      subst reversed
      rfl
  | cons y ys ih =>
      obtain rfl : xs = ys.reverse ++ [y] := by
        rw [← List.reverse_reverse xs, reversed, List.reverse_cons]
      obtain ⟨front, here, -⟩ := chain_append.mp chain
      rw [Cell.last_append, List.map_append, List.map_singleton, List.reverse_concat]
      exact ⟨rfl, _, here, ih front (List.reverse_reverse ys)⟩

/-! ## The slots of the arena -/

/-- A slot of the arena is free or belongs to a cell of the list. -/
theorem Housed.slot_cases (housed : c.Housed xs) (inside : i < c.slots.size) :
    i ∈ c.free ∨ i ∈ xs.map Cell.slot :=
  List.mem_append.mp (housed.arena.mem_iff.mpr (List.mem_range.mpr inside))

theorem entry?_of_vacant (vacant : c.Vacant i) : c.entry? i = none := by
  rw [Vacant] at vacant
  rw [Cache.entry?, vacant]
  rfl

/-- The slots with an entry are those of the list. -/
theorem Housed.occupied (housed : c.Housed xs) :
    i ∈ xs.map Cell.slot ↔ (c.entry? i).isSome := by
  refine ⟨housed.listed.chain.occupied, fun occupied => ?_⟩
  obtain ⟨e, here⟩ := Option.isSome_iff_exists.mp occupied
  have inside : i < c.slots.size := by
    rw [Cache.entry?, Option.join_eq_some_iff] at here
    exact (Array.getElem?_eq_some_iff.mp here).1
  refine (housed.slot_cases inside).resolve_left fun given => ?_
  rw [entry?_of_vacant (housed.vacant i given)] at here
  cases here

/-- The slots without an entry are those that are kept for later use. -/
theorem Housed.free (housed : c.Housed xs) : i ∈ c.free ↔ c.Vacant i := by
  refine ⟨housed.vacant i, fun vacant => ?_⟩
  have inside : i < c.slots.size := (Array.getElem?_eq_some_iff.mp vacant).1
  refine (housed.slot_cases inside).resolve_right fun listed => ?_
  have occupied := housed.occupied.mp listed
  rw [entry?_of_vacant vacant] at occupied
  cases occupied

/-- The table leads from a key to a slot exactly if the entry there has the key. -/
theorem Layout.mapped (layout : c.Layout xs) (key : Key) :
    c.lookup[key]? = some i ↔ ∃ e, c.entry? i = some e ∧ e.key = key := by
  constructor
  · intro found
    obtain ⟨l, x, r, rfl, rfl, rfl⟩ := layout.exists_cell found
    exact ⟨_, layout.listed.entry, rfl⟩
  · rintro ⟨e, here, rfl⟩
    have listed := layout.toHoused.occupied.mpr (Option.isSome_of_eq_some here)
    obtain ⟨x, member, rfl⟩ := List.mem_map.mp listed
    obtain ⟨l, r, rfl⟩ := List.append_of_mem member
    have entry := layout.listed.entry
    rw [here] at entry
    cases entry
    exact layout.lookup_cell

/-! ## Both ends -/

theorem Cell.last_eq_getLast? (xs : List Cell) :
    Cell.last none xs = (xs.map Cell.slot).getLast? := by
  rcases List.eq_nil_or_concat xs with rfl | ⟨l, x, rfl⟩
  · rfl
  · rw [List.concat_eq_append, Cell.last_append, List.map_append, List.map_singleton,
      List.getLast?_concat]
    rfl

theorem Layout.isEmpty_iff (layout : c.Layout xs) : c.isEmpty ↔ xs = [] := by
  rw [isEmpty, Std.TreeMap.isEmpty_eq_size_eq_zero, layout.size_lookup, beq_iff_eq,
    List.length_eq_zero_iff]

theorem Layout.head_eq_none (layout : c.Layout xs) : c.head = none ↔ c.isEmpty := by
  rw [layout.isEmpty_iff, layout.listed.head]
  cases xs <;> simp [Cell.first]

theorem Layout.tail_eq_none (layout : c.Layout xs) : c.tail = none ↔ c.isEmpty := by
  rw [layout.isEmpty_iff, layout.listed.tail, Cell.last_eq_getLast?, List.getLast?_eq_none_iff,
    List.map_eq_nil_iff]

theorem Layout.represented (layout : c.Layout xs) : c.Represented (xs.map Cell.slot) where
  forward := by
    rw [layout.listed.head]
    exact layout.listed.chain.forward
  backward := by
    rw [layout.listed.tail]
    exact layout.listed.chain.backward
  nodup := layout.listed.nodup
  tail := layout.listed.tail.trans (Cell.last_eq_getLast? xs)
  head_eq_none := layout.head_eq_none
  tail_eq_none := layout.tail_eq_none
  occupied _ := layout.toHoused.occupied
  mapped key _ := layout.mapped key
  free_nodup := (List.nodup_append.mp (layout.arena.nodup_iff.mpr List.nodup_range)).1
  free _ := layout.toHoused.free
  count := by
    rw [layout.size_lookup, Nat.add_comm]
    exact layout.size_slots
  bounded := layout.size_lookup ▸ layout.bounded

/-! ## The audit -/

/-- The cells `xs` are the recency list from end to end, and the table leads to them and to nothing
else. Of the free slots and of slots that nothing leads to it says nothing. -/
structure Sound (c : Cache) (xs : List Cell) : Prop where
  listed : c.Listed xs
  mapped : ∀ x ∈ xs, c.lookup[x.key]? = some x.slot
  complete : ∀ key, key ∈ c.lookup ↔ key ∈ xs.map Cell.key
  bounded : c.lookup.size ≤ c.capacity

/-- A layout is sound, and knows more: where the free slots are. -/
theorem Layout.sound (layout : c.Layout xs) : c.Sound xs :=
  ⟨layout.listed, layout.mapped_cells, layout.mem_lookup, layout.size_lookup ▸ layout.bounded⟩

/-- An audit passes over a chain that the table knows, if its budget allows. -/
theorem Chain.follow {before : Option Nat} {budget : Nat} (chain : c.Chain before xs none)
    (known : ∀ x ∈ xs, c.lookup[x.key]? = some x.slot) (enough : xs.length ≤ budget)
    (walked : Nat) : c.follow budget walked before (Cell.first xs none) =
      .ok (Cell.last before xs, walked + xs.length) := by
  induction xs generalizing before budget walked with
  | nil => cases budget <;> rfl
  | cons x rest ih =>
      obtain ⟨here, later⟩ := chain
      obtain ⟨budget, rfl⟩ : ∃ n, budget = n + 1 :=
        ⟨budget - 1, by simp only [List.length_cons] at enough; omega⟩
      have found := known x List.mem_cons_self
      have further := ih later (fun y member => known y (List.mem_cons_of_mem x member))
        (Nat.le_of_succ_le_succ enough) (walked + 1)
      have length : walked + (x :: rest).length = walked + 1 + rest.length := by
        rw [List.length_cons]
        omega
      rw [length]
      simp only [Cell.first, Cache.follow, here, Cell.entry, found, ne_eq, not_true, if_false]
      exact further

/-- An audit finds nothing wrong with a sound cache. -/
theorem Sound.audit (sound : c.Sound xs) : c.audit = .ok () := by
  have size := size_lookup_of_mapped sound.listed.nodup sound.mapped sound.complete
  have followed := sound.listed.chain.follow sound.mapped (Nat.le_of_eq size.symm) 0
  rw [Cache.audit, if_neg (Nat.not_lt_of_le sound.bounded), sound.listed.head, followed]
  simp only [← sound.listed.tail, Nat.zero_add, size, ne_eq, not_true, if_false]

/-- Every reachable cache is represented; on it every call gets through without going astray, and
an audit finds no flaw. -/
theorem represented_of_reachable (reachable : Reachable capacity c) :
    c.capacity = capacity ∧ (∃ order, c.Represented order) ∧
      (∀ call, Strict.perform c call = .ok (c.perform call)) ∧ c.audit = .ok () := by
  obtain ⟨intact, room⟩ := reachable.intact
  obtain ⟨-, xs, layout⟩ := id intact
  exact ⟨room, ⟨_, layout.represented⟩, intact.strict_perform, layout.sound.audit⟩

/-- The slot of an erased key goes to the next new key, which becomes the head of the list. -/
theorem represented_of_reachable_reusing :
    let c := (((((empty 2).put "a" "1").2.put "b" "2").2.erase "a").2.put "c" "3").2
    Reachable 2 c ∧ c.head = some 0 ∧ c.keys = ["c", "b"] ∧ c.capacity = 2 ∧
      (∃ order, c.Represented order) ∧ (∀ call, Strict.perform c call = .ok (c.perform call)) ∧
      c.audit = .ok () := by
  intro c
  have reachable : Reachable 2 c := .put _ _ (.erase _ (.put _ _ (.put _ _ (.new rfl))))
  exact ⟨reachable, rfl, rfl, represented_of_reachable reachable⟩

end CacheAside.Cache
