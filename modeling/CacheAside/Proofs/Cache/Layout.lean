import CacheAside.Proofs.Cache.Chain

/-!
# The layout of a cache

`Cache.Layout` is the invariant of the arena: the cells of the recency list are in its slots, all
other slots are free, and the table leads from each key to its cell. It holds of the empty cache,
and `get`, `put` and `erase` keep it.

In the middle of an operation one cell is `Cache.Loose`: it has its slot but no place in the list.
Unlinking and allocating make a cell loose, `pushFront` and `release` end that, so each operation
is an arena without a loose cell on both sides.
-/

namespace CacheAside.Cache

variable {c c' : Cache} {xs ys l r : List Cell} {x : Cell} {key : Key} {value : Value}

/-! ## The arena -/

/-- Each slot of the arena holds one cell of the list or is free. -/
structure Housed (c : Cache) (xs : List Cell) : Prop where
  listed : c.Listed xs
  vacant : ∀ i ∈ c.free, c.Vacant i
  arena : (c.free ++ xs.map Cell.slot).Perm (List.range c.slots.size)

/-- `x` has a slot of its own beside the list; each other slot holds a listed cell or is free. -/
structure Loose (c : Cache) (x : Cell) (xs : List Cell) : Prop where
  listed : c.Listed xs
  here : c.entry? x.slot = some (x.entry none none)
  vacant : ∀ i ∈ c.free, c.Vacant i
  arena : (c.free ++ x.slot :: xs.map Cell.slot).Perm (List.range c.slots.size)

/-- Relinking keeps the arena in order if the list has the same slots as before. -/
theorem Housed.relink (housed : c.Housed xs) (relinked : c.Relinked c') (listed : c'.Listed ys)
    (same : (ys.map Cell.slot).Perm (xs.map Cell.slot)) : c'.Housed ys := by
  refine ⟨listed, fun i member => ?_, ?_⟩
  · rw [relinked.free] at member
    exact (relinked.vacant i).mpr (housed.vacant i member)
  · rw [relinked.free, relinked.size]
    exact (same.append_left c.free).trans housed.arena

/-- Unlinking makes a cell loose. -/
theorem Housed.unlink (housed : c.Housed (l ++ x :: r)) :
    (c.unlink x.slot).Loose x (l ++ r) := by
  have relinked := relinked_unlink c x.slot
  obtain ⟨listed, here⟩ := housed.listed.unlink
  refine ⟨listed, here, fun i member => ?_, ?_⟩
  · rw [relinked.free] at member
    exact (relinked.vacant i).mpr (housed.vacant i member)
  · rw [relinked.free, relinked.size]
    have moved : (l ++ x :: r).Perm (x :: (l ++ r)) := List.perm_middle
    exact ((moved.map Cell.slot).symm.append_left c.free).trans housed.arena

/-- The slot of a loose cell is in the arena, and neither listed nor free. -/
theorem Loose.fresh (loose : c.Loose x xs) :
    x.slot ∉ xs.map Cell.slot ∧ x.slot ∉ c.free ∧ x.slot < c.slots.size := by
  have nodup := loose.arena.nodup_iff.mpr List.nodup_range
  obtain ⟨-, listed, apart⟩ := List.nodup_append.mp nodup
  refine ⟨(List.nodup_cons.mp listed).1, fun member => ?_, ?_⟩
  · exact apart _ member _ List.mem_cons_self rfl
  · have member : x.slot ∈ c.free ++ x.slot :: xs.map Cell.slot :=
      List.mem_append_right _ List.mem_cons_self
    exact List.mem_range.mp (loose.arena.mem_iff.mp member)

/-- A loose cell is put in front of the list. -/
theorem Loose.pushFront (loose : c.Loose x xs) : (c.pushFront x.slot).Housed (x :: xs) := by
  have relinked := relinked_pushFront c x.slot
  refine ⟨loose.listed.pushFront loose.fresh.1 loose.here, fun i member => ?_, ?_⟩
  · rw [relinked.free] at member
    exact (relinked.vacant i).mpr (loose.vacant i member)
  · rw [relinked.free, relinked.size]
    exact loose.arena

theorem Listed.congr (listed : c.Listed xs) (head : c'.head = c.head) (tail : c'.tail = c.tail)
    (same : ∀ i ∈ xs.map Cell.slot, c'.entry? i = c.entry? i) : c'.Listed xs :=
  ⟨head.trans listed.head, tail.trans listed.tail, listed.chain.congr same, listed.nodup⟩

/-- Writing one slot is seen in that slot only. -/
theorem entry?_set {i j : Nat} (content : Option Entry) (other : i ≠ j) (free : List Nat) :
    Cache.entry? { c with slots := c.slots.setIfInBounds i content, free } j =
      c.entry? j := by
  simp only [Cache.entry?, Array.getElem?_setIfInBounds_ne other]

/-- The slot of a loose cell becomes free. -/
theorem Loose.release (loose : c.Loose x xs) : (c.release x.slot).Housed xs := by
  obtain ⟨notListed, -, inside⟩ := loose.fresh
  refine ⟨loose.listed.congr rfl rfl fun i member => ?_, fun i member => ?_, ?_⟩
  · have other : x.slot ≠ i := fun h => notListed (h ▸ member)
    exact entry?_set none other _
  · simp only [Vacant, Cache.release, Array.getElem?_setIfInBounds]
    rcases List.mem_cons.mp member with rfl | before
    · rw [if_pos rfl, if_pos inside]
    · rw [if_pos inside]
      split
      · rfl
      · exact loose.vacant i before
  · simp only [Cache.release, Array.size_setIfInBounds]
    exact List.perm_middle.symm.trans loose.arena

/-- A new entry takes the slot given up last, or a new slot behind the others. -/
theorem Housed.alloc (housed : c.Housed xs) (key : Key) (value : Value) :
    (c.alloc key value).2.Loose ⟨(c.alloc key value).1, key, value⟩ xs := by
  have nodup := housed.arena.nodup_iff.mpr List.nodup_range
  obtain ⟨free, -, apart⟩ := List.nodup_append.mp nodup
  unfold Cache.alloc
  split
  -- The slot given up last lies in the arena, and no listed cell is in it.
  next i rest given =>
    rw [given] at free apart
    have arena := housed.arena
    rw [given] at arena
    have inside : i < c.slots.size := List.mem_range.mp (arena.mem_iff.mp List.mem_cons_self)
    refine ⟨housed.listed.congr rfl rfl fun j member => ?_, ?_, fun j member => ?_, ?_⟩
    · have other : i ≠ j := fun h => apart i List.mem_cons_self j member h
      exact entry?_set _ other _
    · simp only [Cache.entry?, Array.getElem?_setIfInBounds_self_of_lt inside]
      rfl
    · have other : i ≠ j := fun h => (List.nodup_cons.mp free).1 (h ▸ member)
      simp only [Vacant, Array.getElem?_setIfInBounds_ne other]
      exact housed.vacant j (given ▸ List.mem_cons_of_mem i member)
    · simp only [Array.size_setIfInBounds]
      exact List.perm_middle.trans arena
  next given =>
    have arena := housed.arena
    rw [given, List.nil_append] at arena
    have inside : ∀ j ∈ xs.map Cell.slot, j ≠ c.slots.size := fun j member =>
      Nat.ne_of_lt (List.mem_range.mp (arena.mem_iff.mp member))
    refine ⟨housed.listed.congr rfl rfl fun j member => ?_, ?_, fun j member => ?_, ?_⟩
    · simp only [Cache.entry?, Array.getElem?_push, if_neg (inside j member)]
    · simp only [Cache.entry?, Array.getElem?_push, if_pos]
      rfl
    · rw [given] at member
      cases member
    · simp only [given, List.nil_append, Array.size_push, List.range_succ]
      exact (arena.cons _).trans (List.perm_append_singleton _ _).symm

/-! ## The table -/

/-- The cells of the recency list fill the arena together with the free slots, the table leads from
each key to its cell, and there are no more cells than the capacity allows. -/
structure Layout (c : Cache) (xs : List Cell) : Prop extends Housed c xs where
  lookup : ∀ key i, c.lookup[key]? = some i ↔ (i, key) ∈ xs.map Cell.place
  bounded : xs.length ≤ c.capacity

theorem Housed.table (housed : c.Housed xs) (table : Std.TreeMap Key Nat) :
    ({ c with lookup := table } : Cache).Housed xs :=
  ⟨housed.listed.congr rfl rfl fun _ _ => rfl, housed.vacant, housed.arena⟩

/-- The table leads from the key of a cell to its slot. -/
theorem Layout.lookup_cell (layout : c.Layout (l ++ x :: r)) :
    c.lookup[x.key]? = some x.slot := by
  refine (layout.lookup _ _).mpr (List.mem_map_of_mem (a := x) ?_)
  exact List.mem_append_right _ List.mem_cons_self

/-- A key in the table has a cell somewhere in the list. -/
theorem Layout.exists_cell {i : Nat} (layout : c.Layout xs) (found : c.lookup[key]? = some i) :
    ∃ l x r, xs = l ++ x :: r ∧ x.key = key ∧ x.slot = i := by
  obtain ⟨x, member, place⟩ := List.mem_map.mp ((layout.lookup _ _).mp found)
  obtain ⟨l, r, split⟩ := List.append_of_mem member
  exact ⟨l, x, r, split, congrArg Prod.snd place, congrArg Prod.fst place⟩

/-- A key is missing in the table exactly if no cell has it. -/
theorem Layout.lookup_eq_none (layout : c.Layout xs) :
    c.lookup[key]? = none ↔ key ∉ xs.map Cell.key := by
  constructor
  · intro missing member
    obtain ⟨x, inside, rfl⟩ := List.mem_map.mp member
    obtain ⟨l, r, rfl⟩ := List.append_of_mem inside
    rw [layout.lookup_cell] at missing
    cases missing
  · intro absent
    cases found : c.lookup[key]? with
    | none => rfl
    | some i =>
        obtain ⟨l, x, r, rfl, rfl, -⟩ := layout.exists_cell found
        exact (absent (List.mem_map_of_mem (List.mem_append_right _ List.mem_cons_self))).elim

/-- Two cells of one key would share the slot that the table names. -/
theorem keys_nodup_of_mapped (nodup : (xs.map Cell.slot).Nodup)
    (mapped : ∀ x ∈ xs, c.lookup[x.key]? = some x.slot) : (xs.map Cell.key).Nodup := by
  have slots := List.pairwise_map.mp nodup
  refine List.pairwise_map.mpr (slots.imp_of_mem fun {x y} memberX memberY apart same => apart ?_)
  have here := mapped x memberX
  rw [same, mapped y memberY] at here
  exact (Option.some.inj here).symm

/-- A table that leads to the cells and to nothing else has an entry for each. -/
theorem size_lookup_of_mapped (nodup : (xs.map Cell.slot).Nodup)
    (mapped : ∀ x ∈ xs, c.lookup[x.key]? = some x.slot)
    (complete : ∀ key, key ∈ c.lookup ↔ key ∈ xs.map Cell.key) : c.lookup.size = xs.length := by
  have keys := keys_nodup_of_mapped nodup mapped
  have same : c.lookup.keys.Perm (xs.map Cell.key) :=
    (List.perm_ext_iff_of_nodup Std.TreeMap.nodup_keys keys).mpr fun key => by
      rw [Std.TreeMap.mem_keys, complete]
  rw [← Std.TreeMap.length_keys, same.length_eq, List.length_map]

theorem Layout.mapped_cells (layout : c.Layout xs) : ∀ x ∈ xs, c.lookup[x.key]? = some x.slot :=
  fun x member => (layout.lookup x.key x.slot).mpr (List.mem_map_of_mem member)

theorem Layout.keys_nodup (layout : c.Layout xs) : (xs.map Cell.key).Nodup :=
  keys_nodup_of_mapped layout.listed.nodup layout.mapped_cells

theorem Layout.mem_lookup (layout : c.Layout xs) (key : Key) :
    key ∈ c.lookup ↔ key ∈ xs.map Cell.key := by
  rw [Std.TreeMap.mem_iff_isSome_getElem?, Option.isSome_iff_ne_none, ne_eq,
    layout.lookup_eq_none, Decidable.not_not]

theorem Layout.size_lookup (layout : c.Layout xs) : c.lookup.size = xs.length :=
  size_lookup_of_mapped layout.listed.nodup layout.mapped_cells layout.mem_lookup

/-- The free slots and the cells fill the arena. -/
theorem Layout.size_slots (layout : c.Layout xs) : c.free.length + xs.length = c.slots.size := by
  have length := layout.arena.length_eq
  rwa [List.length_append, List.length_map, List.length_range] at length

/-- Relinking keeps the layout if each key keeps its slot. -/
theorem Layout.relink (layout : c.Layout xs) (relinked : c.Relinked c') (listed : c'.Listed ys)
    (same : (ys.map Cell.place).Perm (xs.map Cell.place)) : c'.Layout ys := by
  have slots := Cell.slots_eq_of_places same
  have length : ys.length = xs.length := by simpa only [List.length_map] using same.length_eq
  refine ⟨layout.toHoused.relink relinked listed slots, fun key i => ?_, ?_⟩
  · rw [relinked.lookup, layout.lookup, same.mem_iff]
  · rw [relinked.capacity, length]
    exact layout.bounded

/-- Moving a cell to the front keeps the layout. -/
theorem Layout.promote (layout : c.Layout (l ++ x :: r)) :
    (c.promote x.slot).Layout (x :: (l ++ r)) :=
  layout.relink (relinked_promote c x.slot) layout.listed.promote
    (List.perm_middle.symm.map Cell.place)

theorem Layout.setValue (layout : c.Layout (l ++ x :: r)) (value : Value) :
    (c.modifyEntry x.slot ({ · with value := value })).Layout
      (l ++ { x with value := value } :: r) := by
  refine layout.relink (relinked_modifyEntry c _ _) (layout.listed.setValue value) ?_
  simp only [List.map_append, List.map_cons, Cell.place]
  exact List.Perm.refl _

def remove (c : Cache) (key : Key) (i : Nat) : Cache :=
  { (c.unlink i).release i with lookup := c.lookup.erase key }

/-- A key that the table does not have gets a slot, a place in front and an entry in the table. -/
def add (c : Cache) (key : Key) (value : Value) : Cache :=
  let (i, c) := c.alloc key value
  let c := c.pushFront i
  { c with lookup := c.lookup.insert key i }

/-- Removing a cell, from the list, the arena and the table, keeps the layout. -/
theorem Layout.remove (layout : c.Layout (l ++ x :: r)) :
    (c.remove x.key x.slot).Layout (l ++ r) := by
  have relinked := relinked_unlink c x.slot
  refine ⟨(layout.toHoused.unlink.release).table _, fun key i => ?_, ?_⟩
  · have nodup := layout.keys_nodup
    simp only [Cache.remove, Std.TreeMap.getElem?_erase, Std.compare_eq_iff_eq]
    split
    next here =>
      subst here
      simp only [List.map_append, List.map_cons, List.nodup_append, List.nodup_cons] at nodup
      obtain ⟨-, ⟨notRight, -⟩, apart⟩ := nodup
      simp only [reduceCtorEq, false_iff, List.mem_map, List.mem_append, Cell.place]
      -- The erased key had no second cell, so none is left.
      rintro ⟨y, inLeft | inRight, place⟩ <;> obtain ⟨-, same⟩ := Prod.mk.inj place
      · exact apart _ (List.mem_map_of_mem inLeft) _ List.mem_cons_self same
      · exact notRight (same ▸ List.mem_map_of_mem inRight)
    next other =>
      have apart : (i, key) ≠ x.place := fun h => other (congrArg Prod.snd h).symm
      rw [layout.lookup]
      simp only [List.map_append, List.map_cons, List.mem_append, List.mem_cons, apart, false_or]
  · have bounded := layout.bounded
    rw [List.length_append, List.length_cons] at bounded
    rw [List.length_append]
    exact Nat.le_trans (Nat.le_of_succ_le bounded) (Nat.le_of_eq relinked.capacity.symm)

theorem Layout.remove_last (layout : c.Layout (l ++ [x])) :
    (c.remove x.key x.slot).Layout l := by
  simpa only [List.append_nil] using layout.remove

theorem capacity_alloc (c : Cache) (key : Key) (value : Value) :
    (c.alloc key value).2.capacity = c.capacity ∧ (c.alloc key value).2.lookup = c.lookup := by
  unfold alloc
  split <;> exact ⟨rfl, rfl⟩

/-- A new key keeps the layout as long as there is room for it. -/
theorem Layout.add (layout : c.Layout xs) (missing : c.lookup[key]? = none)
    (room : xs.length < c.capacity) (value : Value) :
    (c.add key value).Layout (⟨(c.alloc key value).1, key, value⟩ :: xs) := by
  have relinked := relinked_pushFront (c.alloc key value).2 (c.alloc key value).1
  obtain ⟨capacity, table⟩ := capacity_alloc c key value
  have inserted : (c.add key value).lookup = c.lookup.insert key (c.alloc key value).1 := by
    rw [← table, ← relinked.lookup]
    rfl
  refine ⟨((layout.toHoused.alloc key value).pushFront).table _, fun key' i => ?_, ?_⟩
  · have absent := layout.lookup_eq_none.mp missing
    rw [inserted, Std.TreeMap.getElem?_insert, List.map_cons, List.mem_cons]
    simp only [Std.compare_eq_iff_eq, Cell.place]
    split
    next here =>
      subst here
      have notLater : (i, key) ∉ xs.map Cell.place := fun member => by
        obtain ⟨x, inside, place⟩ := List.mem_map.mp member
        exact absent (List.mem_map.mpr ⟨x, inside, (Prod.mk.inj place).2⟩)
      simp only [Option.some.injEq, Prod.mk.injEq, and_true]
      exact ⟨fun h => Or.inl h.symm, fun h => h.elim Eq.symm fun later => (notLater later).elim⟩
    next other =>
      rw [layout.lookup]
      exact ⟨Or.inr, fun h => h.elim (fun here => (other (Prod.mk.inj here).2.symm).elim) id⟩
  · exact Nat.le_trans room (Nat.le_of_eq (relinked.capacity.trans capacity).symm)

end CacheAside.Cache
