import CacheAside.Cache.Recency
import CacheAside.Proofs.Cache.Layout

/-!
# Operations on the list of pairs

An `Intact` cache has a layout and room for at least one entry. On intact caches `get`, `put` and
`erase` act on `Cache.toList` as the operations of `Recency` do and leave the cache intact, and the
observers read that list. Whatever is said of a cache from here on is said of its list of pairs.
-/

namespace CacheAside

/-! ## Finding a pair in a recency list -/

namespace Recency

variable {l r : Recency} {key : Key} {value : Value}

/-- The first pair of a key is the one that is seen. -/
theorem peek_append_cons (absent : key ∉ l.map Prod.fst) :
    peek (l ++ (key, value) :: r) key = some value := by
  induction l with
  | nil => simp [peek]
  | cons p l ih =>
      rcases p with ⟨first, kept⟩
      rw [List.map_cons, List.mem_cons, not_or] at absent
      have other : (key == first) = false := beq_false_of_ne absent.1
      rw [peek, List.cons_append, List.lookup_cons, other]
      exact ih absent.2

theorem peek_eq_none (absent : key ∉ r.map Prod.fst) : peek r key = none := by
  rw [peek, List.lookup_eq_none_iff]
  intro p member
  exact bne_iff_ne.mpr fun same => absent (List.mem_map.mpr ⟨p, member, same.symm⟩)

theorem mem_keys : key ∈ r.keys ↔ peek r key ≠ none := by
  refine ⟨fun member missing => ?_, fun held => ?_⟩
  · obtain ⟨p, inside, rfl⟩ := List.mem_map.mp member
    exact bne_iff_ne.mp (List.lookup_eq_none_iff.mp missing p inside) rfl
  · exact Decidable.byContradiction fun absent => held (peek_eq_none absent)

theorem without_eq_self (absent : key ∉ r.map Prod.fst) : without r key = r := by
  refine List.filter_eq_self.mpr fun p member => decide_eq_true fun same => absent ?_
  exact same ▸ List.mem_map_of_mem member

/-- Taking a key out closes the gap. -/
theorem without_append_cons (absentLeft : key ∉ l.map Prod.fst)
    (absentRight : key ∉ r.map Prod.fst) : without (l ++ (key, value) :: r) key = l ++ r := by
  have left := without_eq_self absentLeft
  have right := without_eq_self absentRight
  simp only [without] at left right ⊢
  rw [List.filter_append, List.filter_cons_of_neg (by simp), left, right]

end Recency

namespace Cache

variable {c : Cache} {xs l r : List Cell} {x : Cell} {key : Key}

/-! ## Each operation, cell by cell -/

theorem get_missing (missing : c.lookup[key]? = none) : c.get key = (none, c) := by
  rw [get, missing]

/-- A read of a key returns the value of its cell and moves the cell to the front. -/
theorem Layout.get_cell (layout : c.Layout (l ++ x :: r)) :
    c.get x.key = (some x.value, c.promote x.slot) := by
  have promoted : (c.promote x.slot).Listed ([] ++ x :: (l ++ r)) := layout.listed.promote
  rw [get, layout.lookup_cell]
  simp only [promoted.entry]
  rfl

/-- A put of a present key replaces the value in its cell and moves it to the front. -/
theorem Layout.put_cell (layout : c.Layout (l ++ x :: r)) (value : Value) :
    c.put x.key value =
      (none, (c.modifyEntry x.slot ({ · with value := value })).promote x.slot) := by
  rw [put, layout.lookup_cell]

/-- A new key is added after the last cell has been displaced, if the cache is full. -/
theorem put_missing (missing : c.lookup[key]? = none) (value : Value) :
    c.put key value =
      let evicted := if c.capacity ≤ c.lookup.size then c.evictTail else (none, c)
      (evicted.1, evicted.2.add key value) := by
  rw [put, missing]
  rfl

/-- A put of a new key with room for it displaces nothing. -/
theorem put_room (missing : c.lookup[key]? = none) (room : c.lookup.size < c.capacity)
    (value : Value) : c.put key value = (none, c.add key value) := by
  rw [put_missing missing, if_neg (Nat.not_le_of_lt room)]

/-- Unlinking has no use for the table. -/
theorem unlink_table (c : Cache) (i : Nat) (table : Std.TreeMap Key Nat) :
    ({ c with lookup := table } : Cache).unlink i = { c.unlink i with lookup := table } := by
  have same : Cache.entry? { c with lookup := table } i = c.entry? i := rfl
  cases here : c.entry? i with
  | none =>
      rw [unlink, unlink, same, here]
  | some e =>
      rw [unlink_eq_join here, unlink_eq_join (same.trans here)]
      cases e.prev <;> cases e.next <;> rfl

/-- The last cell is the one that is displaced. -/
theorem Layout.evictTail_cell (layout : c.Layout (l ++ [x])) :
    c.evictTail = (some x.key, c.remove x.key x.slot) := by
  have tail : c.tail = some x.slot := layout.listed.tail.trans (Cell.last_append none l [x])
  have table := (relinked_unlink c x.slot).lookup
  rw [evictTail, tail]
  simp only [layout.listed.unlink.2]
  rw [Cache.remove, ← table]
  rfl

/-- A put of a new key into a full cache takes the last cell out first. -/
theorem Layout.put_full (layout : c.Layout (l ++ [x])) (missing : c.lookup[key]? = none)
    (full : c.capacity ≤ c.lookup.size) (value : Value) :
    c.put key value = (some x.key, (c.remove x.key x.slot).add key value) := by
  rw [put_missing missing, if_pos full, layout.evictTail_cell]

theorem erase_missing (missing : c.lookup[key]? = none) : c.erase key = (false, c) := by
  rw [erase, missing]

/-- Erasing a key removes its cell. -/
theorem Layout.erase_cell (layout : c.Layout (l ++ x :: r)) :
    c.erase x.key = (true, c.remove x.key x.slot) := by
  rw [erase, layout.lookup_cell]
  simp only [unlink_table]
  rfl

/-! ## Intact caches -/

/-- The arena, the list and the table agree, and there is room for an entry. -/
structure Intact (c : Cache) : Prop where
  positive : 0 < c.capacity
  layout : ∃ xs, c.Layout xs

/-- Walking along a chain meets the pairs of its cells. -/
theorem Chain.walk {before : Option Nat} (chain : c.Chain before xs none) {n : Nat}
    (enough : xs.length ≤ n) :
    (c.walk n (Cell.first xs none)).map (fun e => (e.key, e.value)) = xs.map Cell.pair := by
  induction xs generalizing before n with
  | nil => cases n <;> rfl
  | cons x rest ih =>
      obtain ⟨n, rfl⟩ : ∃ m, n = m + 1 := ⟨n - 1, by simp only [List.length_cons] at enough; omega⟩
      obtain ⟨here, later⟩ := chain
      have more := ih later (Nat.le_of_succ_le_succ enough)
      simp only [Cell.first, Cache.walk, here, List.map_cons]
      exact congrArg (x.pair :: ·) more

/-- The list as an observer walks it is the list of the cells. -/
theorem Layout.toList_eq (layout : c.Layout xs) : c.toList = xs.map Cell.pair := by
  have enough : xs.length ≤ c.slots.size := layout.size_slots ▸ Nat.le_add_left _ _
  rw [toList, layout.listed.head]
  exact layout.listed.chain.walk enough

theorem Layout.map_fst_toList (layout : c.Layout xs) :
    c.toList.map Prod.fst = xs.map Cell.key := by
  rw [layout.toList_eq, List.map_map]
  rfl

/-- The pairs around a cell, and that its key occurs nowhere else among them. -/
theorem Layout.toList_middle (layout : c.Layout (l ++ x :: r)) :
    c.toList = l.map Cell.pair ++ (x.key, x.value) :: r.map Cell.pair ∧
      x.key ∉ (l.map Cell.pair).map Prod.fst ∧ x.key ∉ (r.map Cell.pair).map Prod.fst := by
  have nodup := layout.keys_nodup
  rw [List.map_append, List.map_cons, List.nodup_append, List.nodup_cons] at nodup
  obtain ⟨-, ⟨notRight, -⟩, apart⟩ := nodup
  simp only [List.map_map]
  refine ⟨?_, fun member => apart _ member _ List.mem_cons_self rfl, notRight⟩
  rw [layout.toList_eq, List.map_append, List.map_cons]
  rfl

theorem Layout.peek_missing (layout : c.Layout xs) (missing : c.lookup[key]? = none) :
    Recency.peek c.toList key = none := by
  refine Recency.peek_eq_none ?_
  rw [layout.map_fst_toList]
  exact layout.lookup_eq_none.mp missing

/-- The list has under a key the value of its cell. -/
theorem Layout.peek_cell (layout : c.Layout (l ++ x :: r)) :
    Recency.peek c.toList x.key = some x.value := by
  obtain ⟨pairs, notLeft, -⟩ := layout.toList_middle
  rw [pairs]
  exact Recency.peek_append_cons notLeft

/-- Without the key of a cell, the list is that of the other cells. -/
theorem Layout.without_cell (layout : c.Layout (l ++ x :: r)) :
    Recency.without c.toList x.key = (l ++ r).map Cell.pair := by
  obtain ⟨pairs, notLeft, notRight⟩ := layout.toList_middle
  rw [pairs, Recency.without_append_cons notLeft notRight, List.map_append]

/-! ## The operations on the list of pairs -/

/-- A read fills and empties no slot. -/
theorem relinked_get (c : Cache) (key : Key) : c.Relinked (c.get key).2 := by
  unfold get
  split
  · exact Relinked.refl c
  · exact relinked_promote c _

theorem capacity_get (c : Cache) (key : Key) : (c.get key).2.capacity = c.capacity :=
  (relinked_get c key).capacity

theorem capacity_remove (c : Cache) (key : Key) (i : Nat) :
    (c.remove key i).capacity = c.capacity := (relinked_unlink c i).capacity

theorem capacity_add (c : Cache) (key : Key) (value : Value) :
    (c.add key value).capacity = c.capacity :=
  (relinked_pushFront _ _).capacity.trans (capacity_alloc c key value).1

/-- A new cache is intact. -/
theorem Intact.empty {capacity : Nat} (positive : 0 < capacity) :
    (Cache.empty capacity).Intact := by
  refine ⟨positive, [], ⟨⟨rfl, rfl, trivial, List.nodup_nil⟩, ?_, List.Perm.refl _⟩, ?_, ?_⟩
  · intro i member
    cases member
  · intro key i
    simp [Cache.empty]
  · exact Nat.zero_le _

/-- A read is a read of the list model. -/
theorem Intact.get_refines (intact : c.Intact) (key : Key) :
    (c.get key).2.Intact ∧ ((c.get key).1, (c.get key).2.toList) = Recency.get c.toList key := by
  obtain ⟨positive, xs, layout⟩ := id intact
  cases found : c.lookup[key]? with
  | none =>
      rw [get_missing found, Recency.get, layout.peek_missing found]
      exact ⟨intact, rfl⟩
  | some i =>
      obtain ⟨l, x, r, rfl, rfl, -⟩ := layout.exists_cell found
      have promoted := layout.promote
      have capacity := (relinked_promote c x.slot).capacity
      rw [layout.get_cell, Recency.get, layout.peek_cell, layout.without_cell]
      refine ⟨⟨capacity.symm ▸ positive, _, promoted⟩, ?_⟩
      rw [promoted.toList_eq]
      rfl

/-- Erasing a key is erasing it in the list model. -/
theorem Intact.erase_refines (intact : c.Intact) (key : Key) :
    (c.erase key).2.Intact ∧
      ((c.erase key).1, (c.erase key).2.toList) = Recency.erase c.toList key := by
  obtain ⟨positive, xs, layout⟩ := id intact
  cases found : c.lookup[key]? with
  | none =>
      rw [erase_missing found, Recency.erase, layout.peek_missing found]
      exact ⟨intact, rfl⟩
  | some i =>
      obtain ⟨l, x, r, rfl, rfl, -⟩ := layout.exists_cell found
      have removed := layout.remove
      have capacity := capacity_remove c x.key x.slot
      rw [layout.erase_cell, Recency.erase, layout.peek_cell, layout.without_cell]
      refine ⟨⟨capacity.symm ▸ positive, _, removed⟩, ?_⟩
      rw [removed.toList_eq]

/-- A known key: its cell takes the value and moves to the front. -/
theorem Layout.put_known (layout : c.Layout (l ++ x :: r)) (value : Value) :
    (c.put x.key value).2.Layout ({ x with value := value } :: (l ++ r)) ∧
      ((c.put x.key value).1, (c.put x.key value).2.toList) =
        Recency.put c.capacity c.toList x.key value := by
  have promoted := (layout.setValue value).promote
  rw [layout.put_cell, Recency.put, layout.peek_cell, layout.without_cell]
  refine ⟨promoted, ?_⟩
  rw [promoted.toList_eq]
  rfl

/-- A new key while there is room: a new cell comes to the front. -/
theorem Layout.put_new (layout : c.Layout xs) (missing : c.lookup[key]? = none)
    (room : xs.length < c.capacity) (value : Value) :
    (c.put key value).2.Layout (⟨(c.alloc key value).1, key, value⟩ :: xs) ∧
      ((c.put key value).1, (c.put key value).2.toList) =
        Recency.put c.capacity c.toList key value := by
  have added := layout.add missing room value
  have notFull : c.toList.length ≠ c.capacity := by
    rw [layout.toList_eq, List.length_map]
    exact Nat.ne_of_lt room
  rw [put_room missing (layout.size_lookup ▸ room), Recency.put, layout.peek_missing missing]
  refine ⟨added, ?_⟩
  simp only [if_neg notFull, added.toList_eq]
  rw [layout.toList_eq]
  rfl

theorem Layout.capacity_le_size (layout : c.Layout (l ++ [x]))
    (full : l.length + 1 = c.capacity) : c.capacity ≤ c.lookup.size := by
  have length : (l ++ [x]).length = l.length + 1 := List.length_append
  exact Nat.le_of_eq (full.symm.trans (layout.size_lookup.trans length).symm)

/-- A new key in a full cache: the last cell goes, and the new one comes to the front in its slot,
which is the one given up last. -/
theorem Layout.put_evicting (layout : c.Layout (l ++ [x])) (missing : c.lookup[key]? = none)
    (full : l.length + 1 = c.capacity) (value : Value) :
    (c.put key value).2.Layout (⟨x.slot, key, value⟩ :: l) ∧
      ((c.put key value).1, (c.put key value).2.toList) =
        Recency.put c.capacity c.toList key value := by
  have length : (l ++ [x]).length = c.capacity := by
    rw [List.length_append, List.length_singleton, full]
  have removed := layout.remove_last
  have gone : (c.remove x.key x.slot).lookup[key]? = none := by
    refine removed.lookup_eq_none.mpr fun member => layout.lookup_eq_none.mp missing ?_
    rw [List.map_append]
    exact List.mem_append_left _ member
  have room : l.length < (c.remove x.key x.slot).capacity := by
    rw [capacity_remove, ← full]
    exact Nat.lt_succ_self _
  have given : ((c.remove x.key x.slot).alloc key value).1 = x.slot := rfl
  have added := removed.add gone room value
  rw [given] at added
  rw [layout.put_full missing (layout.capacity_le_size full), Recency.put,
    layout.peek_missing missing]
  refine ⟨added, ?_⟩
  have pairs : c.toList = l.map Cell.pair ++ [x.pair] := by
    rw [layout.toList_eq, List.map_append, List.map_singleton]
  have isFull : c.toList.length = c.capacity := by rw [layout.toList_eq, List.length_map, length]
  simp only [if_pos isFull, added.toList_eq]
  rw [pairs, List.getLast?_concat, List.dropLast_concat]
  rfl

/-- What a put meets: the key itself, or room for it, or a last cell that has to go. -/
inductive PutCase (c : Cache) (key : Key) : Prop
  | known {l r : List Cell} {x : Cell} (layout : c.Layout (l ++ x :: r)) (here : x.key = key)
  | new {xs : List Cell} (layout : c.Layout xs) (missing : c.lookup[key]? = none)
    (room : xs.length < c.capacity)
  | evicting {l : List Cell} {x : Cell} (layout : c.Layout (l ++ [x]))
    (missing : c.lookup[key]? = none) (full : l.length + 1 = c.capacity)

/-- Whatever the key, a put meets one of the three cases. -/
theorem Intact.putCase (intact : c.Intact) (key : Key) : c.PutCase key := by
  obtain ⟨positive, xs, layout⟩ := intact
  cases found : c.lookup[key]? with
  | some i =>
      obtain ⟨l, x, r, rfl, here, -⟩ := layout.exists_cell found
      exact .known layout here
  | none =>
      rcases Nat.lt_or_eq_of_le layout.bounded with less | full
      · exact .new layout found less
      -- With a positive capacity a full cache has a last cell.
      · rcases List.eq_nil_or_concat xs with rfl | ⟨l, x, rfl⟩
        · exact (Nat.ne_of_lt positive full).elim
        · rw [List.concat_eq_append] at layout full
          rw [List.length_append, List.length_singleton] at full
          exact .evicting layout found full

theorem capacity_evictTail (c : Cache) : c.evictTail.2.capacity = c.capacity := by
  unfold evictTail
  split
  · rfl
  · dsimp only
    split <;> exact (relinked_unlink c _).capacity

theorem capacity_put (c : Cache) (key : Key) (value : Value) :
    (c.put key value).2.capacity = c.capacity := by
  cases found : c.lookup[key]? with
  | some i =>
      rw [put, found]
      exact (relinked_promote _ i).capacity
  | none =>
      rw [put_missing found]
      dsimp only
      rw [capacity_add]
      split
      · exact capacity_evictTail c
      · rfl

/-- A put is a put of the list model, with the displaced key if there is one. -/
theorem Intact.put_refines (intact : c.Intact) (key : Key) (value : Value) :
    (c.put key value).2.Intact ∧ ((c.put key value).1, (c.put key value).2.toList) =
      Recency.put c.capacity c.toList key value := by
  have room : 0 < (c.put key value).2.capacity := (capacity_put c key value).symm ▸ intact.positive
  cases intact.putCase key with
  | known layout here =>
      subst here
      obtain ⟨known, refines⟩ := layout.put_known value
      exact ⟨⟨room, _, known⟩, refines⟩
  | new layout missing less =>
      obtain ⟨added, refines⟩ := layout.put_new missing less value
      exact ⟨⟨room, _, added⟩, refines⟩
  | evicting layout missing full =>
      obtain ⟨added, refines⟩ := layout.put_evicting missing full value
      exact ⟨⟨room, _, added⟩, refines⟩

theorem Intact.toList_get (intact : c.Intact) (key : Key) :
    (c.get key).2.toList = (Recency.get c.toList key).2 :=
  congrArg Prod.snd (intact.get_refines key).2

theorem Intact.toList_erase (intact : c.Intact) (key : Key) :
    (c.erase key).2.toList = (Recency.erase c.toList key).2 :=
  congrArg Prod.snd (intact.erase_refines key).2

theorem Intact.toList_put (intact : c.Intact) (key : Key) (value : Value) :
    (c.put key value).2.toList = (Recency.put c.capacity c.toList key value).2 :=
  congrArg Prod.snd (intact.put_refines key value).2

/-! ## The observers -/

/-- A look at a key sees what the list model has under it. -/
theorem Intact.peek_eq (intact : c.Intact) (key : Key) :
    c.peek key = Recency.peek c.toList key := by
  obtain ⟨-, xs, layout⟩ := intact
  cases found : c.lookup[key]? with
  | none => rw [peek, found, layout.peek_missing found]
  | some i =>
      obtain ⟨l, x, r, rfl, rfl, -⟩ := layout.exists_cell found
      rw [layout.peek_cell, peek, layout.lookup_cell]
      simp only [layout.listed.entry]
      rfl

theorem Intact.contains_eq (intact : c.Intact) (key : Key) :
    c.contains key = (c.peek key).isSome := by
  obtain ⟨-, xs, layout⟩ := id intact
  rw [intact.peek_eq, contains, Std.TreeMap.contains_eq_isSome_getElem?]
  cases found : c.lookup[key]? with
  | none =>
      rw [layout.peek_missing found]
      rfl
  | some i =>
      obtain ⟨l, x, r, rfl, rfl, -⟩ := layout.exists_cell found
      rw [layout.peek_cell]
      rfl

/-- The number of entries that the cache gives is the length of its list. -/
theorem Intact.size_eq (intact : c.Intact) : c.size = c.toList.length := by
  obtain ⟨-, xs, layout⟩ := intact
  rw [size, layout.size_lookup, layout.toList_eq, List.length_map]

theorem Intact.isEmpty_eq (intact : c.Intact) : c.isEmpty = c.toList.isEmpty := by
  have size := intact.size_eq
  rw [isEmpty, Std.TreeMap.isEmpty_eq_size_eq_zero, ← Cache.size, size]
  cases c.toList <;> rfl

end Cache

end CacheAside
