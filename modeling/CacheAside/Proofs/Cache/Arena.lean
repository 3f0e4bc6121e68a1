import CacheAside.Proofs.Cache.Nesting
import CacheAside.Proofs.Cache.Representation
import Mathlib.Data.List.Induction
import Mathlib.Order.Bounds.Basic

/-!
# How large the arena gets

The arena gets a new slot only when a new key comes and no slot is free. Then every slot holds an
entry, so the arena never has more slots than the cache has had entries at some moment: the number
of its slots is the high-water mark of the run. `Cache.Intact.size_slots_perform` says so of one
call, `Cache.Intact.isGreatest_sizes` of a run.

Which slot a key has changes only when the key comes or goes. A key that is found or put again is
relinked where it lies, and a new key in a full cache takes over the slot of the key it displaces,
which is the one given up last. With both the main statement is `Cache.arena_size_is_high_water`.
-/

namespace CacheAside.Cache

variable {c c' : Cache} {xs ys : List Cell} {x : Cell} {key : Key} {value : Value} {capacity : Nat}

/-! ## The number of slots -/

theorem size_slots_remove (c : Cache) (key : Key) (i : Nat) :
    (c.remove key i).slots.size = c.slots.size :=
  Array.size_setIfInBounds.trans (relinked_unlink c i).size

theorem size_slots_erase (c : Cache) (key : Key) :
    (c.erase key).2.slots.size = c.slots.size := by
  unfold erase
  split
  · rfl
  · exact Array.size_setIfInBounds.trans (relinked_unlink _ _).size

/-- A new key takes a free slot, and only without one does the arena grow. -/
theorem size_slots_add (c : Cache) (key : Key) (value : Value) :
    (c.add key value).slots.size =
      if c.free = [] then c.slots.size + 1 else c.slots.size := by
  have linked : (c.add key value).slots.size = (c.alloc key value).2.slots.size :=
    (relinked_pushFront _ _).size
  rw [linked, alloc]
  cases c.free with
  | nil => exact Array.size_push _
  | cons i rest => exact Array.size_setIfInBounds

theorem Layout.size_le_slots (layout : c.Layout xs) : c.size ≤ c.slots.size := by
  rw [size, layout.size_lookup, ← layout.size_slots]
  exact Nat.le_add_left _ _

/-- An arena that has not grown was large enough for the entries that are in it. -/
theorem Layout.size_slots_eq_max (after : c'.Layout ys) (same : c'.slots.size = c.slots.size) :
    c'.slots.size = max c.slots.size c'.size := by
  rw [← same]
  exact (Nat.max_eq_left after.size_le_slots).symm

/-- The arena grows for a new key exactly if it has no slot left. -/
theorem Layout.size_slots_add_eq_max (layout : c.Layout xs) (missing : c.lookup[key]? = none)
    (room : xs.length < c.capacity) (value : Value) :
    (c.add key value).slots.size = max c.slots.size (c.add key value).size := by
  have added := layout.add missing room value
  cases given : c.free with
  | cons i rest =>
      refine added.size_slots_eq_max ?_
      rw [size_slots_add, given]
      exact if_neg nofun
  | nil =>
      -- Every slot holds an entry, so the new one is one more than there have been slots.
      have full := layout.size_slots
      rw [given, List.length_nil, Nat.zero_add] at full
      rw [size_slots_add, if_pos given, size, added.size_lookup, List.length_cons, full]
      exact (Nat.max_eq_right (Nat.le_succ _)).symm

/-- After a put the arena is as large as before, or as large as the cache if that is more. -/
theorem Intact.size_slots_put (intact : c.Intact) (key : Key) (value : Value) :
    (c.put key value).2.slots.size = max c.slots.size (c.put key value).2.size := by
  cases intact.putCase key with
  | known layout here =>
      subst here
      refine (layout.put_known value).1.size_slots_eq_max ?_
      rw [layout.put_cell]
      exact ((relinked_modifyEntry c _ _).trans (relinked_promote _ _)).size
  | new layout missing room =>
      rw [put_room missing (layout.size_lookup ▸ room)]
      exact layout.size_slots_add_eq_max missing room value
  | @evicting l x layout missing full =>
      have given : (c.remove x.key x.slot).free ≠ [] := List.cons_ne_nil _ _
      refine (layout.put_evicting missing full value).1.size_slots_eq_max ?_
      rw [layout.put_full missing (layout.capacity_le_size full), size_slots_add, if_neg given,
        size_slots_remove]

/-- A call enlarges the arena only if the entries that are cached after it do not fit in it, and
then to their number. -/
theorem Intact.size_slots_perform (intact : c.Intact) (call : Call) :
    (c.perform call).2.slots.size = max c.slots.size (c.perform call).2.size := by
  obtain ⟨-, xs, after⟩ := (intact.perform_refines call).1
  cases call with
  | put key value => exact intact.size_slots_put key value
  | get key => exact after.size_slots_eq_max (relinked_get c key).size
  | erase key => exact after.size_slots_eq_max (size_slots_erase c key)
  | peek | contains | size | isEmpty | keys => exact after.size_slots_eq_max rfl

/-! ## The high-water mark -/

/-- The numbers of entries that the cache has while calls are made on it: before the first call and
after each of them. -/
def sizes (c : Cache) (calls : List Call) : Set Nat :=
  {entries | ∃ earlier, earlier <+: calls ∧ (runCalls perform c earlier).2.size = entries}

theorem sizes_nil (c : Cache) : c.sizes [] = {c.size} := by
  ext entries
  constructor
  · rintro ⟨earlier, start, rfl⟩
    rw [List.prefix_nil.mp start]
    rfl
  · rintro rfl
    exact ⟨[], List.prefix_refl [], rfl⟩

theorem sizes_concat (c : Cache) (calls : List Call) (call : Call) :
    c.sizes (calls ++ [call]) =
      insert (runCalls perform c (calls ++ [call])).2.size (c.sizes calls) := by
  ext entries
  constructor
  · rintro ⟨earlier, start, rfl⟩
    rcases List.prefix_concat_iff.mp start with rfl | before
    · exact Set.mem_insert _ _
    · exact Set.mem_insert_of_mem _ ⟨earlier, before, rfl⟩
  · rintro (rfl | ⟨earlier, before, rfl⟩)
    · exact ⟨_, List.prefix_refl _, rfl⟩
    · exact ⟨earlier, before.trans (List.prefix_append _ _), rfl⟩

/-- An arena without a free slot at the beginning has as many slots in the end as the cache has had
entries when it had most of them. -/
theorem Intact.isGreatest_sizes (intact : c.Intact) (compact : c.slots.size = c.size)
    (calls : List Call) :
    IsGreatest (c.sizes calls) (runCalls perform c calls).2.slots.size := by
  -- The last call is the one that the mark has to be compared with.
  induction calls using List.reverseRecOn with
  | nil =>
      rw [sizes_nil, ← compact]
      exact isGreatest_singleton
  | append_singleton calls call ih =>
      have reached := (intact.runCalls_refines calls).1
      have last := runCalls_append perform c calls [call]
      rw [sizes_concat, last]
      have step := reached.size_slots_perform call
      rw [max_comm] at step
      exact step ▸ ih.insert _

/-! ## The slots of the keys -/

/-- The pair lies in slot `i`, and the table leads from its key there. -/
structure Stores (c : Cache) (i : Nat) (key : Key) (value : Value) : Prop where
  table : c.lookup[key]? = some i
  entry : ∃ e, c.entry? i = some e ∧ e.key = key ∧ e.value = value

/-- Every key has the same slot in both caches, by the table and in the arena itself. -/
structure Unmoved (c c' : Cache) : Prop where
  table : ∀ key : Key, c'.lookup[key]? = c.lookup[key]?
  arena : ∀ i, (c'.entry? i).map Entry.key = (c.entry? i).map Entry.key

theorem Unmoved.refl (c : Cache) : c.Unmoved c := ⟨fun _ => rfl, fun _ => rfl⟩

/-- The table and the arena agree on where the pair of a cell lies. -/
theorem Layout.stores (layout : c.Layout xs) (member : x ∈ xs) :
    c.Stores x.slot x.key x.value := by
  obtain ⟨prev, next, here⟩ := layout.listed.chain.entry member
  exact ⟨layout.mapped_cells x member, _, here, rfl, rfl⟩

/-- A slot holds a key exactly if the cell of the key lies there. -/
theorem Layout.key_eq_some {i : Nat} (layout : c.Layout xs) :
    (c.entry? i).map Entry.key = some key ↔ (i, key) ∈ xs.map Cell.place := by
  rw [Option.map_eq_some_iff, ← layout.mapped, layout.lookup]

/-- The places of the cells say which key has which slot. -/
theorem Layout.unmoved (before : c.Layout xs) (after : c'.Layout ys)
    (same : (ys.map Cell.place).Perm (xs.map Cell.place)) : c.Unmoved c' := by
  constructor
  · intro key
    refine Option.ext fun i => ?_
    rw [after.lookup, before.lookup, same.mem_iff]
  · intro i
    refine Option.ext fun key => ?_
    rw [after.key_eq_some, before.key_eq_some, same.mem_iff]

theorem Intact.unmoved_get (intact : c.Intact) (key : Key) : c.Unmoved (c.get key).2 := by
  obtain ⟨-, xs, layout⟩ := intact
  cases found : c.lookup[key]? with
  | none =>
      rw [get_missing found]
      exact Unmoved.refl c
  | some i =>
      obtain ⟨l, x, r, rfl, rfl, -⟩ := layout.exists_cell found
      rw [layout.get_cell]
      exact layout.unmoved layout.promote (List.perm_middle.symm.map Cell.place)

/-- A put of a present key moves no key to another slot. -/
theorem Intact.unmoved_put (intact : c.Intact) (known : c.lookup[key]? ≠ none) (value : Value) :
    c.Unmoved (c.put key value).2 := by
  cases intact.putCase key with
  | @known l r x layout here =>
      subst here
      have moved : (x :: (l ++ r)).Perm (l ++ x :: r) := List.perm_middle.symm
      exact layout.unmoved (layout.put_known value).1 (moved.map Cell.place)
  | new _ missing _ => exact (known missing).elim
  | evicting _ missing _ => exact (known missing).elim

/-- A new key in a full cache is stored where the displaced one was. -/
theorem Intact.put_takes_over (intact : c.Intact) (missing : c.lookup[key]? = none)
    (full : c.size = c.capacity) (value : Value) :
    ∃ evicted kept i, (c.put key value).1 = some evicted ∧ c.Stores i evicted kept ∧
      (c.put key value).2.Stores i key value := by
  cases intact.putCase key with
  | known layout here =>
      subst here
      rw [layout.lookup_cell] at missing
      cases missing
  | new layout _ room =>
      rw [size, layout.size_lookup] at full
      exact (Nat.ne_of_lt room full).elim
  | @evicting l x layout _ crowd =>
      have displaced := layout.put_full missing (Nat.le_of_eq full.symm) value
      have after := (layout.put_evicting missing crowd value).1
      have last : x ∈ l ++ [x] := List.mem_append_right l List.mem_cons_self
      exact ⟨x.key, x.value, x.slot, congrArg Prod.fst displaced, layout.stores last,
        after.stores List.mem_cons_self⟩

/-! ## Runs -/

/-- Any calls on a new cache. As they are arbitrary, their end is any moment of any run: the arena
has as many slots as the cache has had entries when it had most of them, and so no more than the
capacity. From there a `get` moves no key to another slot, nor does a `put` of a cached key, and if
the cache is full, a `put` of a new key stores its pair where the displaced one was. -/
theorem arena_size_is_high_water (positive : 0 < capacity) (calls : List Call) :
    ∃ new, create capacity = .ok new ∧
      let c := (runCalls perform new calls).2
      IsGreatest (new.sizes calls) c.slots.size ∧ c.slots.size ≤ capacity ∧
        (∀ key, c.Unmoved (c.get key).2) ∧
        (∀ key value, c.contains key → c.Unmoved (c.put key value).2) ∧
        ∀ key value, ¬ c.contains key → c.size = capacity →
          ∃ evicted kept i, (c.put key value).1 = some evicted ∧ c.Stores i evicted kept ∧
            (c.put key value).2.Stores i key value := by
  have created : create capacity = .ok (empty capacity) := if_neg (Nat.ne_of_gt positive)
  have start : (empty capacity).Intact := Intact.empty positive
  refine ⟨empty capacity, created, ?_⟩
  intro c
  have intact : c.Intact := (start.runCalls_refines calls).1
  have room : c.capacity = capacity := capacity_runCalls (empty capacity) calls
  have mark := start.isGreatest_sizes rfl calls
  have table : ∀ key, c.contains key = c.lookup[key]?.isSome := fun key =>
    Std.TreeMap.contains_eq_isSome_getElem?
  refine ⟨mark, ?_, intact.unmoved_get, fun key value held => ?_, fun key value fresh full => ?_⟩
  · -- The mark is a number of entries, and no cache holds more of them than its capacity allows.
    obtain ⟨earlier, -, reached⟩ := mark.1
    have before := (start.runCalls_refines earlier).1
    have bounded := before.length_toList
    rw [← before.size_eq, reached, capacity_runCalls] at bounded
    exact bounded
  · rw [table, Option.isSome_iff_ne_none] at held
    exact intact.unmoved_put held value
  · rw [table, Option.not_isSome_iff_eq_none] at fresh
    exact intact.put_takes_over fresh (full.trans room.symm) value

/-- The slot of an erased key goes to the next new key. In the full cache that key is put and found
again in its slot, and the key that displaces it gets the same slot. -/
theorem arena_size_is_high_water_reusing :
    let calls : List Call := [.put "a" "1", .put "b" "2", .erase "a", .put "c" "3", .get "b"]
    0 < 2 ∧ ∃ new, create 2 = .ok new ∧
      let c := (runCalls perform new calls).2
      IsGreatest (new.sizes calls) 2 ∧ c.contains "c" ∧ c.Unmoved (c.put "c" "4").2 ∧
        ¬ c.contains "d" ∧ c.size = 2 ∧ (c.put "d" "4").1 = some "c" ∧
        (∃ kept, c.Stores 0 "c" kept) ∧ (c.put "d" "4").2.Stores 0 "d" "4" := by
  intro calls
  obtain ⟨new, created, mark, -, -, again, taken⟩ :=
    arena_size_is_high_water (by decide : 0 < 2) calls
  cases created
  have slots : (runCalls perform (empty 2) calls).2.slots.size = 2 := by decide
  have held : (runCalls perform (empty 2) calls).2.contains "c" := by decide
  have fresh : ¬ (runCalls perform (empty 2) calls).2.contains "d" := by decide
  have full : (runCalls perform (empty 2) calls).2.size = 2 := by decide
  have out : ((runCalls perform (empty 2) calls).2.put "d" "4").1 = some "c" := by decide
  have slot : (runCalls perform (empty 2) calls).2.lookup["c"]? = some 0 := by decide
  obtain ⟨evicted, kept, i, displaced, before, after⟩ := taken "d" "4" fresh full
  obtain rfl : evicted = "c" := Option.some.inj (displaced.symm.trans out)
  obtain rfl : i = 0 := Option.some.inj (before.table.symm.trans slot)
  rw [slots] at mark
  exact ⟨by decide, empty 2, rfl, mark, held, again "c" "4" held, fresh, full, out,
    ⟨kept, before⟩, after⟩

end CacheAside.Cache
