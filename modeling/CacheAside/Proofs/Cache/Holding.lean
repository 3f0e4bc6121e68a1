import CacheAside.Cache.Keep
import CacheAside.Proofs.Cache.Operations

/-!
# What a cache holds

The effect of each operation on the value that `Cache.peek` finds under any key, in a form that
leaves the recency order out: a `get` changes nothing, a `put` holds its pair and may lose others
but never changes them, an `erase` loses exactly its key.
-/

namespace CacheAside

namespace Recency

variable {r : Recency} {key other : Key} {value kept : Value}

/-- The first pair hides what is behind it under its key. -/
theorem peek_cons (r : Recency) (key other : Key) (value : Value) :
    peek ((key, value) :: r) other = if other = key then some value else peek r other := by
  by_cases same : other = key
  · rw [if_pos same, same, peek, List.lookup_cons_self]
  · have apart : (other == key) = false := beq_false_of_ne same
    rw [if_neg same, peek, List.lookup_cons, apart]
    rfl

theorem peek_without (r : Recency) (key other : Key) :
    peek (without r key) other = if other = key then none else peek r other := by
  induction r with
  | nil => simp [peek, without]
  | cons p r ih =>
      rcases p with ⟨first, value⟩
      by_cases gone : first = key
      · have dropped : without ((first, value) :: r) key = without r key :=
          List.filter_cons_of_neg (by simpa using gone)
        rw [dropped, ih, peek_cons, gone]
        by_cases same : other = key
        · rw [if_pos same, if_pos same]
        · rw [if_neg same, if_neg same, if_neg same]
      · have stays : without ((first, value) :: r) key = (first, value) :: without r key :=
          List.filter_cons_of_pos (by simpa using gone)
        rw [stays, peek_cons, peek_cons, ih]
        by_cases here : other = first
        · rw [if_pos here, if_pos here, if_neg (here ▸ gone)]
        · rw [if_neg here, if_neg here]

/-- A list without its last pair finds nothing that the list does not find. -/
theorem peek_of_dropLast (held : peek r.dropLast key = some value) : peek r key = some value := by
  rcases List.eq_nil_or_concat r with rfl | ⟨l, p, rfl⟩
  · cases held
  · rw [List.concat_eq_append, List.dropLast_concat] at held
    have earlier : List.lookup key l = some value := held
    rw [peek, List.concat_eq_append, List.lookup_append, earlier]
    rfl

theorem get_fst (r : Recency) (key : Key) : (get r key).1 = peek r key := by
  rw [get]
  cases peek r key <;> rfl

/-- A read changes nothing that can be seen. -/
theorem peek_get (r : Recency) (key other : Key) : peek (get r key).2 other = peek r other := by
  rw [get]
  cases found : peek r key with
  | none => rfl
  | some value =>
      dsimp only
      rw [peek_cons, peek_without]
      by_cases same : other = key
      · rw [if_pos same, same, found]
      · rw [if_neg same, if_neg same]

/-- After a put its value is seen under its key. -/
theorem peek_put_self (capacity : Nat) (r : Recency) (key : Key) (value : Value) :
    peek (put capacity r key value).2 key = some value := by
  have first : ∀ rest, peek ((key, value) :: rest) key = some value := fun rest => by
    rw [peek_cons, if_pos rfl]
  rw [put]
  cases peek r key with
  | some _ => exact first _
  | none =>
      dsimp only
      split
      · exact first _
      · exact first _

/-- What is seen under another key after a put was seen there before. -/
theorem peek_of_put {capacity : Nat} (apart : other ≠ key)
    (held : peek (put capacity r key value).2 other = some kept) : peek r other = some kept := by
  have later : ∀ rest, peek ((key, value) :: rest) other = peek rest other := fun rest => by
    rw [peek_cons, if_neg apart]
  rw [put] at held
  cases found : peek r key with
  | some _ =>
      rw [found] at held
      dsimp only at held
      rwa [later, peek_without, if_neg apart] at held
  | none =>
      rw [found] at held
      dsimp only at held
      split at held
      · rw [later] at held
        exact peek_of_dropLast held
      · rwa [later] at held

/-- Unless a new key comes to a full list, a put displaces nothing. -/
theorem peek_put_roomy {capacity : Nat} (apart : other ≠ key)
    (roomy : peek r key = none → r.length ≠ capacity) (value : Value) :
    peek (put capacity r key value).2 other = peek r other := by
  rw [put]
  cases found : peek r key with
  | some _ =>
      dsimp only
      rw [peek_cons, if_neg apart, peek_without, if_neg apart]
  | none =>
      dsimp only
      rw [if_neg (roomy found), peek_cons, if_neg apart]

theorem peek_erase (r : Recency) (key other : Key) :
    peek (erase r key).2 other = if other = key then none else peek r other := by
  rw [erase]
  cases found : peek r key with
  | some _ => exact peek_without r key other
  | none =>
      by_cases same : other = key
      · rw [if_pos same, same, found]
      · rw [if_neg same]

end Recency

namespace Cache

variable {c : Cache} {key other : Key} {value kept : Value}

/-- `get` finds what `peek` finds, and moving the pair to the front changes nothing for `peek`. -/
theorem Intact.get_holds (intact : c.Intact) (key : Key) :
    (c.get key).2.Intact ∧ (c.get key).1 = c.peek key ∧
      ∀ other, (c.get key).2.peek other = c.peek other := by
  obtain ⟨after, refines⟩ := intact.get_refines key
  refine ⟨after, ?_, fun other => ?_⟩
  · rw [intact.peek_eq, ← Recency.get_fst]
    exact congrArg Prod.fst refines
  · rw [after.peek_eq, intact.peek_eq, intact.toList_get, Recency.peek_get]

/-- A `get` that finds nothing leaves the cache as it is. -/
theorem Intact.get_uncached (intact : c.Intact) (uncached : c.peek key = none) :
    c.get key = (none, c) := by
  obtain ⟨-, xs, layout⟩ := id intact
  cases found : c.lookup[key]? with
  | none => exact get_missing found
  | some i =>
      obtain ⟨l, x, r, rfl, rfl, -⟩ := layout.exists_cell found
      rw [intact.peek_eq, layout.peek_cell] at uncached
      cases uncached

/-- A pair that is put is held. -/
theorem Intact.put_holds (intact : c.Intact) (key : Key) (value : Value) :
    (c.put key value).2.Intact ∧ (c.put key value).2.peek key = some value := by
  have after := (intact.put_refines key value).1
  refine ⟨after, ?_⟩
  rw [after.peek_eq, intact.toList_put]
  exact Recency.peek_put_self c.capacity c.toList key value

/-- What is held after a pair was put is that pair, or a pair of another key held before. -/
theorem Intact.held_put (intact : c.Intact)
    (held : (c.put key value).2.peek other = some kept) :
    (other = key ∧ kept = value) ∨ (other ≠ key ∧ c.peek other = some kept) := by
  rw [(intact.put_refines key value).1.peek_eq, intact.toList_put] at held
  by_cases same : other = key
  · rw [same, Recency.peek_put_self] at held
    exact .inl ⟨same, (Option.some.inj held).symm⟩
  · rw [intact.peek_eq]
    exact .inr ⟨same, Recency.peek_of_put same held⟩

/-- What is held under another key stays, or is displaced. -/
theorem Intact.put_displaces (intact : c.Intact) (apart : other ≠ key) (value : Value) :
    (c.put key value).2.peek other = c.peek other ∨ (c.put key value).2.peek other = none := by
  cases held : (c.put key value).2.peek other with
  | none => exact .inr rfl
  | some kept =>
      rcases intact.held_put held with ⟨same, -⟩ | ⟨-, before⟩
      · exact absurd same apart
      · exact .inl before.symm

/-- With room for the key, a put changes nothing under other keys. -/
theorem Intact.put_roomy (intact : c.Intact) (apart : other ≠ key)
    (roomy : c.peek key = none → c.size < c.capacity) (value : Value) :
    (c.put key value).2.peek other = c.peek other := by
  rw [(intact.put_refines key value).1.peek_eq, intact.peek_eq, intact.toList_put]
  refine Recency.peek_put_roomy apart (fun missing => ?_) value
  rw [← intact.peek_eq] at missing
  have room := roomy missing
  rw [intact.size_eq] at room
  omega

theorem Intact.keys_nodup (intact : c.Intact) : c.keys.Nodup := by
  obtain ⟨-, xs, layout⟩ := intact
  rw [keys, layout.map_fst_toList]
  exact layout.keys_nodup

theorem Intact.mem_keys (intact : c.Intact) (key : Key) :
    key ∈ c.keys ↔ c.peek key ≠ none := by
  rw [intact.peek_eq]
  exact Recency.mem_keys

/-- Erasing a key keeps the cache intact and changes nothing under other keys. -/
theorem Intact.erase_holds (intact : c.Intact) (key : Key) :
    (c.erase key).2.Intact ∧
      ∀ other, (c.erase key).2.peek other = if other = key then none else c.peek other := by
  have after := (intact.erase_refines key).1
  refine ⟨after, fun other => ?_⟩
  rw [after.peek_eq, intact.peek_eq, intact.toList_erase]
  exact Recency.peek_erase c.toList key other

theorem value_keep (c : Cache) (key : Key) (value : Value) :
    (c.keep key value).value = (c.put key value).2 := by
  rw [keep]
  rcases c.put key value with ⟨_ | evicted, after⟩ <;> rfl

end Cache

end CacheAside
