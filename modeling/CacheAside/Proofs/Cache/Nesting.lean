import CacheAside.Proofs.Cache.Holding

/-!
# Nested recency lists

Of two recency lists kept under different capacities the shorter one can be a prefix of the longer
one, and then stays one: `Recency.put_isPrefix` and `Recency.erase_isPrefix`. What the longer list
drops stands behind everything that the shorter list has.
-/

namespace CacheAside

namespace Recency

variable {r r' : Recency} {key : Key} {value : Value}

/-- What the shorter list has under a key, the longer one has as well. -/
theorem peek_of_isPrefix (nested : r <+: r') (held : peek r key = some value) :
    peek r' key = some value := by
  obtain ⟨rest, rfl⟩ := nested
  have earlier : List.lookup key r = some value := held
  rw [peek, List.lookup_append, earlier]
  rfl

theorem without_of_peek_eq_none (missing : peek r key = none) : without r key = r :=
  without_eq_self fun member => mem_keys.mp member missing

/-- Taking a key out of both lists keeps the one in front of the other. -/
theorem without_isPrefix (nested : r <+: r') (key : Key) : without r key <+: without r' key :=
  nested.filter _

/-- What is left of a list when a new key comes to it. -/
def room (capacity : Nat) (r : Recency) : Recency :=
  if r.length = capacity then r.dropLast else r

/-- Room is made at the end of a list. -/
theorem room_isPrefix (capacity : Nat) (r : Recency) : room capacity r <+: r := by
  unfold room
  split
  · exact List.dropLast_prefix r
  · exact List.prefix_refl r

theorem length_room (capacity : Nat) (r : Recency) :
    (room capacity r).length = if r.length = capacity then r.length - 1 else r.length := by
  unfold room
  split
  · exact List.length_dropLast
  · rfl

theorem get_known (held : peek r key = some value) :
    get r key = (some value, (key, value) :: without r key) := by
  rw [get, held]

theorem get_new (missing : peek r key = none) : get r key = (none, r) := by
  rw [get, missing]

/-- A put of a present key drops nothing, whatever the capacity. -/
theorem put_known (known : peek r key ≠ none) (capacity : Nat) (value : Value) :
    (put capacity r key value).2 = (key, value) :: without r key := by
  obtain ⟨held, found⟩ := Option.ne_none_iff_exists'.mp known
  rw [put, found]

/-- A put of a new key comes in front of what there is room for. -/
theorem put_new (missing : peek r key = none) (capacity : Nat) (value : Value) :
    (put capacity r key value).2 = (key, value) :: room capacity r := by
  rw [put, missing]
  unfold room
  dsimp only
  split <;> rfl

/-- A pair that is put comes to the front of both lists. Behind it the shorter list drops its last
pair no later than the longer one does. -/
theorem put_isPrefix {small large : Nat} (nested : r <+: r') (fits : r.length ≤ small)
    (le : small ≤ large) (key : Key) (value : Value) :
    (put small r key value).2 <+: (put large r' key value).2 := by
  cases found : peek r key with
  | some held =>
      have known : peek r key ≠ none := by simp [found]
      have known' : peek r' key ≠ none := by simp [peek_of_isPrefix nested found]
      rw [put_known known, put_known known', List.prefix_cons_inj]
      exact without_isPrefix nested key
  | none =>
      rw [put_new found, ← without_of_peek_eq_none found]
      cases found' : peek r' key with
      | some held =>
          have known' : peek r' key ≠ none := by simp [found']
          rw [put_known known', List.prefix_cons_inj]
          exact (room_isPrefix _ _).trans (without_isPrefix nested key)
      | none =>
          rw [put_new found', List.prefix_cons_inj, without_of_peek_eq_none found]
          have left : room small r <+: r' := (room_isPrefix small r).trans nested
          refine List.prefix_of_prefix_length_le left (room_isPrefix large r') ?_
          have shorter : r.length ≤ r'.length := nested.length_le
          rw [length_room, length_room]
          split <;> split <;> omega

theorem erase_eq_without (r : Recency) (key : Key) : (erase r key).2 = without r key := by
  rw [erase]
  cases found : peek r key with
  | some _ => rfl
  | none => exact (without_of_peek_eq_none found).symm

/-- Erasing a key in both lists keeps the one in front of the other. -/
theorem erase_isPrefix (nested : r <+: r') (key : Key) : (erase r key).2 <+: (erase r' key).2 := by
  rw [erase_eq_without, erase_eq_without]
  exact without_isPrefix nested key

end Recency

/-- An intact cache has no more entries than its capacity. -/
theorem Cache.Intact.length_toList {c : Cache} (intact : c.Intact) :
    c.toList.length ≤ c.capacity := by
  obtain ⟨-, xs, layout⟩ := intact
  rw [layout.toList_eq, List.length_map]
  exact layout.bounded

end CacheAside
