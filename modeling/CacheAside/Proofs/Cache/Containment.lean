import CacheAside.Proofs.Cache.Nesting
import CacheAside.Proofs.Cache.Refinement

/-!
# A larger cache contains a smaller one

The same calls are made on two caches of different capacities. A `get` that finds its key in the
larger cache only moves it to the front there only, so the recency list of the smaller cache does
not stay a prefix of that of the larger one. It stays a part of it, in the same order:
`Cache.larger_contains_smaller`.

The larger cache must not displace a pair while the smaller one keeps it. When it is full, the
smaller one is full as well, since it never lags behind by more than the capacities differ; that is
the second half of the invariant `Recency.Inside`.
-/

namespace CacheAside

namespace Recency

variable {r r' : Recency} {key : Key} {value : Value} {small large : Nat}

/-! ## Part of a list -/

/-- Keys that differ are found with the same values in the whole list. -/
theorem peek_of_sublist (pairs : r.Sublist r') (nodup : r'.keys.Nodup)
    (held : peek r key = some value) : peek r' key = some value := by
  induction pairs with
  | slnil => cases held
  | cons p _ ih =>
      obtain ⟨fresh, nodup⟩ := List.nodup_cons.mp nodup
      have later := ih nodup held
      have member := mem_keys.mpr (by rw [later]; exact nofun)
      have apart : key ≠ p.1 := fun same => fresh (same ▸ member)
      rw [peek_cons, if_neg apart]
      exact later
  | cons_cons p _ ih =>
      rw [peek_cons] at held ⊢
      split at held
      next here => rwa [if_pos here]
      next apart =>
        rw [if_neg apart]
        exact ih (List.nodup_cons.mp nodup).2 held

/-- Without their last pairs, the one list is still a part of the other. -/
theorem dropLast_sublist (pairs : r.Sublist r') : r.dropLast.Sublist r'.dropLast := by
  rcases List.eq_nil_or_concat r' with rfl | ⟨l, p, rfl⟩
  · obtain rfl := List.sublist_nil.mp pairs
    exact List.Sublist.refl _
  · rw [List.concat_eq_append] at pairs ⊢
    rw [List.dropLast_concat]
    obtain ⟨first, last, rfl, inside, final⟩ := List.sublist_append_iff.mp pairs
    cases final with
    | cons _ none =>
        rw [List.sublist_nil.mp none, List.append_nil]
        exact (List.dropLast_sublist first).trans inside
    | cons_cons _ none =>
        rw [List.sublist_nil.mp none, List.dropLast_concat]
        exact inside

theorem length_without_lt (held : peek r key ≠ none) : (without r key).length < r.length := by
  obtain ⟨pair, member, here⟩ := List.mem_map.mp (mem_keys.mpr held)
  exact List.length_filter_lt_length_iff_exists.mpr ⟨pair, member, by simpa using here⟩

theorem length_without_add (r : Recency) (key : Key) :
    (without r key).length + r.countP (·.1 = key) = r.length := by
  have split := List.length_eq_countP_add_countP (fun p => decide (p.1 = key)) (l := r)
  rw [without, ← List.countP_eq_length_filter, Nat.add_comm]
  simpa using split.symm

/-- The pairs of the first list are pairs of the second one in the same order, and the second list
is not longer by more than its capacity is greater. -/
structure Inside (r r' : Recency) (small large : Nat) : Prop where
  pairs : r.Sublist r'
  gap : r'.length + small ≤ r.length + large

theorem Inside.without (inside : r.Inside r' small large) (key : Key) :
    (without r key).Inside (without r' key) small large := by
  refine ⟨inside.pairs.filter _, ?_⟩
  -- The first list loses no more pairs than the second one.
  have lost := inside.pairs.countP_le (p := (·.1 = key))
  have length := length_without_add r key
  have length' := length_without_add r' key
  have gap := inside.gap
  omega

theorem Inside.cons (inside : r.Inside r' small large) (pair : Key × Value) :
    Inside (pair :: r) (pair :: r') small large := by
  refine ⟨inside.pairs.cons_cons pair, ?_⟩
  have gap := inside.gap
  simp only [List.length_cons]
  omega

/-! ## The operations -/

/-- When a new key comes to both lists and the second one is full, the first one is full too. -/
theorem Inside.room (inside : r.Inside r' small large) (positive : 0 < small)
    (fits : r.length ≤ small) (fits' : r'.length ≤ large) :
    (room small r).Inside (room large r') small large := by
  have gap := inside.gap
  have shorter := inside.pairs.length_le
  have length := length_room small r
  have length' := length_room large r'
  refine ⟨?_, ?_⟩
  · unfold Recency.room
    by_cases full' : r'.length = large
    · have full : r.length = small := by omega
      rw [if_pos full, if_pos full']
      exact dropLast_sublist inside.pairs
    · rw [if_neg full']
      exact (room_isPrefix small r).sublist.trans inside.pairs
  · split at length <;> split at length' <;> omega

/-- When the key is new in the first list only, the second one drops no pair. -/
theorem Inside.room_without (inside : r.Inside r' small large) (positive : 0 < small)
    (fits' : r'.length ≤ large) (missing : peek r key = none) (held : peek r' key ≠ none) :
    (Recency.room small r).Inside (Recency.without r' key) small large := by
  have others := inside.without key
  rw [without_of_peek_eq_none missing] at others
  have gap := others.gap
  have shorter := length_without_lt held
  have length := length_room small r
  refine ⟨(room_isPrefix small r).sublist.trans others.pairs, ?_⟩
  split at length <;> omega

/-- A put on both lists keeps the one inside the other. -/
theorem Inside.put (inside : r.Inside r' small large) (nodup : r'.keys.Nodup) (positive : 0 < small)
    (fits : r.length ≤ small) (fits' : r'.length ≤ large) (key : Key) (value : Value) :
    (put small r key value).2.Inside (put large r' key value).2 small large := by
  by_cases missing : peek r key = none
  · rw [put_new missing]
    by_cases missing' : peek r' key = none
    · rw [put_new missing']
      exact (inside.room positive fits fits').cons _
    · rw [put_known missing']
      exact (inside.room_without positive fits' missing missing').cons _
  · obtain ⟨kept, held⟩ := Option.ne_none_iff_exists'.mp missing
    have known' : peek r' key ≠ none := by
      rw [peek_of_sublist inside.pairs nodup held]
      exact nofun
    rw [put_known missing, put_known known']
    exact (inside.without key).cons _

/-- A read on both lists keeps the one inside the other, also if only the larger one has the key. -/
theorem Inside.get (inside : r.Inside r' small large) (nodup : r'.keys.Nodup) (key : Key) :
    (get r key).2.Inside (get r' key).2 small large := by
  cases held : peek r key with
  | some value =>
      rw [get_known held, get_known (peek_of_sublist inside.pairs nodup held)]
      exact (inside.without key).cons _
  | none =>
      rw [get_new held]
      cases held' : peek r' key with
      | none =>
          rw [get_new held']
          exact inside
      | some value =>
          -- Only the second list changes: the pair it finds moves to the front.
          have others := inside.without key
          rw [without_of_peek_eq_none held] at others
          have known' : peek r' key ≠ none := by
            rw [held']
            exact nofun
          have shorter := length_without_lt known'
          have gap := inside.gap
          rw [get_known held']
          refine ⟨others.pairs.cons _, ?_⟩
          simp only [List.length_cons]
          omega

/-- Erasing a key in both lists keeps the one inside the other. -/
theorem Inside.erase (inside : r.Inside r' small large) (key : Key) :
    (erase r key).2.Inside (erase r' key).2 small large := by
  rw [erase_eq_without, erase_eq_without]
  exact inside.without key

theorem Inside.perform (inside : r.Inside r' small large) (nodup : r'.keys.Nodup)
    (positive : 0 < small) (fits : r.length ≤ small) (fits' : r'.length ≤ large)
    (call : Cache.Call) :
    (perform small r call).2.Inside (perform large r' call).2 small large := by
  cases call with
  | put key value => exact inside.put nodup positive fits fits' key value
  | get key => exact inside.get nodup key
  | erase key => exact inside.erase key
  | peek | contains | size | isEmpty | keys => exact inside

end Recency

namespace Cache

variable {c c' : Cache}

/-! ## Runs on two caches -/

theorem Intact.erase_fst (intact : c.Intact) (key : Key) :
    (c.erase key).1 = (c.peek key).isSome := by
  have same : (c.erase key).1 = (Recency.erase c.toList key).1 :=
    congrArg Prod.fst (intact.erase_refines key).2
  rw [same, intact.peek_eq, Recency.erase]
  cases Recency.peek c.toList key <;> rfl

/-- Caches that begin the one inside the other stay so over the same calls. -/
theorem Intact.inside_run (intact : c.Intact) (intact' : c'.Intact)
    (inside : Recency.Inside c.toList c'.toList c.capacity c'.capacity) (calls : List Call) :
    Recency.Inside (runCalls perform c calls).2.toList (runCalls perform c' calls).2.toList
      c.capacity c'.capacity := by
  induction calls generalizing c c' with
  | nil => exact inside
  | cons call calls ih =>
      have after := (intact.perform_refines call).1
      have after' := (intact'.perform_refines call).1
      have next := inside.perform intact'.keys_nodup intact.positive intact.length_toList
        intact'.length_toList call
      rw [← intact.toList_perform, ← intact'.toList_perform, ← capacity_perform c call,
        ← capacity_perform c' call] at next
      have later := ih after after' next
      rw [capacity_perform, capacity_perform] at later
      exact later

/-- The same calls on two new caches. As the calls are arbitrary, their end is any moment of any
run: the smaller cache lists some of the keys of the larger one, in the same order and with the same
values, whatever a `get` or an `erase` finds in it is found in the larger one, and the larger one
has no more keys than that by more than its capacity is greater. -/
theorem larger_contains_smaller {small large : Nat} (positive : 0 < small) (le : small ≤ large)
    (calls : List Call) :
    ∃ few many, create small = .ok few ∧ create large = .ok many ∧
      let c := (runCalls perform few calls).2
      let c' := (runCalls perform many calls).2
      c.keys.Sublist c'.keys ∧
        (∀ key value, c.peek key = some value → c'.peek key = some value) ∧
        (∀ key value, (c.get key).1 = some value → (c'.get key).1 = some value) ∧
        (∀ key, (c.erase key).1 = true → (c'.erase key).1 = true ∧ c'.peek key = c.peek key) ∧
        c.size ≤ c'.size ∧ c'.size - c.size ≤ large - small := by
  have created : ∀ {capacity}, 0 < capacity → create capacity = .ok (empty capacity) :=
    fun positive => if_neg (Nat.ne_of_gt positive)
  have positive' : 0 < large := Nat.lt_of_lt_of_le positive le
  refine ⟨empty small, empty large, created positive, created positive', ?_⟩
  intro c c'
  have intact : c.Intact := ((Intact.empty positive).runCalls_refines calls).1
  have intact' : c'.Intact := ((Intact.empty positive').runCalls_refines calls).1
  have apart : 0 + small ≤ 0 + large := Nat.add_le_add_left le 0
  obtain ⟨pairs, gap⟩ := (Intact.empty positive).inside_run (Intact.empty positive')
    ⟨List.Sublist.refl _, apart⟩ calls
  have held : ∀ key value, c.peek key = some value → c'.peek key = some value := by
    intro key value found
    rw [intact.peek_eq] at found
    rw [intact'.peek_eq]
    exact Recency.peek_of_sublist pairs intact'.keys_nodup found
  refine ⟨pairs.map Prod.fst, held, fun key value found => ?_, fun key found => ?_, ?_, ?_⟩
  · rw [(intact.get_holds key).2.1] at found
    rw [(intact'.get_holds key).2.1]
    exact held key value found
  · rw [intact.erase_fst] at found
    rw [intact'.erase_fst]
    obtain ⟨value, here⟩ := Option.isSome_iff_exists.mp found
    have there := held key value here
    rw [here, there]
    exact ⟨rfl, rfl⟩
  · rw [intact.size_eq, intact'.size_eq]
    exact pairs.length_le
  · have gap : c'.toList.length + small ≤ c.toList.length + large := gap
    rw [intact.size_eq, intact'.size_eq]
    omega

/-- A read that hits in the larger cache only leaves its keys in another order than the smaller
cache has: the key of the smaller one is not the first one of the larger one. -/
theorem larger_contains_smaller_reordered :
    let calls : List Call := [.put "a" "1", .put "b" "2", .get "a", .erase "c"]
    0 < 1 ∧ 1 ≤ 3 ∧ ∃ few many, create 1 = .ok few ∧ create 3 = .ok many ∧
      (runCalls perform few calls).2.keys = ["b"] ∧
      (runCalls perform many calls).2.keys = ["a", "b"] ∧
      ((runCalls perform many calls).2.get "b").1 = some "2" ∧
      (runCalls perform many calls).2.size - (runCalls perform few calls).2.size ≤ 2 := by
  intro calls
  obtain ⟨few, many, created, created', -, -, gets, -, -, gap⟩ :=
    larger_contains_smaller (by decide : 0 < 1) (by decide : 1 ≤ 3) calls
  cases created
  cases created'
  exact ⟨by decide, by decide, _, _, rfl, rfl, by decide, by decide, gets "b" "2" (by decide), gap⟩

end Cache

end CacheAside
