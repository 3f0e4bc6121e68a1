import CacheAside.Proofs.Cache.Nesting
import CacheAside.Proofs.Cache.Representation
import Mathlib.Data.Finset.Card

/-!
# How long a key stays

A key that has just been put, or found by a `get`, is the most recently used one. From then on it
stays cached as long as fewer other keys than the capacity have been used, and without erasures it
is gone once as many other keys as the capacity have been put: `Cache.stays_while_few_are_used`.

Both thresholds are read off the keys in front of it, `Recency.ahead`. A key comes there only by
being used, so few used keys leave room behind them; a key that is put stays there until it is
erased, so many of them leave no room.
-/

namespace CacheAside

namespace Recency

variable {r r' : Recency} {key other : Key} {value : Value} {capacity : Nat}

/-- The keys used more recently than `key`. -/
def ahead (r : Recency) (key : Key) : List Key := r.keys.takeWhile (· ≠ key)

/-! ## The keys in front of a key -/

theorem ahead_cons_self (r : Recency) (key : Key) (value : Value) :
    ahead ((key, value) :: r) key = [] :=
  List.takeWhile_cons_of_neg (by simp)

theorem ahead_cons_of_ne (apart : other ≠ key) (r : Recency) (value : Value) :
    ahead ((other, value) :: r) key = other :: ahead r key :=
  List.takeWhile_cons_of_pos (by simpa using apart)

theorem ahead_subset (r : Recency) (key : Key) : ahead r key ⊆ r.keys :=
  (List.takeWhile_sublist _).subset

theorem ahead_nodup (nodup : r.keys.Nodup) (key : Key) : (ahead r key).Nodup :=
  nodup.sublist (List.takeWhile_sublist _)

/-- A key that is taken out is not ahead of another any more. -/
theorem ahead_without (apart : other ≠ key) (r : Recency) :
    ahead (without r other) key = (ahead r key).filter (· ≠ other) := by
  induction r with
  | nil => rfl
  | cons p r ih =>
      rcases p with ⟨first, value⟩
      by_cases gone : first = other
      · subst gone
        have dropped : without ((first, value) :: r) first = without r first :=
          List.filter_cons_of_neg (by simp)
        rw [dropped, ih, ahead_cons_of_ne apart, List.filter_cons_of_neg (by simp)]
      · have stays : without ((first, value) :: r) other = (first, value) :: without r other :=
          List.filter_cons_of_pos (by simpa using gone)
        rw [stays]
        by_cases here : first = key
        · subst here
          rw [ahead_cons_self, ahead_cons_self, List.filter_nil]
        · rw [ahead_cons_of_ne here, ahead_cons_of_ne here, ih,
            List.filter_cons_of_pos (by simpa using gone)]

/-- What comes behind a held key is not in front of it. -/
theorem ahead_of_isPrefix (nested : r <+: r') (held : peek r key ≠ none) :
    ahead r' key = ahead r key := by
  obtain ⟨rest, rfl⟩ := nested
  induction r with
  | nil => exact (held rfl).elim
  | cons p r ih =>
      rcases p with ⟨first, value⟩
      rw [List.cons_append]
      by_cases here : first = key
      · subst here
        rw [ahead_cons_self, ahead_cons_self]
      · rw [peek_cons, if_neg (Ne.symm here)] at held
        rw [ahead_cons_of_ne here, ahead_cons_of_ne here, ih held]

/-- Of a key that is there, not all of the list is ahead. -/
theorem length_ahead_lt (held : peek r key ≠ none) : (ahead r key).length < r.length := by
  induction r with
  | nil => exact (held rfl).elim
  | cons p r ih =>
      rcases p with ⟨first, value⟩
      by_cases here : first = key
      · subst here
        rw [ahead_cons_self]
        exact Nat.succ_pos _
      · rw [peek_cons, if_neg (Ne.symm here)] at held
        rw [ahead_cons_of_ne here]
        exact Nat.succ_lt_succ (ih held)

/-- Only the last key has all others in front of it. -/
theorem peek_dropLast (few : (ahead r key).length + 1 < r.length) : peek r.dropLast key ≠ none := by
  rcases List.eq_nil_or_concat r with rfl | ⟨l, p, rfl⟩
  · cases few
  · rw [List.concat_eq_append] at few ⊢
    rw [List.dropLast_concat]
    intro missing
    have others : ∀ other ∈ l.map Prod.fst, decide (other ≠ key) = true := fun other member =>
      decide_eq_true fun same => mem_keys.mp (same ▸ member) missing
    rw [ahead, keys, List.map_append, List.takeWhile_append_of_pos others] at few
    simp only [List.length_append, List.length_map, List.length_singleton] at few
    omega

/-! ## What an operation puts in front of a key -/

/-- A read of another key that hits puts it ahead, and one that misses changes nothing. -/
theorem ahead_get (apart : other ≠ key) (r : Recency) : ahead (get r other).2 key =
    if peek r other = none then ahead r key else other :: (ahead r key).filter (· ≠ other) := by
  cases found : peek r other with
  | none => rw [get_new found, if_pos rfl]
  | some value => rw [get_known found, if_neg nofun, ahead_cons_of_ne apart, ahead_without apart]

theorem ahead_get_self (held : peek r key ≠ none) : ahead (get r key).2 key = [] := by
  obtain ⟨value, found⟩ := Option.ne_none_iff_exists'.mp held
  rw [get_known found]
  exact ahead_cons_self _ key value

theorem ahead_put_self (capacity : Nat) (r : Recency) (key : Key) (value : Value) :
    ahead (put capacity r key value).2 key = [] := by
  by_cases known : peek r key = none
  · rw [put_new known]
    exact ahead_cons_self _ key value
  · rw [put_known known]
    exact ahead_cons_self _ key value

/-- A key that stays gets the key that is put in front of it. -/
theorem ahead_put (apart : other ≠ key)
    (held : peek (put capacity r other value).2 key ≠ none) :
    ahead (put capacity r other value).2 key = other :: (ahead r key).filter (· ≠ other) := by
  by_cases known : peek r other = none
  · rw [put_new known] at held ⊢
    rw [peek_cons, if_neg apart.symm] at held
    rw [ahead_cons_of_ne apart, ← ahead_without apart, without_of_peek_eq_none known,
      ahead_of_isPrefix (room_isPrefix capacity r) held]
  · rw [put_known known, ahead_cons_of_ne apart, ahead_without apart]

theorem ahead_erase (apart : other ≠ key) (r : Recency) :
    ahead (erase r other).2 key = (ahead r key).filter (· ≠ other) := by
  rw [erase_eq_without]
  exact ahead_without apart r

/-- A key with room for another one between it and the end of a full list stays. -/
theorem peek_put (apart : other ≠ key) (held : peek r key ≠ none)
    (few : peek r other = none → (ahead r key).length + 1 < capacity) :
    peek (put capacity r other value).2 key ≠ none := by
  by_cases known : peek r other = none
  · rw [put_new known, peek_cons, if_neg apart.symm]
    unfold room
    split
    next full => exact peek_dropLast (full ▸ few known)
    next => exact held
  · rwa [put_known known, peek_cons, if_neg apart.symm, peek_without, if_neg apart.symm]

end Recency

namespace Cache

/-! ## What a call does to one key -/

/-- The key that a call uses. -/
def Call.used? : Call → Option Key
  | .put key _ | .get key => some key
  | _ => none

/-- The key that a call puts. -/
def Call.puts? : Call → Option Key
  | .put key _ => some key
  | _ => none

/-- The value that a call puts under `key`. -/
def Call.value? (key : Key) : Call → Option Value
  | .put other value => if other = key then some value else none
  | _ => none

/-- The call has made `key` the most recently used key, in a cache that was `c` before it. -/
def Call.Touches (c : Cache) (key : Key) (call : Call) : Prop :=
  (∃ value, call = .put key value) ∨ (call = .get key ∧ (c.get key).1 ≠ none)

/-- The value put last under `key`. -/
def lastPut (key : Key) (calls : List Call) : Option Value :=
  (calls.filterMap (Call.value? key)).getLast?

end Cache

namespace Recency

variable {r : Recency} {key other : Key} {capacity : Nat} {call : Cache.Call}

/-! ## Few used keys -/

/-- The key is in the list, and only keys among `used` are in front of it. -/
structure Shielded (r : Recency) (key : Key) (used : Finset Key) : Prop where
  held : peek r key ≠ none
  front : ∀ first ∈ ahead r key, first ∈ used

variable {used : Finset Key}

theorem Shielded.filter (shielded : r.Shielded key used) (gone : Key) :
    ∀ first ∈ (ahead r key).filter (· ≠ gone), first ∈ used :=
  fun first member => shielded.front first (List.mem_of_mem_filter member)

theorem Shielded.cons (shielded : r.Shielded key used) (own : other ∈ used) :
    ∀ first ∈ other :: (ahead r key).filter (· ≠ other), first ∈ used := by
  intro first member
  rcases List.mem_cons.mp member with rfl | later
  · exact own
  · exact shielded.filter other first later

/-- A used key that is not in the list is one more than those in front. -/
theorem Shielded.length_lt (shielded : r.Shielded key used) (nodup : r.keys.Nodup)
    (own : other ∈ used) (missing : peek r other = none) :
    (ahead r key).length + 1 ≤ used.card := by
  have fresh : other ∉ ahead r key := fun member =>
    mem_keys.mp (ahead_subset r key member) missing
  have distinct : (other :: ahead r key).Nodup :=
    List.nodup_cons.mpr ⟨fresh, ahead_nodup nodup key⟩
  have inside : (other :: ahead r key).toFinset ⊆ used := by
    intro first member
    rcases List.mem_cons.mp (List.mem_toFinset.mp member) with rfl | later
    · exact own
    · exact shielded.front first later
  have counted := Finset.card_le_card inside
  rwa [List.toFinset_card_of_nodup distinct] at counted

/-- A put keeps the key shielded, as long as fewer keys are used than there is room for. -/
theorem Shielded.put (shielded : r.Shielded key used) (nodup : r.keys.Nodup)
    (few : used.card < capacity) (own : other ≠ key → other ∈ used) (value : Value) :
    (put capacity r other value).2.Shielded key used := by
  by_cases here : other = key
  · subst here
    refine ⟨?_, ?_⟩
    · rw [peek_put_self]
      exact nofun
    · rw [ahead_put_self]
      exact nofun
  · have held : peek (Recency.put capacity r other value).2 key ≠ none :=
      peek_put here shielded.held fun missing =>
        Nat.lt_of_le_of_lt (shielded.length_lt nodup (own here) missing) few
    refine ⟨held, ?_⟩
    rw [ahead_put here held]
    exact shielded.cons (own here)

/-- A read of a used key keeps the key shielded. -/
theorem Shielded.get (shielded : r.Shielded key used) (own : other ≠ key → other ∈ used) :
    (get r other).2.Shielded key used := by
  refine ⟨?_, ?_⟩
  · rw [peek_get]
    exact shielded.held
  · by_cases here : other = key
    · subst here
      rw [ahead_get_self shielded.held]
      exact nofun
    · rw [ahead_get here]
      split
      · exact shielded.front
      · exact shielded.cons (own here)

/-- Erasing another key keeps the key shielded. -/
theorem Shielded.erase (shielded : r.Shielded key used) (apart : other ≠ key) :
    (erase r other).2.Shielded key used := by
  refine ⟨?_, ?_⟩
  · rw [peek_erase, if_neg apart.symm]
    exact shielded.held
  · rw [ahead_erase apart]
    exact shielded.filter other

/-- Used keys that are fewer than the capacity do not displace the key. -/
theorem Shielded.perform (shielded : r.Shielded key used) (nodup : r.keys.Nodup)
    (few : used.card < capacity) (kept : call ≠ .erase key)
    (own : ∀ other, call.used? = some other → other ≠ key → other ∈ used) :
    (perform capacity r call).2.Shielded key used := by
  cases call with
  | put other value => exact shielded.put nodup few (own other rfl) value
  | get other => exact shielded.get (own other rfl)
  | erase other => exact shielded.erase fun here => kept (congrArg _ here)
  | peek | contains | size | isEmpty | keys => exact shielded

/-! ## Many put keys -/

/-- Either the key is no longer in the list, or all the keys `newer` are in front of it. -/
def Overtaken (r : Recency) (key : Key) (newer : List Key) : Prop :=
  peek r key ≠ none → ∀ first ∈ newer, first ∈ ahead r key

variable {newer : List Key}

theorem mem_cons_filter {first : Key} {front : List Key} (member : first ∈ front) (other : Key) :
    first ∈ other :: front.filter (· ≠ other) := by
  by_cases here : first = other
  · exact here ▸ List.mem_cons_self
  · exact List.mem_cons_of_mem other (List.mem_filter.mpr ⟨member, decide_eq_true here⟩)

/-- A put of another key comes in front of the key too, or displaces it. -/
theorem Overtaken.put (overtaken : r.Overtaken key newer) (apart : other ≠ key) (value : Value) :
    (put capacity r other value).2.Overtaken key (newer ++ [other]) := by
  intro held first member
  have before : peek r key ≠ none := by
    obtain ⟨kept, found⟩ := Option.ne_none_iff_exists'.mp held
    rw [peek_of_put apart.symm found]
    exact nofun
  rw [ahead_put apart held]
  rcases List.mem_append.mp member with earlier | new
  · exact mem_cons_filter (overtaken before first earlier) other
  · rw [List.mem_singleton.mp new]
    exact List.mem_cons_self

/-- A read of another key leaves those in front there. -/
theorem Overtaken.get (overtaken : r.Overtaken key newer) (apart : other ≠ key) :
    (get r other).2.Overtaken key newer := by
  intro held first member
  rw [peek_get] at held
  rw [ahead_get apart]
  split
  · exact overtaken held first member
  · exact mem_cons_filter (overtaken held first member) other

/-- Without erasures a put key stays in front of a key that is not used itself. -/
theorem Overtaken.perform (overtaken : r.Overtaken key newer) (kept : ∀ other, call ≠ .erase other)
    (unused : call.used? ≠ some key) :
    (perform capacity r call).2.Overtaken key (newer ++ call.puts?.toList) := by
  cases call with
  | put other value => exact overtaken.put (fun here => unused (congrArg _ here)) value
  | get other =>
      have apart : other ≠ key := fun here => unused (congrArg _ here)
      have after := overtaken.get apart
      rwa [← List.append_nil newer] at after
  | erase other => exact (kept other rfl).elim
  | peek | contains | size | isEmpty | keys =>
      rwa [← List.append_nil newer] at overtaken

end Recency

namespace Cache

variable {c : Cache} {key : Key} {capacity : Nat}

/-! ## Runs -/

/-- A shielded key stays so over any calls that use few keys and do not erase it. -/
theorem Intact.shielded_run {used : Finset Key} (intact : c.Intact)
    (shielded : Recency.Shielded c.toList key used) (few : used.card < c.capacity)
    {calls : List Call} (kept : .erase key ∉ calls)
    (own : ∀ other ∈ calls.filterMap Call.used?, other ≠ key → other ∈ used) :
    Recency.Shielded (runCalls perform c calls).2.toList key used := by
  induction calls generalizing c with
  | nil => exact shielded
  | cons call calls ih =>
      have after := (intact.perform_refines call).1
      have next : Recency.Shielded (c.perform call).2.toList key used := by
        rw [intact.toList_perform]
        refine shielded.perform intact.keys_nodup few (List.ne_of_not_mem_cons kept).symm ?_
        intro other uses
        exact own other (List.mem_filterMap.mpr ⟨call, List.mem_cons_self, uses⟩)
      have fewer : used.card < (c.perform call).2.capacity := by
        rw [capacity_perform]
        exact few
      refine ih after next fewer (List.not_mem_of_not_mem_cons kept) fun other member => ?_
      obtain ⟨call, inside, uses⟩ := List.mem_filterMap.mp member
      exact own other (List.mem_filterMap.mpr ⟨call, List.mem_cons_of_mem _ inside, uses⟩)

/-- A key that is not used is overtaken by all keys that are put in the meantime. -/
theorem Intact.overtaken_run {newer : List Key} (intact : c.Intact)
    (overtaken : Recency.Overtaken c.toList key newer) {calls : List Call}
    (kept : ∀ other, .erase other ∉ calls) (unused : ∀ call ∈ calls, call.used? ≠ some key) :
    Recency.Overtaken (runCalls perform c calls).2.toList key
      (newer ++ calls.filterMap Call.puts?) := by
  induction calls generalizing c newer with
  | nil => rwa [List.filterMap_nil, List.append_nil]
  | cons call calls ih =>
      have after := (intact.perform_refines call).1
      have next : Recency.Overtaken (c.perform call).2.toList key (newer ++ call.puts?.toList) := by
        rw [intact.toList_perform]
        refine overtaken.perform (fun other here => kept other ?_) (unused call List.mem_cons_self)
        exact here ▸ List.mem_cons_self
      have later := ih after next (fun other member => kept other (List.mem_cons_of_mem _ member))
        fun other member => unused other (List.mem_cons_of_mem _ member)
      have split : (call :: calls).filterMap Call.puts? =
          call.puts?.toList ++ calls.filterMap Call.puts? := by
        rw [List.filterMap_cons]
        cases call.puts? <;> rfl
      rw [split, ← List.append_assoc]
      exact later

/-! ## The value put last -/

theorem lastPut_cons (key : Key) (call : Call) (calls : List Call) :
    lastPut key (call :: calls) = (lastPut key calls).or (call.value? key) := by
  rw [lastPut, lastPut, List.filterMap_cons]
  cases call.value? key with
  | none => rw [Option.or_none]
  | some value =>
      rw [List.getLast?_cons]
      cases (calls.filterMap (Call.value? key)).getLast? <;> rfl

/-- A value that is held after a call has been put by it or was held before. -/
theorem Intact.held_perform (intact : c.Intact) {call : Call} {value : Value}
    (held : (c.perform call).2.peek key = some value) :
    (call.value? key).or (c.peek key) = some value := by
  cases call with
  | put other new =>
      rcases intact.held_put held with ⟨rfl, rfl⟩ | ⟨apart, before⟩
      · rw [Call.value?, if_pos rfl]
        rfl
      · rw [Call.value?, if_neg apart.symm]
        exact before
  | get other => exact ((intact.get_holds other).2.2 key).symm.trans held
  | erase other =>
      have after := (intact.erase_holds other).2 key
      rw [perform, Prod.map_snd, id, after] at held
      split at held
      next => cases held
      next => exact held
  | peek | contains | size | isEmpty | keys => exact held

/-- A cached value is the one put last, unless it has been cached all along. -/
theorem Intact.held_run (intact : c.Intact) {calls : List Call} {value : Value}
    (held : (runCalls perform c calls).2.peek key = some value) :
    (lastPut key calls).or (c.peek key) = some value := by
  induction calls generalizing c with
  | nil => exact held
  | cons call calls ih =>
      have later := ih (intact.perform_refines call).1 held
      rw [lastPut_cons, Option.or_assoc]
      cases found : lastPut key calls with
      | some last => rwa [found] at later
      | none =>
          rw [found] at later
          exact intact.held_perform later

/-! ## The thresholds -/

/-- A key that has just been used is held, with nothing in front of it. -/
theorem Call.Touches.front {call : Call} (touched : call.Touches c key) (intact : c.Intact) :
    (c.perform call).2.peek key ≠ none ∧ Recency.ahead (c.perform call).2.toList key = [] := by
  rw [intact.toList_perform]
  rcases touched with ⟨value, rfl⟩ | ⟨rfl, found⟩
  · refine ⟨?_, Recency.ahead_put_self c.capacity c.toList key value⟩
    have held : (c.perform (.put key value)).2.peek key = some value :=
      (intact.put_holds key value).2
    rw [held]
    exact nofun
  · obtain ⟨-, same, kept⟩ := intact.get_holds key
    rw [same] at found
    refine ⟨fun missing => found ((kept key).symm.trans missing), ?_⟩
    rw [intact.peek_eq] at found
    exact Recency.ahead_get_self found

/-- A key in front of all others stays while fewer other keys than the capacity are used. -/
theorem Intact.stays (intact : c.Intact) (held : c.peek key ≠ none)
    (front : Recency.ahead c.toList key = []) {calls : List Call} (unerased : .erase key ∉ calls)
    (few : ((calls.filterMap Call.used?).toFinset.erase key).card < c.capacity) :
    (runCalls perform c calls).2.peek key ≠ none := by
  rw [intact.peek_eq] at held
  have shielded := intact.shielded_run ⟨held, front ▸ nofun⟩ few unerased
    fun other member apart => Finset.mem_erase.mpr ⟨apart, List.mem_toFinset.mpr member⟩
  rw [(intact.runCalls_refines calls).1.peek_eq]
  exact shielded.held

/-- A key that is not used has gone when as many keys as the capacity have been put. -/
theorem Intact.leaves (intact : c.Intact) {calls : List Call}
    (unerased : ∀ other, .erase other ∉ calls) (unused : ∀ call ∈ calls, call.used? ≠ some key)
    (many : c.capacity ≤ ((calls.filterMap Call.puts?).toFinset.erase key).card) :
    (runCalls perform c calls).2.peek key = none := by
  have ended := (intact.runCalls_refines calls).1
  have start : Recency.Overtaken c.toList key [] := fun _ => nofun
  have overtaken := intact.overtaken_run start unerased unused
  rw [ended.peek_eq]
  by_contra held
  have inside : (calls.filterMap Call.puts?).toFinset.erase key ⊆
      (Recency.ahead (runCalls perform c calls).2.toList key).toFinset := fun other member =>
    List.mem_toFinset.mpr
      (overtaken held other (List.mem_toFinset.mp (Finset.mem_of_mem_erase member)))
  have crowd := (Finset.card_le_card inside).trans (List.toFinset_card_le _)
  have behind := Recency.length_ahead_lt held
  have bounded := ended.length_toList
  rw [capacity_runCalls] at bounded
  omega

theorem peek_of_create {new : Cache} (created : create capacity = .ok new) (key : Key) :
    new.peek key = none := by
  have missing : (empty capacity).lookup[key]? = none := Std.TreeMap.getElem?_emptyc
  unfold create at created
  split at created
  next => cases created
  next =>
    cases created
    rw [peek, missing]

/-- A key has just been put or found, in a cache that any calls have made out of a new one, and more
calls follow. If none of them erases it and they put and get fewer other keys than the capacity, the
key is still cached in the end, with the value put last under it. If none of them erases anything or
uses the key and they put at least as many keys as the capacity, it is no longer cached. -/
theorem stays_while_few_are_used {new : Cache} (created : create capacity = .ok new)
    (before : List Call) {touch : Call}
    (touched : touch.Touches (runCalls perform new before).2 key) (after : List Call) :
    let calls := before ++ touch :: after
    let last := (runCalls perform new calls).2
    (.erase key ∉ after → ((after.filterMap Call.used?).toFinset.erase key).card ≤ capacity - 1 →
      last.contains key ∧ ∃ value, last.peek key = some value ∧ lastPut key calls = some value) ∧
    ((∀ other, .erase other ∉ after) → (∀ call ∈ after, call.used? ≠ some key) →
      capacity ≤ ((after.filterMap Call.puts?).toFinset.erase key).card →
      ¬ last.contains key) := by
  intro calls last
  obtain ⟨sound, room⟩ := (Reachable.new created).intact
  have reached := (sound.runCalls_refines before).1
  have ended : last.Intact := (sound.runCalls_refines calls).1
  let used := ((runCalls perform new before).2.perform touch).2
  have intact : used.Intact := (reached.perform_refines touch).1
  have split : last = (runCalls perform used after).2 := runCalls_append perform new before _
  have size : used.capacity = capacity :=
    (capacity_perform _ touch).trans ((capacity_runCalls new before).trans room)
  have positive : 0 < used.capacity := intact.positive
  constructor
  · intro unerased few
    obtain ⟨held, front⟩ := touched.front reached
    have stays := intact.stays held front unerased (by omega)
    rw [← split] at stays
    obtain ⟨value, found⟩ := Option.ne_none_iff_exists'.mp stays
    have put := sound.held_run found
    rw [peek_of_create created, Option.or_none] at put
    refine ⟨?_, value, found, put⟩
    rw [ended.contains_eq, found]
    rfl
  · intro unerased unused many present
    have leaves := intact.leaves unerased unused (by omega)
    rw [← split] at leaves
    rw [ended.contains_eq, leaves] at present
    cases present

/-- In a cache of two, a read moves the older key to the front. One other key, however often it is
used, does not displace it; two other keys do. -/
theorem stays_while_few_are_used_by_read :
    let before : List Call := [.put "a" "1", .put "b" "2"]
    let few : List Call := [.get "b", .erase "b", .put "b" "3", .peek "c", .get "a", .put "b" "4"]
    let many : List Call := [.put "b" "3", .get "c", .put "c" "4"]
    ∃ new, create 2 = .ok new ∧ (Call.get "a").Touches (runCalls perform new before).2 "a" ∧
      (runCalls perform new (before ++ .get "a" :: few)).2.peek "a" = some "1" ∧
      ¬ (runCalls perform new (before ++ .get "a" :: many)).2.contains "a" := by
  intro before few many
  have created : create 2 = .ok (empty 2) := rfl
  have touched : (Call.get "a").Touches (runCalls perform (empty 2) before).2 "a" :=
    .inr ⟨rfl, by decide⟩
  have unerased : ∀ other, .erase other ∉ many := by simp [many]
  obtain ⟨stays, -⟩ := stays_while_few_are_used created before touched few
  obtain ⟨-, leaves⟩ := stays_while_few_are_used created before touched many
  obtain ⟨-, value, held, put⟩ := stays (by decide) (by decide)
  have same : lastPut "a" (before ++ .get "a" :: few) = some "1" := by decide
  exact ⟨empty 2, created, touched, held.trans (put.symm.trans same),
    leaves unerased (by decide) (by decide)⟩

end Cache

end CacheAside
