import CacheAside.Proofs.Cache.Representation
import Mathlib.Data.List.Nodup
import Mathlib.Data.List.Perm.Subperm

/-!
# What an audit decides

`Cache.audit` is meant for broken caches, so nothing here supposes that a cache is reachable: slots,
links and table may hold anything. `Strict.audit` is the same check as a loop that has no budget and
goes astray where a link leads out of the arena. If none does, the loop ends after at most one round
more than the table has keys.

The argument follows the part of the list that has been checked, `Cache.Traced`. Its slots are
distinct because each of them names its predecessor: a slot met again would have the same
predecessor as before, and that one lies in front of it. Hence its keys are distinct keys of the
table, there are not more of them than the table has, and if there are as many they are all of them.
-/

namespace CacheAside.Cache

/-- No link that an audit follows leads out of the arena. The slots may be free, and links may run
in a circle. The tail is compared and not followed, so it may be any number. -/
structure Linked (c : Cache) : Prop where
  head : ∀ i, c.head = some i → i < c.slots.size
  next : ∀ i e, c.entry? i = some e → ∀ j, e.next = some j → j < c.slots.size

/-- The cells `xs` have passed the checks of an audit, which goes on at `cursor`. -/
structure Traced (c : Cache) (xs : List Cell) (cursor : Option Nat) : Prop where
  front : c.Front xs cursor
  nodup : (xs.map Cell.slot).Nodup
  mapped : ∀ x ∈ xs, c.lookup[x.key]? = some x.slot

/-! ## The loop -/

namespace Strict

/-- The loop of an audit, for at most `rounds` rounds. -/
def follow (c : Cache) : (rounds walked : Nat) → (prev cursor : Option Nat) →
    Except Stray (Except Flaw (Option Nat × Nat))
  | _, walked, prev, none => .ok (.ok (prev, walked))
  | 0, _, _, some _ => .error .endless
  | rounds + 1, walked, prev, some i =>
    match c.slots[i]? with
    | none => .error (.outside i)
    | some none => .ok (.error (.freeSlot i))
    | some (some e) =>
      if e.prev ≠ prev then .ok (.error (.backLink e.key))
      else if c.lookup[e.key]? ≠ some i then .ok (.error (.unmapped e.key))
      else if c.lookup.size < walked + 1 then .ok (.error .tooLong)
      else follow c rounds (walked + 1) (some i) e.next

def audit (c : Cache) (rounds : Nat) : Except Stray (Except Flaw Unit) :=
  if c.capacity < c.lookup.size then
    .ok (.error (.overCapacity c.lookup.size c.capacity))
  else
    match follow c rounds 0 none c.head with
    | .error stray => .error stray
    | .ok (.error flaw) => .ok (.error flaw)
    | .ok (.ok (last, walked)) =>
      if last ≠ c.tail then .ok (.error .openEnd)
      else if walked ≠ c.lookup.size then .ok (.error (.miscounted walked c.lookup.size))
      else .ok (.ok ())

end Strict

variable {c : Cache} {xs : List Cell} {cursor : Option Nat} {i : Nat} {e : Entry}

/-- The budget of `Cache.follow` is what the loop may still count, so with a round to spare the loop
comes to the same end. -/
theorem Linked.strict_follow (linked : c.Linked) {budget rounds walked : Nat}
    (inside : ∀ i, cursor = some i → i < c.slots.size) (left : walked + budget = c.lookup.size)
    (enough : budget < rounds) (prev : Option Nat) :
    Strict.follow c rounds walked prev cursor = .ok (c.follow budget walked prev cursor) := by
  induction rounds generalizing budget walked prev cursor with
  | zero => exact (Nat.not_lt_zero _ enough).elim
  | succ rounds ih =>
      cases cursor with
      | none => cases budget <;> rfl
      | some i =>
          rcases slot : c.slots[i]? with _ | _ | e
          · have outside := Array.getElem?_eq_none_iff.mp slot
            exact (Nat.not_lt_of_le outside (inside i rfl)).elim
          · cases budget <;> simp only [Strict.follow, Cache.follow, Cache.entry?, slot] <;> rfl
          · have here : c.entry? i = some e := by rw [Cache.entry?, slot]; rfl
            cases budget with
            | zero =>
                have full : c.lookup.size < walked + 1 := by omega
                simp only [Strict.follow, slot, Cache.follow, here, if_pos full]
                split
                · rfl
                · split <;> rfl
            | succ budget =>
                have room : ¬ c.lookup.size < walked + 1 := by omega
                have counted : walked + 1 + budget = c.lookup.size := by omega
                have further := ih (linked.next i e here) counted (Nat.lt_of_succ_lt_succ enough)
                  (some i)
                simp only [Strict.follow, slot, Cache.follow, here, if_neg room, further]
                split
                · rfl
                · split <;> rfl

/-- With one round more than the table has entries, an audit comes to its end. -/
theorem Linked.strict_audit (linked : c.Linked) {rounds : Nat} (enough : c.lookup.size < rounds) :
    Strict.audit c rounds = .ok c.audit := by
  have followed := linked.strict_follow linked.head (Nat.zero_add c.lookup.size) enough none
  rw [Strict.audit, Cache.audit, followed]
  split
  · rfl
  · rcases c.follow c.lookup.size 0 none c.head with flaw | ⟨last, walked⟩
    · rfl
    · dsimp only
      split
      · rfl
      · split <;> rfl

/-! ## The checked part of the list -/

theorem Traced.nil (c : Cache) : c.Traced [] c.head :=
  ⟨⟨rfl, trivial⟩, List.nodup_nil, fun _ member => nomatch member⟩

/-- An entry that names the last checked cell as its predecessor is not among the checked ones. -/
theorem Traced.fresh (traced : c.Traced xs (some i)) (here : c.entry? i = some e)
    (back : e.prev = Cell.last none xs) : i ∉ xs.map Cell.slot := by
  intro member
  obtain ⟨x, inside, rfl⟩ := List.mem_map.mp member
  obtain ⟨l, r, rfl⟩ := List.append_of_mem inside
  obtain ⟨-, notLeft, notRight, apart⟩ := Cell.nodup_middle traced.nodup
  -- The predecessor is in front of the cell, and the last checked cell is not.
  have entry := (chain_append.mp traced.front.chain).2.1
  rw [here] at entry
  cases entry
  rw [Cell.last_append] at back
  obtain ⟨j, last⟩ := Cell.exists_last x.slot r
  have before : j ∈ l.map Cell.slot :=
    (Cell.mem_of_last (back.trans last)).resolve_left (fun start => nomatch start)
  rcases Cell.mem_of_last last with itself | after
  · cases itself
    exact notLeft before
  · exact apart j after before

/-- One round: an entry that passes both checks is one more checked cell. -/
theorem Traced.snoc (traced : c.Traced xs (some i)) (here : c.entry? i = some e)
    (back : e.prev = Cell.last none xs) (found : c.lookup[e.key]? = some i) :
    c.Traced (xs ++ [⟨i, e.key, e.value⟩]) e.next := by
  have fresh := traced.fresh here back
  refine ⟨⟨?_, chain_append.mpr ⟨traced.front.chain, ?_, trivial⟩⟩, ?_, fun x member => ?_⟩
  · rw [Cell.first_append]
    exact traced.front.head
  · rw [← back]
    exact here
  · rw [List.map_append, List.map_singleton, ← List.concat_eq_append]
    exact List.Nodup.concat fresh traced.nodup
  · rcases List.mem_append.mp member with checked | new
    · exact traced.mapped x checked
    · obtain rfl := List.mem_singleton.mp new
      exact found

/-- The checked keys are distinct keys of the table. -/
theorem Traced.subperm (traced : c.Traced xs cursor) : (xs.map Cell.key).Subperm c.lookup.keys := by
  refine (keys_nodup_of_mapped traced.nodup traced.mapped).subperm fun key member => ?_
  obtain ⟨x, checked, rfl⟩ := List.mem_map.mp member
  rw [Std.TreeMap.mem_keys, Std.TreeMap.mem_iff_isSome_getElem?, traced.mapped x checked]
  rfl

theorem Traced.length_le (traced : c.Traced xs cursor) : xs.length ≤ c.lookup.size := by
  have length := traced.subperm.length_le
  rwa [List.length_map, Std.TreeMap.length_keys] at length

/-- The loop never counts more entries than the table has keys, and where it ends without a flaw,
all that it has met is checked. -/
theorem Traced.follow {budget walked : Nat} {prev : Option Nat} (traced : c.Traced xs cursor)
    (reached : Cell.last none xs = prev) (counted : xs.length = walked)
    (left : walked + budget = c.lookup.size) :
    c.follow budget walked prev cursor ≠ .error .tooLong ∧
      ∀ last met, c.follow budget walked prev cursor = .ok (last, met) →
        ∃ ys, c.Traced ys none ∧ Cell.last none ys = last ∧ ys.length = met := by
  fun_induction Cache.follow c budget walked prev cursor generalizing xs with
  | case1 =>
      refine ⟨nofun, ?_⟩
      rintro _ _ ⟨⟩
      exact ⟨xs, traced, reached, counted⟩
  | case2 | case3 | case4 => exact ⟨nofun, nofun⟩
  -- The entry passes both checks, so the table has a key for it beside those counted before.
  | case5 walked prev i e here back found =>
      subst reached
      have longer := (traced.snoc here (of_not_not back) (of_not_not found)).length_le
      rw [List.length_append, List.length_singleton, counted] at longer
      omega
  | case6 walked prev i e here back found budget ih =>
      subst reached
      refine ih (traced.snoc here (of_not_not back) (of_not_not found)) (Cell.last_append ..) ?_ ?_
      · rw [List.length_append, List.length_singleton, counted]
      · omega

/-- Cells that pass up to the tail, as many as the table has entries, make a sound cache. -/
theorem Traced.sound (traced : c.Traced xs none) (tail : Cell.last none xs = c.tail)
    (full : xs.length = c.lookup.size) (bounded : c.lookup.size ≤ c.capacity) : c.Sound xs := by
  refine ⟨⟨traced.front.head, tail.symm, traced.front.chain, traced.nodup⟩, traced.mapped,
    fun key => ?_, bounded⟩
  have enough : c.lookup.keys.length ≤ (xs.map Cell.key).length := by
    rw [List.length_map, Std.TreeMap.length_keys]
    exact Nat.le_of_eq full.symm
  rw [← Std.TreeMap.mem_keys, (traced.subperm.perm_of_length_le enough).mem_iff]

/-! ## The verdict -/

/-- An audit accepts a cache exactly if it is sound. -/
theorem audit_eq_ok_iff : c.audit = .ok () ↔ ∃ xs, c.Sound xs := by
  refine ⟨fun passed => ?_, fun ⟨xs, sound⟩ => sound.audit⟩
  have whole := (Traced.nil c).follow rfl rfl (Nat.zero_add _)
  revert passed
  fun_cases Cache.audit c with
  | case1 | case2 | case3 | case4 => nofun
  | case5 within last walked followed tail full =>
      obtain ⟨xs, traced, rfl, rfl⟩ := whole.2 last walked followed
      exact fun _ =>
        ⟨xs, traced.sound (of_not_not tail) (of_not_not full) (Nat.le_of_not_lt within)⟩

/-- The list cannot outrun the table, as a repeated key is found out before. -/
theorem audit_ne_tooLong (c : Cache) : c.audit ≠ .error .tooLong := by
  have whole := (Traced.nil c).follow rfl rfl (Nat.zero_add _)
  fun_cases Cache.audit c with
  | case1 | case3 | case4 | case5 => nofun
  | case2 within flaw followed =>
      rintro ⟨⟩
      exact whole.1 followed

theorem Flaw.message_ne_tooLong {flaw : Flaw} (other : flaw ≠ .tooLong) :
    flaw.message ≠ "recency list longer than lookup table" := by
  -- Each of the other texts has a character that this one has not.
  suffices differs : ∃ mark, mark ∈ flaw.message.toList ∧
      mark ∉ "recency list longer than lookup table".toList by
    obtain ⟨mark, here, nowhere⟩ := differs
    exact fun same => nowhere (same ▸ here)
  unfold Flaw.message
  cases flaw with
  | overCapacity => exact ⟨'x', by simp [toString], by decide⟩
  | freeSlot => exact ⟨'f', by simp [toString], by decide⟩
  | backLink => exact ⟨Char.ofNat 39, by simp [toString], by decide⟩
  | unmapped => exact ⟨'m', by simp [toString], by decide⟩
  | tooLong => exact (other rfl).elim
  | openEnd => exact ⟨'d', by simp, by decide⟩
  | miscounted => exact ⟨'d', by simp [toString], by decide⟩

/-- On a cache whose links stay in the arena the loop ends, however they run; the audit passes
exactly where the cache is sound, and it never reports that the list is longer than the table. -/
theorem audit_exact (linked : c.Linked) :
    (∀ rounds, c.lookup.size < rounds → Strict.audit c rounds = .ok c.audit) ∧
      (c.audit = .ok () ↔ ∃ xs, c.Sound xs) ∧
      ∀ flaw, c.audit = .error flaw → flaw.message ≠ "recency list longer than lookup table" := by
  refine ⟨fun _ enough => linked.strict_audit enough, audit_eq_ok_iff, fun flaw found => ?_⟩
  refine Flaw.message_ne_tooLong fun same => audit_ne_tooLong c ?_
  rw [found, same]

/-- Two entries in a circle. Where it closes, the first one is met from the second. -/
theorem audit_exact_circle :
    let c : Cache :=
      { capacity := 2
        lookup := (({} : Std.TreeMap Key Nat).insert "a" 0).insert "b" 1
        slots := #[some ⟨"a", "1", none, some 1⟩, some ⟨"b", "2", some 0, some 0⟩]
        head := some 0
        tail := some 1 }
    c.Linked ∧ (¬ ∃ xs, c.Sound xs) ∧
      ∀ rounds, 2 < rounds → Strict.audit c rounds = .ok (.error (.backLink "a")) := by
  intro c
  have linked : c.Linked := by
    refine ⟨by rintro i ⟨⟩; decide, fun i e here j next => ?_⟩
    match i, here with
    | 0, here => cases here; cases next; decide
    | 1, here => cases here; cases next; decide
    | i + 2, here => cases here
  obtain ⟨ended, passes, -⟩ := audit_exact linked
  have found : c.audit = .error (.backLink "a") := by decide +kernel
  rw [found] at ended passes
  exact ⟨linked, fun sound => (nomatch passes.mpr sound), ended⟩

end CacheAside.Cache
