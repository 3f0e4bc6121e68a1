import Mathlib.Data.List.Nodup
import Mathlib.Data.List.Perm.Subperm
import CacheAside.Proofs.Cache.Holding
import CacheAside.Proofs.Dispatch.Interleaving
import CacheAside.Proofs.Dispatch.Stepping
import CacheAside.Proofs.Dispatch.Transparency

/-!
# Operations on different keys

Operations that share a cache and a store in memory, no two of them on one key, meet in one way
only: a pair that is put into the cache may displace another. `Reached` says, key by key, how far an
operation has come and what the cache and the store have under its key by then, and it leaves open
whether the cached pair has been displaced. Every step keeps it, whoever makes it (`Independent`).
So the order in which the steps are made shows in nothing but the cache and in whether a read hits,
and not even there if the cache has room for all keys: `Independent.agree`.
-/

namespace CacheAside

/-- What the cache has where this is expected: it has it, or it was displaced, unless there is ample
room. -/
def Left (ample : Prop) (expected actual : Option Value) : Prop :=
  actual = expected ∨ ¬ ample ∧ actual = none

namespace Left

variable {ample : Prop} {expected actual later : Option Value} {value : Value}

theorem refl : Left ample expected expected := .inl rfl

theorem trans (left : Left ample expected actual) (left' : Left ample actual later) :
    Left ample expected later := by
  rcases left' with rfl | ⟨scarce, rfl⟩
  · exact left
  · exact .inr ⟨scarce, rfl⟩

theorem eq_of_some (left : Left ample expected (some value)) : expected = some value := by
  rcases left with same | ⟨-, gone⟩
  · exact same.symm
  · cases gone

theorem eq_of_ample (left : Left ample expected actual) (enough : ample) : actual = expected := by
  rcases left with same | ⟨scarce, -⟩
  · exact same
  · exact absurd enough scarce

theorem put {c : Cache} {key other : Key} (intact : c.Intact) (apart : other ≠ key)
    (roomy : ample → c.peek key = none → c.size < c.capacity) (value : Value) :
    Left ample (c.peek other) ((c.put key value).2.peek other) := by
  by_cases enough : ample
  · exact .inl (intact.put_roomy apart (roomy enough) value)
  · rcases intact.put_displaces apart value with same | gone
    · exact .inl same
    · exact .inr ⟨enough, gone⟩

end Left

/-- How far an operation has come on its own key, with what the cache and the store had there when
it started, and what they have there now. -/
inductive Reached (ample : Prop) (cached₀ stored₀ : Option Value) :
    Operation → Task → (cached stored : Option Value) → Prop
  | begun {op : Operation} {cached : Option Value} (left : Left ample cached₀ cached) :
    Reached ample cached₀ stored₀ op (.begun op) cached stored₀
  | refused {op : Operation} {cached : Option Value} (invalid : op.key = "" ∨ op.request = none)
      (left : Left ample cached₀ cached) :
    Reached ample cached₀ stored₀ op (.ended Dispatch.refused) cached stored₀
  | finding {key : Key} {cached : Option Value} (named : key ≠ "")
      (left : Left ample cached₀ cached) :
    Reached ample cached₀ stored₀ (.read key) (.finding key) cached stored₀
  | fetching {key : Key} {cached : Option Value} (named : key ≠ "")
      (left : Left ample cached₀ cached) :
    Reached ample cached₀ stored₀ (.read key) (.fetching key) cached stored₀
  | filling {key : Key} {value : Value} {cached : Option Value} (named : key ≠ "")
      (had : stored₀ = some value) (left : Left ample cached₀ cached) :
    Reached ample cached₀ stored₀ (.read key) (.filling key value) cached stored₀
  | found {key : Key} {value : Value} {cached : Option Value} (named : key ≠ "")
      (had : stored₀ = some value) (left : Left ample stored₀ cached) :
    Reached ample cached₀ stored₀ (.read key) (.ended (.answered (.found value))) cached stored₀
  | absent {key : Key} {cached : Option Value} (named : key ≠ "") (had : stored₀ = none)
      (left : Left ample stored₀ cached) :
    Reached ample cached₀ stored₀ (.read key) (.ended (.answered ⟨.notFound, none⟩)) cached stored₀
  | storing {key : Key} {value : Value} {cached : Option Value} (named : key ≠ "")
      (left : Left ample cached₀ cached) :
    Reached ample cached₀ stored₀ (.write key (some value)) (.storing key value) cached stored₀
  | adopting {key : Key} {value : Value} {cached : Option Value} (named : key ≠ "")
      (left : Left ample cached₀ cached) :
    Reached ample cached₀ stored₀ (.write key (some value)) (.adopting key value) cached
      (some value)
  | written {key : Key} {value : Value} {cached : Option Value} (named : key ≠ "")
      (left : Left ample (some value) cached) :
    Reached ample cached₀ stored₀ (.write key (some value)) (.ended (.answered ⟨.ok, none⟩)) cached
      (some value)
  | removing {key : Key} {cached : Option Value} (named : key ≠ "")
      (left : Left ample cached₀ cached) :
    Reached ample cached₀ stored₀ (.delete key) (.removing key) cached stored₀
  | forgetting {key : Key} {cached : Option Value} (named : key ≠ "")
      (left : Left ample cached₀ cached) :
    Reached ample cached₀ stored₀ (.delete key) (.forgetting key) cached none
  | deleted {key : Key} {cached : Option Value} (named : key ≠ "")
      (left : Left ample none cached) :
    Reached ample cached₀ stored₀ (.delete key) (.ended (.answered ⟨.ok, none⟩)) cached none

namespace Reached

variable {ample : Prop} {cached₀ stored₀ cached stored later : Option Value} {op : Operation}
  {task task' : Task} {s s' : Shared} {t t' : Unit × Table}

/-- Others may displace the cached pair. -/
theorem displaced (reached : Reached ample cached₀ stored₀ op task cached stored)
    (change : Left ample cached later) : Reached ample cached₀ stored₀ op task later stored := by
  cases reached with
  | begun left => exact .begun (left.trans change)
  | refused invalid left => exact .refused invalid (left.trans change)
  | finding named left => exact .finding named (left.trans change)
  | fetching named left => exact .fetching named (left.trans change)
  | filling named had left => exact .filling named had (left.trans change)
  | found named had left => exact .found named had (left.trans change)
  | absent named had left => exact .absent named had (left.trans change)
  | storing named left => exact .storing named (left.trans change)
  | adopting named left => exact .adopting named (left.trans change)
  | written named left => exact .written named (left.trans change)
  | removing named left => exact .removing named (left.trans change)
  | forgetting named left => exact .forgetting named (left.trans change)
  | deleted named left => exact .deleted named (left.trans change)

theorem plan (left : Left ample cached₀ cached) (op : Operation) :
    Reached ample cached₀ stored₀ op (Task.plan op) cached stored₀ := by
  rcases op.valid_cases with invalid | ⟨key, named, rfl | ⟨value, rfl⟩ | rfl⟩
  · rw [Task.plan_of_invalid invalid]
    exact .refused invalid left
  · rw [Task.plan_read named]
    exact .finding named left
  · rw [Task.plan_write named]
    exact .storing named left
  · rw [Task.plan_delete named]
    exact .removing named left

/-- A step of an operation takes it further on its own key. -/
theorem step (coherent : ∀ value, cached₀ = some value → stored₀ = some value)
    (intact : s.cache.Intact) (reached : Reached ample cached₀ stored₀ op task cached stored)
    (held : s.cache.peek op.key = cached) (content : t.2[op.key]? = stored)
    (step : Task.Step Memory.backend.answering s t task (task', s', t')) :
    ∃ cached' stored', s'.cache.peek op.key = cached' ∧ t'.2[op.key]? = stored' ∧
      Reached ample cached₀ stored₀ op task' cached' stored' := by
  cases step with
  | begun =>
      cases reached with
      | begun left => exact ⟨_, _, held, content, plan left op⟩
  | @hit key value found =>
      cases reached with
      | finding named left =>
          have same : (s.cache.get key).2.peek key = some value :=
            ((intact.get_holds key).2.2 key).trans found
          cases held.symm.trans found
          have had := coherent value left.eq_of_some
          exact ⟨_, _, same, content, .found named had (.inl had.symm)⟩
  | missed =>
      cases reached with
      | finding named left => exact ⟨_, _, held, content, .fetching named left⟩
  | fetched replied =>
      cases reached with
      | fetching named left =>
          obtain ⟨had, rfl⟩ := Memory.served replied
          exact ⟨_, _, held, content, .filling named (content.symm.trans had) left⟩
  | absent replied =>
      cases reached with
      | fetching named left =>
          obtain ⟨had, rfl⟩ := Memory.served replied
          have none := content.symm.trans had
          -- What is not stored cannot have been cached either.
          have empty : cached₀ = .none := by
            cases before : cached₀ with
            | none => rfl
            | some value => cases none.symm.trans (coherent value before)
          rw [empty, ← none] at left
          exact ⟨_, _, held, content, .absent named none left⟩
  | filled key value =>
      cases reached with
      | filling named had =>
          have kept := (intact.put_holds key value).2
          exact ⟨_, _, kept, content, .found named had (.inl had.symm)⟩
  | @stored key value _ _ replied =>
      cases reached with
      | storing named left =>
          obtain ⟨-, rfl⟩ := Memory.served replied
          have now := (Table.getElem?_insert t.2 key key value).trans (if_pos rfl)
          exact ⟨_, _, held, now, .adopting named left⟩
  | adopted key value =>
      cases reached with
      | adopting named =>
          have kept := (intact.put_holds key value).2
          exact ⟨_, _, kept, content, .written named .refl⟩
  | @removed key _ _ replied =>
      cases reached with
      | removing named left =>
          obtain ⟨-, rfl⟩ := Memory.served replied
          have now := (Table.getElem?_erase t.2 key key).trans (if_pos rfl)
          exact ⟨_, _, held, now, .forgetting named left⟩
  | forgotten key =>
      cases reached with
      | forgetting named =>
          have gone := ((intact.erase_holds key).2 key).trans (if_pos rfl)
          exact ⟨_, _, gone, content, .deleted named .refl⟩
  | ended => exact ⟨_, _, held, content, reached⟩
  | failed _ replied trouble => exact (Memory.unfailing replied trouble).elim

/-- Away from its own key a step of an operation changes nothing, except that the pair it puts into
the cache may displace another. -/
theorem elsewhere {key : Key} (intact : s.cache.Intact)
    (reached : Reached ample cached₀ stored₀ op task cached stored)
    (roomy : ample → s.cache.peek op.key = none → s.cache.size < s.cache.capacity)
    (step : Task.Step Memory.backend.answering s t task (task', s', t')) (apart : key ≠ op.key) :
    t'.2[key]? = t.2[key]? ∧ Left ample (s.cache.peek key) (s'.cache.peek key) := by
  cases step with
  | begun | missed | ended => exact ⟨rfl, .refl⟩
  | hit => exact ⟨rfl, .inl ((intact.get_holds _).2.2 key)⟩
  | fetched replied | absent replied =>
      obtain ⟨-, rfl⟩ := Memory.served replied
      exact ⟨rfl, .refl⟩
  | filled _ value =>
      cases reached with
      | filling => exact ⟨rfl, .put intact apart roomy value⟩
  | stored replied =>
      cases reached with
      | storing =>
          obtain ⟨-, rfl⟩ := Memory.served replied
          exact ⟨(Table.getElem?_insert t.2 _ key _).trans (if_neg apart), .refl⟩
  | adopted _ value =>
      cases reached with
      | adopting => exact ⟨rfl, .put intact apart roomy value⟩
  | removed replied =>
      cases reached with
      | removing =>
          obtain ⟨-, rfl⟩ := Memory.served replied
          exact ⟨(Table.getElem?_erase t.2 _ key).trans (if_neg apart), .refl⟩
  | forgotten =>
      cases reached with
      | forgetting => exact ⟨rfl, .inl (((intact.erase_holds _).2 key).trans (if_neg apart))⟩
  | failed _ replied trouble => exact (Memory.unfailing replied trouble).elim

/-- What an operation has come to in the end: the outcome that it has on a map without a cache, and
what it makes of that map. Unless it was refused, the cache agrees with the store. -/
theorem ended {p : Plain} {result : Result}
    (reached : Reached ample cached₀ (p op.key) op (.ended result) cached stored) :
    result = .answered (p.outcome op) ∧ stored = p.settle op result op.key ∧
      Left ample (if result = Dispatch.refused then cached₀ else stored) cached := by
  generalize before : p op.key = stored₀ at reached
  cases reached with
  | refused invalid left =>
      rw [Plain.outcome_of_invalid p invalid]
      exact ⟨rfl, before.symm, left⟩
  | @found key value _ named had left =>
      have content : p key = some value := before.trans had
      rw [Plain.outcome, Operation.key, if_neg named, content]
      exact ⟨rfl, before.symm, left⟩
  | @absent key _ named had left =>
      have content : p key = none := before.trans had
      rw [Plain.outcome, Operation.key, if_neg named, content]
      exact ⟨rfl, before.symm, left⟩
  | @written key value _ named left =>
      rw [Plain.outcome, Operation.key, if_neg named]
      exact ⟨rfl, (if_pos rfl).symm, left⟩
  | @deleted key _ named left =>
      rw [Plain.outcome, Operation.key, if_neg named]
      exact ⟨rfl, (if_pos rfl).symm, left⟩

end Reached

/-! ## What is counted -/

/-- Whether the operation looks into the cache. -/
def Operation.looks : Operation → Bool
  | .read key => key ≠ ""
  | .write .. | .delete _ => false

/-- Whether it has looked: from then on it is counted as a hit or a miss. -/
def looked : Operation × Task → Bool
  | (_, .begun _) | (_, .finding _) => false
  | (op, _) => op.looks

theorem looked_plan (op : Operation) : looked (op, Task.plan op) = false := by
  rcases op.valid_cases with invalid | ⟨key, named, rfl | ⟨value, rfl⟩ | rfl⟩
  · rw [Task.plan_of_invalid invalid]
    rcases op with key | ⟨key, value⟩ | key
    · rcases invalid with unnamed | silent
      · exact decide_eq_false fun named => named unnamed
      · cases silent
    · rfl
    · rfl
  · rw [Task.plan_read named]
    rfl
  · rw [Task.plan_write named]
    rfl
  · rw [Task.plan_delete named]
    rfl

/-- An operation is counted as a hit or a miss when it looks, and at no other time. -/
theorem Reached.counts {ample : Prop} {cached₀ stored₀ cached stored : Option Value}
    {op : Operation} {task task' : Task} {s s' : Shared} {t t' : Unit × Table}
    (reached : Reached ample cached₀ stored₀ op task cached stored)
    (held : s.cache.peek op.key = cached)
    (step : Task.Step Memory.backend.answering s t task (task', s', t')) :
    ∃ looks found : Bool, looked (op, task') = (looked (op, task) || looks) ∧
      (looks = true → looked (op, task) = false ∧ (ample → cached₀.isSome = found)) ∧
      s'.counters.hits = s.counters.hits + (if looks && found then 1 else 0) ∧
      s'.counters.misses = s.counters.misses + (if looks && !found then 1 else 0) := by
  have none : ∀ n : UInt64, n = n + 0 := fun n => (UInt64.add_zero n).symm
  cases step with
  | begun =>
      cases reached with
      | begun => exact ⟨false, false, looked_plan op, nofun, none _, none _⟩
  | hit cached =>
      cases reached with
      | finding named left =>
          cases held.symm.trans cached
          refine ⟨true, true, decide_eq_true named, fun _ => ⟨rfl, fun _ => ?_⟩, rfl, none _⟩
          rw [left.eq_of_some]
          rfl
  | missed uncached =>
      cases reached with
      | finding named left =>
          cases held.symm.trans uncached
          refine ⟨true, false, decide_eq_true named, fun _ => ⟨rfl, fun enough => ?_⟩, none _, rfl⟩
          rw [← left.eq_of_ample enough]
          rfl
  | fetched | absent | filled | stored | adopted | removed | forgotten | ended =>
      exact ⟨false, false, (Bool.or_false _).symm, nofun, none _, none _⟩
  | failed _ replied trouble => exact (Memory.unfailing replied trouble).elim

/-- What grows by one when an operation comes to be counted grows as the number of those counted. -/
theorem grown {before after : List (Operation × Task)} {op : Operation} {task task' : Task}
    {P : Operation × Task → Bool} {base n n' : UInt64} {more : Bool}
    (earlier : n = base + .ofNat ((before ++ (op, task) :: after).countP P))
    (now : n' = n + if more then 1 else 0) (next : P (op, task') = (P (op, task) || more))
    (new : more = true → P (op, task) = false) :
    n' = base + .ofNat ((before ++ (op, task') :: after).countP P) := by
  rw [List.countP_append, List.countP_cons] at earlier ⊢
  cases more with
  | false =>
      rw [Bool.or_false] at next
      rw [next, now, earlier]
      exact UInt64.add_zero _
  | true =>
      rw [new rfl] at earlier next
      have one : UInt64.ofNat 1 = 1 := rfl
      rw [now, earlier, next, UInt64.add_assoc]
      simp [UInt64.ofNat_add, one, UInt64.add_assoc]

/-! ## All of them -/

/-- Operations on different keys on their way from one state to another. -/
structure Independent (ample : Prop) (s₀ : Shared) (t₀ : Unit × Table)
    (strands : List (Operation × Task)) (s : Shared) (t : Unit × Table) : Prop where
  intact : s.cache.Intact
  capacity : s.cache.capacity = s₀.cache.capacity
  reached : ∀ op task, (op, task) ∈ strands → Reached ample (s₀.cache.peek op.key) t₀.2[op.key]? op
    task (s.cache.peek op.key) t.2[op.key]?
  elsewhere : ∀ key, key ∉ strands.map (·.1.key) →
    t.2[key]? = t₀.2[key]? ∧ Left ample (s₀.cache.peek key) (s.cache.peek key)
  requests : s.counters.requests =
    s₀.counters.requests + .ofNat (strands.countP fun strand => !strand.2.isBegun)
  looks : s.counters.hits + s.counters.misses =
    s₀.counters.hits + s₀.counters.misses + .ofNat (strands.countP looked)
  hits : ample → s.counters.hits = s₀.counters.hits +
    .ofNat (strands.countP fun strand => looked strand && (s₀.cache.peek strand.1.key).isSome)
  misses : ample → s.counters.misses = s₀.counters.misses +
    .ofNat (strands.countP fun strand => looked strand && !(s₀.cache.peek strand.1.key).isSome)

/-- The pairs of a table as a map. -/
def Table.plain (t : Table) : Plain := fun key => t[key]?

/-- Every cached pair is stored. -/
def Coherent (s : Shared) (t : Unit × Table) : Prop :=
  ∀ key value, s.cache.peek key = some value → t.2[key]? = some value

namespace Independent

variable {ample : Prop} {s₀ s s' : Shared} {t₀ t t' : Unit × Table}
  {strands before after : List (Operation × Task)} {op : Operation} {task task' : Task}

theorem start (intact : s₀.cache.Intact) : Independent ample s₀ t₀ [] s₀ t₀ where
  intact := intact
  capacity := rfl
  reached := by
    intro op task member
    cases member
  elsewhere := fun key _ => ⟨rfl, .refl⟩
  requests := (UInt64.add_zero _).symm
  looks := (UInt64.add_zero _).symm
  hits := fun _ => (UInt64.add_zero _).symm
  misses := fun _ => (UInt64.add_zero _).symm

theorem arrive (independent : Independent ample s₀ t₀ strands s t)
    (new : op.key ∉ strands.map (·.1.key)) :
    Independent ample s₀ t₀ ((op, .begun op) :: strands) s t where
  intact := independent.intact
  capacity := independent.capacity
  reached := by
    intro other task member
    rcases List.mem_cons.mp member with own | old
    · cases own
      obtain ⟨same, left⟩ := independent.elsewhere op.key new
      rw [same]
      exact .begun left
    · exact independent.reached other task old
  elsewhere := fun key outside =>
    independent.elsewhere key fun inside => outside (List.mem_cons_of_mem _ inside)
  requests := independent.requests
  looks := independent.looks
  hits := independent.hits
  misses := independent.misses

/-- As long as the cache is to have room for all keys, it has. -/
theorem room (independent : Independent ample s₀ t₀ strands s t) (intact : s₀.cache.Intact)
    (enough : ample) (room : s₀.cache.size + strands.length ≤ s₀.cache.capacity)
    (own : op.key ∈ strands.map (·.1.key)) (uncached : s.cache.peek op.key = none) :
    s.cache.size < s.cache.capacity := by
  have distinct : (op.key :: s.cache.keys).Nodup := by
    refine List.nodup_cons.mpr ⟨fun held => ?_, independent.intact.keys_nodup⟩
    exact (independent.intact.mem_keys op.key).mp held uncached
  -- What is cached by now was cached at the start, or is on the key of one of the operations.
  have inside : op.key :: s.cache.keys ⊆ s₀.cache.keys ++ strands.map (·.1.key) := by
    intro key member
    by_cases mine : key ∈ strands.map (·.1.key)
    · exact List.mem_append_right _ mine
    · rcases List.mem_cons.mp member with rfl | held
      · exact absurd own mine
      · have same := (independent.elsewhere key mine).2.eq_of_ample enough
        have cached := (independent.intact.mem_keys key).mp held
        rw [same] at cached
        exact List.mem_append_left _ ((intact.mem_keys key).mpr cached)
  have few := (distinct.subperm inside).length_le
  rw [List.length_cons, List.length_append, List.length_map, Cache.keys, Cache.keys,
    List.length_map, List.length_map, ← independent.intact.size_eq, ← intact.size_eq] at few
  have constant := independent.capacity
  omega

/-- What a step counts, next to what has been counted before. -/
theorem counters (independent : Independent ample s₀ t₀ (before ++ (op, task) :: after) s t)
    (step : Task.Step Memory.backend.answering s t task (task', s', t')) :
    let strands := before ++ (op, task') :: after
    s'.counters.requests =
        s₀.counters.requests + .ofNat (strands.countP fun strand => !strand.2.isBegun) ∧
      s'.counters.hits + s'.counters.misses =
        s₀.counters.hits + s₀.counters.misses + .ofNat (strands.countP looked) ∧
      (ample → s'.counters.hits = s₀.counters.hits + .ofNat (strands.countP fun strand =>
        looked strand && (s₀.cache.peek strand.1.key).isSome)) ∧
      (ample → s'.counters.misses = s₀.counters.misses + .ofNat (strands.countP fun strand =>
        looked strand && !(s₀.cache.peek strand.1.key).isSome)) := by
  have own := independent.reached op task (by simp)
  obtain ⟨looks, found, later, new, hits, misses⟩ := own.counts rfl step
  -- Whether it hits is known beforehand only if there is ample room.
  have sorted : ∀ cached hit : Bool, (looks = true → cached = hit) →
      (looked (op, task') && cached) = ((looked (op, task) && cached) || (looks && hit)) ∧
        ((looks && hit) = true → (looked (op, task) && cached) = false) := by
    intro cached hit same
    rw [later]
    cases looks with
    | false => simp
    | true => simp [new rfl, same rfl]
  refine ⟨?_, ?_, fun enough => ?_, fun enough => ?_⟩
  · refine grown independent.requests step.requests ?_ ?_
    · rw [step.isBegun]
      exact (Bool.not_or_self _).symm
    · intro begun
      rw [begun]
      rfl
  · have one : s'.counters.hits + s'.counters.misses =
        s.counters.hits + s.counters.misses + if looks then 1 else 0 := by
      rw [hits, misses]
      cases looks <;> cases found <;> grind
    exact grown independent.looks one later fun now => (new now).1
  · obtain ⟨next, fresh⟩ := sorted _ found fun now => (new now).2 enough
    exact grown (independent.hits enough) hits next fresh
  · obtain ⟨next, fresh⟩ := sorted (!(s₀.cache.peek op.key).isSome) (!found) fun now => by
      rw [(new now).2 enough]
    exact grown (independent.misses enough) misses next fresh

theorem step (independent : Independent ample s₀ t₀ (before ++ (op, task) :: after) s t)
    (coherent : Coherent s₀ t₀)
    (distinct : ((before ++ (op, task) :: after).map (·.1.key)).Nodup)
    (roomy : ample → s.cache.peek op.key = none → s.cache.size < s.cache.capacity)
    (step : Task.Step Memory.backend.answering s t task (task', s', t')) :
    Independent ample s₀ t₀ (before ++ (op, task') :: after) s' t' := by
  have own := independent.reached op task (by simp)
  have keys : ∀ task, (before ++ (op, task) :: after).map (·.1.key) =
      before.map (·.1.key) ++ op.key :: after.map (·.1.key) := by
    intro task
    rw [List.map_append, List.map_cons]
  rw [keys, List.nodup_middle, List.nodup_cons, ← List.map_append] at distinct
  have elsewhere : ∀ key, key ≠ op.key →
      t'.2[key]? = t.2[key]? ∧ Left ample (s.cache.peek key) (s'.cache.peek key) :=
    fun _ apart => own.elsewhere independent.intact roomy step apart
  obtain ⟨requests, looks, hits, misses⟩ := independent.counters step
  refine ⟨step.intact independent.intact, step.capacity.trans independent.capacity, ?_, ?_,
    requests, looks, hits, misses⟩
  · intro other task₁ member
    -- The operation that makes the step goes on; the others may have lost a cached pair.
    rcases List.mem_cons.mp (List.perm_middle.mem_iff.mp member) with here | there
    · cases here
      obtain ⟨_, _, rfl, rfl, further⟩ :=
        own.step (coherent op.key) independent.intact rfl rfl step
      exact further
    · have apart : other.key ≠ op.key := by
        intro same
        have again : other.key ∈ (before ++ after).map (·.1.key) :=
          List.mem_map.mpr ⟨_, there, rfl⟩
        rw [same] at again
        exact distinct.1 again
      obtain ⟨same, left⟩ := elsewhere other.key apart
      have earlier : (other, task₁) ∈ before ++ (op, task) :: after :=
        List.perm_middle.mem_iff.mpr (List.mem_cons_of_mem _ there)
      rw [same]
      exact (independent.reached other task₁ earlier).displaced left
  · intro key outside
    rw [keys] at outside
    have apart : key ≠ op.key := by
      rintro rfl
      exact outside (List.mem_append_right _ List.mem_cons_self)
    obtain ⟨same, left⟩ := elsewhere key apart
    rw [← keys task] at outside
    obtain ⟨before, earlier⟩ := independent.elsewhere key outside
    exact ⟨same.trans before, earlier.trans left⟩

end Independent

/-- However operations on different keys are interleaved. -/
theorem Interleaving.independent {ample : Prop} {s₀ s : Shared} {t₀ t : Unit × Table}
    {strands : List (Operation × Task)} (intact : s₀.cache.Intact) (coherent : Coherent s₀ t₀)
    (run : Interleaving Memory.backend.answering s₀ t₀ strands s t)
    (distinct : (strands.map (·.1.key)).Nodup)
    (room : ample → s₀.cache.size + strands.length ≤ s₀.cache.capacity) :
    Independent ample s₀ t₀ strands s t := by
  induction run with
  | start => exact .start intact
  | @arrive strands s t op run ih =>
      obtain ⟨new, others⟩ := List.nodup_cons.mp distinct
      refine (ih others fun enough => ?_).arrive new
      have more := room enough
      rw [List.length_cons] at more
      omega
  | @step before after op task task' s s' t t' run stepped ih =>
      have keys : (before ++ (op, task') :: after).map (·.1.key) =
          (before ++ (op, task) :: after).map (·.1.key) := by
        simp
      have size : (before ++ (op, task') :: after).length =
          (before ++ (op, task) :: after).length := by
        simp
      rw [keys] at distinct
      rw [size] at room
      have independent := ih distinct room
      have step := Task.step_cases independent.intact Memory.backend.answering task t
      rw [stepped] at step
      refine independent.step coherent distinct (fun enough uncached => ?_) step
      have own : op.key ∈ (before ++ (op, task) :: after).map (·.1.key) := by
        simp
      exact independent.room intact enough (room enough) own uncached

namespace Independent

variable {ample : Prop} {s₀ s s' : Shared} {t₀ t t' : Unit × Table}
  {strands strands' : List (Operation × Task)}

theorem perm (independent : Independent ample s₀ t₀ strands s t) (same : strands.Perm strands') :
    Independent ample s₀ t₀ strands' s t where
  intact := independent.intact
  capacity := independent.capacity
  reached := fun op task member => independent.reached op task (same.mem_iff.mpr member)
  elsewhere := fun key outside =>
    independent.elsewhere key fun inside => outside ((same.map _).mem_iff.mp inside)
  requests := by rw [← same.countP_eq]; exact independent.requests
  looks := by rw [← same.countP_eq]; exact independent.looks
  hits := by rw [← same.countP_eq]; exact independent.hits
  misses := by rw [← same.countP_eq]; exact independent.misses

/-- When all of them have come to an end, each has the outcome that it has on the map of what was
stored at the start. -/
theorem concluded (independent : Independent ample s₀ t₀ strands s t)
    (done : ∀ strand ∈ strands, ∃ result, strand.2 = .ended result) :
    strands = (strands.map Prod.fst).map fun op =>
      (op, .ended (.answered (t₀.2.plain.outcome op))) := by
  have each : ∀ strand ∈ strands,
      strand = (strand.1, .ended (.answered (t₀.2.plain.outcome strand.1))) := by
    rintro ⟨op, task⟩ member
    obtain ⟨result, rfl⟩ := done _ member
    obtain ⟨rfl, -, -⟩ := Reached.ended (p := t₀.2.plain) (independent.reached op _ member)
    rfl
  rw [List.map_map]
  exact (List.map_id strands).symm.trans (List.map_congr_left each)

/-- So two ways to the end differ in the order of arrival at most. -/
theorem perm_of_concluded (independent : Independent ample s₀ t₀ strands s t)
    (other : Independent ample s₀ t₀ strands' s' t')
    (done : ∀ strand ∈ strands, ∃ result, strand.2 = .ended result)
    (done' : ∀ strand ∈ strands', ∃ result, strand.2 = .ended result)
    (same : (strands.map Prod.fst).Perm (strands'.map Prod.fst)) : strands.Perm strands' := by
  rw [independent.concluded done, other.concluded done']
  exact same.map _

/-- They leave a state in which every cached pair is stored, if they have met one. -/
theorem coherent (independent : Independent ample s₀ t₀ strands s t) (before : Coherent s₀ t₀)
    (done : ∀ strand ∈ strands, ∃ result, strand.2 = .ended result) : Coherent s t := by
  intro key value held
  by_cases mine : key ∈ strands.map (·.1.key)
  · obtain ⟨⟨op, task⟩, member, rfl⟩ := List.mem_map.mp mine
    obtain ⟨result, rfl⟩ := done _ member
    obtain ⟨-, stored, left⟩ := Reached.ended (p := t₀.2.plain) (independent.reached op _ member)
    dsimp only at held
    rw [held] at left
    have expected := left.eq_of_some
    split at expected
    · next refused =>
        subst refused
        exact stored.trans (before _ _ expected)
    · exact expected
  · obtain ⟨same, left⟩ := independent.elsewhere key mine
    rw [held] at left
    exact same.trans (before key value left.eq_of_some)

/-- Two ways to the end come to the same end. -/
theorem agree (independent : Independent ample s₀ t₀ strands s t)
    (other : Independent ample s₀ t₀ strands s' t')
    (done : ∀ strand ∈ strands, ∃ result, strand.2 = .ended result) :
    (∀ key : Key, t.2[key]? = t'.2[key]?) ∧
      s.counters.requests = s'.counters.requests ∧
      s.counters.hits + s.counters.misses = s'.counters.hits + s'.counters.misses ∧
      (ample → s.counters = s'.counters ∧ ∀ key, s.cache.peek key = s'.cache.peek key) := by
  have requests := independent.requests.trans other.requests.symm
  have ends : ∀ key : Key, t.2[key]? = t'.2[key]? ∧
      (ample → s.cache.peek key = s'.cache.peek key) := by
    intro key
    by_cases mine : key ∈ strands.map (·.1.key)
    · obtain ⟨⟨op, task⟩, member, rfl⟩ := List.mem_map.mp mine
      obtain ⟨result, rfl⟩ := done _ member
      obtain ⟨-, stored, left⟩ := Reached.ended (p := t₀.2.plain) (independent.reached op _ member)
      obtain ⟨-, stored', left'⟩ := Reached.ended (p := t₀.2.plain) (other.reached op _ member)
      have same : t.2[op.key]? = t'.2[op.key]? := stored.trans stored'.symm
      refine ⟨same, fun enough => ?_⟩
      rw [← same] at left'
      exact (left.eq_of_ample enough).trans (left'.eq_of_ample enough).symm
    · obtain ⟨same, left⟩ := independent.elsewhere key mine
      obtain ⟨same', left'⟩ := other.elsewhere key mine
      exact ⟨same.trans same'.symm, fun enough =>
        (left.eq_of_ample enough).trans (left'.eq_of_ample enough).symm⟩
  refine ⟨fun key => (ends key).1, requests, independent.looks.trans other.looks.symm, ?_⟩
  intro enough
  refine ⟨?_, fun key => (ends key).2 enough⟩
  have hits := (independent.hits enough).trans (other.hits enough).symm
  have misses := (independent.misses enough).trans (other.misses enough).symm
  rcases s with ⟨cache, ⟨_, _, _⟩⟩
  rcases s' with ⟨cache', ⟨_, _, _⟩⟩
  cases requests
  cases hits
  cases misses
  rfl

end Independent

/-- The batch dispatched one after the other. -/
theorem independent_dispatchAll {ample : Prop} {s₀ s : Shared} {t₀ t : Unit × Table}
    {ops : List Operation} {results : List (Operation × Result)} (intact : s₀.cache.Intact)
    (coherent : Coherent s₀ t₀) (distinct : (ops.map Operation.key).Nodup)
    (room : ample → s₀.cache.size + ops.length ≤ s₀.cache.capacity)
    (ran : (dispatchAll Memory.backend.answering ops s₀ t₀).value = (results, s, t)) :
    Independent ample s₀ t₀ (results.map finished) s t := by
  have run := Interleaving.start.dispatchAll ran
  rw [List.append_nil] at run
  have same : (results.map finished).reverse.Perm (results.map finished) := List.reverse_perm _
  rw [← map_fst_dispatchAll ran] at distinct room
  refine (run.independent intact coherent ?_ fun enough => ?_).perm same
  · rw [(same.map _).nodup_iff]
    rw [List.map_map] at distinct ⊢
    exact distinct
  · rw [same.length_eq, List.length_map]
    rw [List.length_map] at room
    exact room enough

end CacheAside
