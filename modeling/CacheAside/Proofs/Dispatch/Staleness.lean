import CacheAside.Proofs.Dispatch.Deployment
import CacheAside.Proofs.Dispatch.Origin
import Mathlib.Data.List.Induction

/-!
# Stale pairs

A cached pair that the store does not have is stale. Dispatched operations and faults make no pair
stale: only a change of the store that the cache does not learn of does, and only until an operation
puts the key into the cache again. `InMemory.stale_only_behind_the_cache` says so for every run.

The invariant of a run is `InMemory.Since`: it names the move that put a cached pair into the cache
and follows the pair from there on.
-/

namespace CacheAside

namespace InMemory

variable {n : Nat} {d start : InMemory n} {key : Key} {value : Value}

/-- The pair that a move puts into the cache. -/
def placed (d : InMemory n) : Move n → Option (Key × Value)
  | .dispatch i op => op.placed (d.cached op.key) (d.carryOut i op).1
  | _ => none

/-- After the moves `earlier` the move `m` put this pair into the cache. Through all the moves that
followed the pair stayed there, and none of them put a pair of its key there again. -/
inductive Since (start : InMemory n) (key : Key) (value : Value) (earlier : List (Move n))
    (m : Move n) : List (Move n) → Prop
  | placed (here : (start.play earlier).placed m = some (key, value))
      (holds : (start.play (earlier ++ [m])).cached key = some value) :
    Since start key value earlier m []
  | kept {later : List (Move n)} {next : Move n} (before : Since start key value earlier m later)
      (elsewhere : ∀ other, (start.play (earlier ++ m :: later)).placed next ≠ some (key, other))
      (holds : (start.play (earlier ++ m :: (later ++ [next]))).cached key = some value) :
    Since start key value earlier m (later ++ [next])

/-! ## One move -/

/-- Where a pair comes from that is cached after a move. Only a direct change of its key can make
the store differ. -/
theorem origin_move (intact : d.shared.cache.Intact) (m : Move n)
    (holds : (d.move m).cached key = some value) :
    (d.placed m = some (key, value) ∧ (d.move m).stored key = some value) ∨
      ((∀ other, d.placed m ≠ some (key, other)) ∧ d.cached key = some value ∧
        (m.changes key ∨ (d.move m).stored key = d.stored key)) := by
  cases m with
  | dispatch i op =>
      rcases (ending intact i op).origin intact holds with
        ⟨here, stores⟩ | ⟨elsewhere, before, same⟩
      · exact .inl ⟨here, stores⟩
      · exact .inr ⟨elsewhere, before, .inr same⟩
  | inject | heal => exact .inr ⟨nofun, holds, .inr rfl⟩
  | put changed _ =>
      refine .inr ⟨nofun, holds, ?_⟩
      by_cases here : changed = key
      · exact .inl here
      · exact .inr ((Table.getElem?_insert _ _ _ _).trans (if_neg (Ne.symm here)))
  | delete changed =>
      refine .inr ⟨nofun, holds, ?_⟩
      by_cases here : changed = key
      · exact .inl here
      · exact .inr ((Table.getElem?_erase _ _ _).trans (if_neg (Ne.symm here)))

/-! ## All moves -/

/-- Every cached pair was put there by a move of the run, and as long as its key has not been
changed directly since, the store has it. -/
theorem since_play (intact : start.shared.cache.Intact) (unused : ∀ key, start.cached key = none)
    (moves : List (Move n)) (holds : (start.play moves).cached key = some value) :
    ∃ earlier m later, moves = earlier ++ m :: later ∧ Since start key value earlier m later ∧
      ((∃ change ∈ later, change.changes key) ∨ (start.play moves).stored key = some value) := by
  -- From the newest move back: if it did not put the pair there, an earlier one did.
  induction moves using List.reverseRecOn with
  | nil =>
      have nothing : none = some value := (unused key).symm.trans holds
      cases nothing
  | append_singleton moves m ih =>
      rw [play_concat] at holds ⊢
      rcases origin_move (intact_play intact moves) m holds with
        ⟨here, stores⟩ | ⟨elsewhere, before, change⟩
      · refine ⟨moves, m, [], rfl, .placed here ?_, .inr stores⟩
        rwa [play_concat]
      · obtain ⟨earlier, first, later, rfl, since, fresh⟩ := ih before
        refine ⟨earlier, first, later ++ [m], by simp, .kept since elsewhere ?_, ?_⟩
        · rw [← List.cons_append, ← List.append_assoc, play_concat]
          exact holds
        · rcases change with here | same
          · exact .inl ⟨m, List.mem_append_right _ (List.mem_singleton_self m), here⟩
          · rcases fresh with ⟨change, member, changes⟩ | stores
            · exact .inl ⟨change, List.mem_append_left _ member, changes⟩
            · exact .inr (same.trans stores)

end InMemory

/-! ## The answers -/

namespace Dispatch

variable {s s' : Shared} {c c' : Unit} {f f' : Faulty Table} {op : Operation} {result : Result}
  {key : Key}

/-- A read of a key that is not cached, if no fault strikes it, is answered with what the store
has: that the store lacks a key is not remembered. -/
theorem Ending.read_uncached
    (ending : Ending Memory.backend.faulty.answering s (c, f) (.read key) (result, s', c', f'))
    (named : key ≠ "") (uncached : s.cache.peek key = none) (quiet : f.fault? (.get key) = none) :
    result = .answered (.ofRead f.store[key]?) := by
  cases ending with
  | refused invalid =>
      rcases invalid with unnamed | silent
      · exact (named unnamed).elim
      · cases silent
  | hit _ cached =>
      cases uncached.symm.trans cached
  | filled _ _ replied =>
      rw [(Memory.found_of_answered replied).2.1]
      rfl
  | absent _ _ replied =>
      rw [(Memory.found_of_answered replied).2.1]
      rfl
  | failed _ _ asked replied trouble =>
      obtain ⟨⟨fault, struck, -⟩, -⟩ := Memory.struck_of_trouble replied trouble
      cases asked
      cases quiet.symm.trans struck

/-- After a write or a delete that was answered Ok the cache and the store agree on its key. -/
theorem Ending.agree
    (ending : Ending Memory.backend.faulty.answering s (c, f) op (result, s', c', f'))
    (intact : s.cache.Intact) (change : ∀ key, op ≠ .read key) (ok : result.isOk = true) :
    s'.cache.peek op.key = f'.store[op.key]? := by
  cases ending with
  | refused _ => cases ok
  | hit _ _ => exact (change _ rfl).elim
  | filled _ _ _ => exact (change _ rfl).elim
  | absent _ _ _ => exact (change _ rfl).elim
  | @written own value _ _ _ replied =>
      obtain ⟨-, -, after⟩ := Memory.served_of_answered replied
      cases after
      have content := (Table.getElem?_insert f.store own own value).trans (if_pos rfl)
      exact (intact.put_holds own value).2.trans content.symm
  | @deleted own _ _ _ replied =>
      obtain ⟨-, -, after⟩ := Memory.served_of_answered replied
      cases after
      have content := (Table.getElem?_erase f.store own own).trans (if_pos rfl)
      have gone := ((intact.erase_holds own).2 own).trans (if_pos rfl)
      exact gone.trans content.symm
  | failed _ _ _ _ trouble =>
      rw [Reply.isOk_trouble trouble] at ok
      cases ok

end Dispatch

namespace InMemory

/-- Whatever dispatched operations, faults and direct changes of the store make up a run from an
empty cache: a stale pair was put into the cache by an operation of the run, after which its key was
changed directly. An uncached read, unless a fault strikes it, is answered with what the store has
then, and a write or delete answered Ok ends any staleness of its key. Without direct changes every
cached pair is a pair of the store. -/
theorem stale_only_behind_the_cache {capacity n : Nat} (positive : 0 < capacity)
    (connections : Vector Unit n) (store : Faulty Table) (moves : List (Move n)) :
    let start := fresh capacity connections store
    let d := start.play moves
    (∀ key value, d.cached key = some value → d.stored key ≠ some value →
      ∃ earlier m later, moves = earlier ++ m :: later ∧ Since start key value earlier m later ∧
        ∃ change ∈ later, change.changes key) ∧
      (∀ i key, key ≠ "" → d.cached key = none → d.store.fault? (.get key) = none →
        (d.carryOut i (.read key)).1 = .answered (.ofRead (d.stored key))) ∧
      (∀ i op, (∀ key, op ≠ .read key) → (d.carryOut i op).1.isOk = true →
        (d.carryOut i op).2.cached op.key = (d.carryOut i op).2.stored op.key) ∧
      ((∀ m ∈ moves, ∀ key, ¬ m.changes key) →
        ∀ key value, d.cached key = some value → d.stored key = some value) := by
  intro start d
  have sound : start.shared.cache.Intact := intact_fresh positive connections store
  have intact : d.shared.cache.Intact := intact_play sound moves
  have unused : ∀ key, start.cached key = none := cached_fresh capacity connections store
  have stale : ∀ key value, d.cached key = some value → d.stored key ≠ some value →
      ∃ earlier m later, moves = earlier ++ m :: later ∧ Since start key value earlier m later ∧
        ∃ change ∈ later, change.changes key := by
    intro key value holds lacks
    obtain ⟨earlier, m, later, split, since, fresh⟩ := since_play sound unused moves holds
    rcases fresh with changed | stores
    · exact ⟨earlier, m, later, split, since, changed⟩
    · exact (lacks stores).elim
  refine ⟨stale, ?_, ?_, ?_⟩
  · intro i key named uncached quiet
    exact (ending intact i (.read key)).read_uncached named uncached quiet
  · intro i op change ok
    exact (ending intact i op).agree intact change ok
  · intro untouched key value holds
    by_contra lacks
    obtain ⟨earlier, m, later, split, -, change, member, changes⟩ := stale key value holds lacks
    have inside : change ∈ moves := by
      rw [split]
      exact List.mem_append_right _ (List.mem_cons_of_mem _ member)
    exact untouched change inside key changes

/-- A write that a fault strikes leaves the older pair cached; a direct change makes it stale. -/
theorem stale_only_behind_the_cache_overtaken :
    let start := fresh 1 #v[(), ()] { store := .ofList [("b", "0")] }
    let moves : List (Move 2) := [.dispatch 0 (.read "b"), .dispatch 0 (.write "a" (some "1")),
      .inject ⟨.put, some "a", .crash "down"⟩, .dispatch 1 (.write "a" (some "2")), .heal,
      .put "a" "3", .dispatch 1 (.read "a")]
    (0 < 1 ∧ (start.play moves).cached "a" = some "1" ∧ (start.play moves).stored "a" = some "3") ∧
      ∃ earlier m later, moves = earlier ++ m :: later ∧ Since start "a" "1" earlier m later ∧
        ∃ change ∈ later, change.changes "a" := by
  intro start moves
  have cached : (start.play moves).cached "a" = some "1" := by decide
  have stored : (start.play moves).stored "a" = some "3" := by decide
  obtain ⟨stale, -⟩ := stale_only_behind_the_cache (by decide : 0 < 1) #v[(), ()]
    { store := .ofList [("b", "0")] } moves
  refine ⟨⟨by decide, cached, stored⟩, stale "a" "1" cached ?_⟩
  rw [stored]
  decide

end InMemory

end CacheAside
