import CacheAside.Proofs.Store.Memory

/-!
# Where cached pairs come from

`Operation.placed` reads off an operation and its result which pair it has put into the cache.
`Dispatch.Ending.origin` traces a pair that is cached after an operation over the store in memory:
either the operation has just put it there, and the store has it, or it was there before, and the
store has under its key what it had.
-/

namespace CacheAside

/-- The outcome of a read that comes to this value. -/
def Outcome.ofRead : Option Value → Outcome
  | some value => .found value
  | none => ⟨.notFound, none⟩

/-- Whether an operation with this result has served what it asked for. -/
def Result.isOk : Result → Bool
  | .answered outcome => outcome.status = .ok
  | .crashed _ => false

/-- The pair that an operation has put into the cache, by its result and by what was cached under
its key before: a write puts its own pair there, a read the pair that the cache did not have. -/
def Operation.placed (op : Operation) (cached : Option Value) : Result → Option (Key × Value)
  | .answered ⟨.ok, found⟩ =>
    match op, cached, found with
    | .write key (some value), _, _ => some (key, value)
    | .read key, none, some value => some (key, value)
    | _, _, _ => none
  | _ => none

/-- Only an operation that has served puts a pair into the cache. -/
theorem Operation.placed_eq_none {op : Operation} {result : Result} (failed : result.isOk = false)
    (cached : Option Value) : op.placed cached result = none := by
  rcases result with ⟨⟨_ | _ | _ | _, found⟩⟩ | text
  · cases failed
  · rfl
  · rfl
  · rfl
  · rfl

theorem Reply.isOk_trouble {reply : Reply} {result : Result}
    (trouble : reply.trouble = some result) : result.isOk = false := by
  cases reply <;> cases trouble <;> rfl

namespace Dispatch

/-- Where a pair comes from that is cached after a step: the step has put it there and the store
has it, or it was cached before and the store has under its key what it had. -/
inductive Origin (placed : Option (Key × Value)) (cached stored stored' : Option Value) (key : Key)
    (value : Value) : Prop
  | placed (here : placed = some (key, value)) (stores : stored' = some value)
  | kept (elsewhere : ∀ other, placed ≠ some (key, other)) (before : cached = some value)
      (same : stored' = stored)

variable {s s' : Shared} {c c' : Unit} {f f' : Faulty Table} {op : Operation} {result : Result}
  {key : Key} {value : Value}

/-- Over the faulty table, whatever is cached after an operation has one of the two origins. -/
theorem Ending.origin
    (ending : Ending Memory.backend.faulty.answering s (c, f) op (result, s', c', f'))
    (intact : s.cache.Intact) (held : s'.cache.peek key = some value) :
    Origin (op.placed (s.cache.peek op.key) result) (s.cache.peek key) f.store[key]? f'.store[key]?
      key value := by
  have keeps : result.isOk = false → s.cache.peek key = some value → f'.store = f.store →
      Origin (op.placed (s.cache.peek op.key) result) (s.cache.peek key) f.store[key]?
        f'.store[key]? key value := by
    intro failed before same
    rw [Operation.placed_eq_none failed, same]
    exact .kept nofun before rfl
  cases ending with
  | refused _ => exact keeps rfl held rfl
  | @hit own found _ cached =>
      obtain ⟨-, -, same⟩ := intact.get_holds own
      rw [Operation.key, cached]
      exact .kept nofun ((same key).symm.trans held) rfl
  | @filled own found _ _ uncached replied =>
      obtain ⟨-, content, after⟩ := Memory.found_of_answered replied
      cases after
      rw [Operation.key, uncached]
      rcases intact.held_put held with ⟨rfl, rfl⟩ | ⟨apart, before⟩
      · exact .placed rfl content
      · refine .kept ?_ before rfl
        rintro other ⟨⟩
        exact apart rfl
  | absent _ _ replied =>
      obtain ⟨-, -, after⟩ := Memory.found_of_answered replied
      cases after
      exact keeps rfl held rfl
  | @written own put _ _ _ replied =>
      obtain ⟨-, -, after⟩ := Memory.served_of_answered replied
      cases after
      have content := Table.getElem?_insert f.store own key put
      rcases intact.held_put held with ⟨rfl, rfl⟩ | ⟨apart, before⟩
      · exact .placed rfl (content.trans (if_pos rfl))
      · refine .kept ?_ before (content.trans (if_neg apart))
        rintro other ⟨⟩
        exact apart rfl
  | @deleted own _ _ _ replied =>
      obtain ⟨-, -, after⟩ := Memory.served_of_answered replied
      cases after
      obtain ⟨-, remains⟩ := intact.erase_holds own
      have content := Table.getElem?_erase f.store own key
      have before := (remains key).symm.trans held
      by_cases apart : key = own
      · rw [if_pos apart] at before
        cases before
      · rw [if_neg apart] at before
        exact .kept nofun before (content.trans (if_neg apart))
  | failed _ _ _ replied trouble =>
      obtain ⟨-, after⟩ := Memory.struck_of_trouble replied trouble
      cases after
      rw [Shared.cache_asking] at held
      exact keeps (Reply.isOk_trouble trouble) held rfl

end Dispatch

end CacheAside
