import CacheAside.Dispatch.Basic
import CacheAside.Proofs.Cache.Holding

/-!
# How an operation can end

`Dispatch.Ending` lists the ways in which a dispatched operation can end, each with the result and
with all of the shared state and the store that it leaves behind. `Dispatch.ending` shows that there
are no others, over any store; what is said of dispatched operations from here on is a case analysis
of an ending. A fault of the store shows in one constructor only, `Ending.failed`.
-/

namespace CacheAside

/-- The request that an operation sends to the store, unless it is a write without a value. -/
def Operation.request : Operation → Option Request
  | .read key => some (.get key)
  | .write key (some value) => some (.put key value)
  | .write _ none => none
  | .delete key => some (.delete key)

/-- An operation is refused, or it is one of three on a key. -/
theorem Operation.valid_cases (op : Operation) : (op.key = "" ∨ op.request = none) ∨
    ∃ key, key ≠ "" ∧ (op = .read key ∨ (∃ value, op = .write key (some value)) ∨
      op = .delete key) := by
  by_cases unnamed : op.key = ""
  · exact .inl (.inl unnamed)
  · rcases op with key | ⟨key, _ | value⟩ | key
    · exact .inr ⟨key, unnamed, .inl rfl⟩
    · exact .inl (.inr rfl)
    · exact .inr ⟨key, unnamed, .inr (.inl ⟨value, rfl⟩)⟩
    · exact .inr ⟨key, unnamed, .inr (.inr rfl)⟩

/-- What an operation comes to when the store does not serve its request. -/
def Reply.trouble : Reply → Option Result
  | .answered _ => none
  | .failed _ => some (.answered ⟨.backendError, none⟩)
  | .crashed text => some (.crashed text)

/-- The shared state when the store is asked: a read has missed the cache by then. -/
def Shared.asking (s : Shared) : Operation → Shared
  | .read _ => (s.count .request).count .miss
  | _ => s.count .request

@[simp] theorem Shared.cache_asking (s : Shared) (op : Operation) :
    (s.asking op).cache = s.cache := by
  cases op <;> rfl

namespace Dispatch

variable {τ : Type}

inductive Ending (store : Answering τ) (s : Shared) (t : τ) : Operation → Result × Shared × τ → Prop
  | refused {op : Operation} (invalid : op.key = "" ∨ op.request = none) :
    Ending store s t op (Dispatch.refused, s.count .request, t)
  | hit {key : Key} {value : Value} (named : key ≠ "") (cached : s.cache.peek key = some value) :
    Ending store s t (.read key) (.answered (.found value),
      { (s.count .request).count .hit with cache := (s.cache.get key).2 }, t)
  | filled {key : Key} {value : Value} {t' : τ} (named : key ≠ "")
      (uncached : s.cache.peek key = none)
      (replied : (store (.get key) t).value = (.answered (some value), t')) :
    Ending store s t (.read key) (.answered (.found value),
      { s.asking (.read key) with cache := (s.cache.put key value).2 }, t')
  | absent {key : Key} {t' : τ} (named : key ≠ "") (uncached : s.cache.peek key = none)
      (replied : (store (.get key) t).value = (.answered none, t')) :
    Ending store s t (.read key) (.answered ⟨.notFound, none⟩, s.asking (.read key), t')
  | written {key : Key} {value : Value} {answer : Option Value} {t' : τ} (named : key ≠ "")
      (replied : (store (.put key value) t).value = (.answered answer, t')) :
    Ending store s t (.write key (some value)) (.answered ⟨.ok, none⟩,
      { s.asking (.write key (some value)) with cache := (s.cache.put key value).2 }, t')
  | deleted {key : Key} {answer : Option Value} {t' : τ} (named : key ≠ "")
      (replied : (store (.delete key) t).value = (.answered answer, t')) :
    Ending store s t (.delete key) (.answered ⟨.ok, none⟩,
      { s.asking (.delete key) with cache := (s.cache.erase key).2 }, t')
  | failed {op : Operation} {r : Request} {reply : Reply} {result : Result} {t' : τ}
      (named : op.key ≠ "") (uncached : ∀ key, op = .read key → s.cache.peek key = none)
      (asked : op.request = some r) (replied : (store r t).value = (reply, t'))
      (trouble : reply.trouble = some result) :
    Ending store s t op (result, s.asking op, t')

variable {store : Answering τ} {s : Shared} {t : τ} {key : Key} {value : Value}

/-- A read ends as a hit, or after the store has answered or failed. -/
theorem ending_read (intact : s.cache.Intact) (named : key ≠ "") :
    Ending store s t (.read key) (read store key (s.count .request) t).value := by
  have same : (s.count .request).cache = s.cache := rfl
  cases cached : s.cache.peek key with
  | some value =>
      obtain ⟨-, found, -⟩ := intact.get_holds key
      have here : s.cache.get key = (some value, (s.cache.get key).2) :=
        Prod.ext (found.trans cached) rfl
      rw [read, Shared.find, same, here]
      exact .hit named cached
  | none =>
      have uncached : ∀ other, Operation.read key = .read other → s.cache.peek other = none := by
        rintro other ⟨⟩
        exact cached
      rw [read, Shared.find, same, intact.get_uncached cached]
      dsimp only
      rcases replied : (store (.get key) t).value with ⟨reply, t'⟩
      cases reply with
      | answered answer =>
          cases answer with
          | some value =>
              simp only [Logged.value_bind, replied, Shared.keep, Cache.value_keep]
              exact .filled named cached replied
          | none =>
              simp only [Logged.value_bind, replied]
              exact .absent named cached replied
      | failed cause =>
          simp only [Logged.value_bind, replied]
          exact .failed named uncached rfl replied rfl
      | crashed text =>
          simp only [Logged.value_bind, replied]
          exact .failed named uncached rfl replied rfl

/-- A write ends with its value kept if the store has served it, and else in trouble. -/
theorem ending_write (named : key ≠ "") :
    Ending store s t (.write key (some value))
      (write store key value (s.count .request) t).value := by
  rw [write, change]
  rcases replied : (store (.put key value) t).value with ⟨reply, t'⟩
  simp only [Logged.value_bind, replied]
  cases reply with
  | answered answer =>
      simp only [Shared.keep, Logged.value_bind, Cache.value_keep]
      exact .written named replied
  | failed cause => exact .failed named nofun rfl replied rfl
  | crashed text => exact .failed named nofun rfl replied rfl

/-- A delete ends with its key forgotten if the store has served it, and else in trouble. -/
theorem ending_delete (named : key ≠ "") :
    Ending store s t (.delete key) (delete store key (s.count .request) t).value := by
  rw [delete, change]
  rcases replied : (store (.delete key) t).value with ⟨reply, t'⟩
  simp only [Logged.value_bind, replied]
  cases reply with
  | answered answer => exact .deleted named replied
  | failed cause => exact .failed named nofun rfl replied rfl
  | crashed text => exact .failed named nofun rfl replied rfl

/-- Over an intact cache every dispatched operation ends in one of these ways, whatever the store
does. -/
theorem ending (intact : s.cache.Intact) (store : Answering τ) (op : Operation) (t : τ) :
    Ending store s t op (dispatch store op s t).value := by
  unfold dispatch
  dsimp only
  by_cases empty : op.key = ""
  · rw [if_pos empty]
    exact .refused (.inl empty)
  · rw [if_neg empty]
    cases op with
    | read key => exact ending_read intact empty
    | write key value =>
        cases value with
        | none => exact .refused (.inr rfl)
        | some value => exact ending_write empty
    | delete key => exact ending_delete empty

/-- However an operation ends, the cache is intact. -/
theorem Ending.intact {s' : Shared} {t' : τ} {op : Operation} {result : Result}
    (ending : Ending store s t op (result, s', t')) (intact : s.cache.Intact) :
    s'.cache.Intact := by
  cases ending with
  | refused _ => exact intact
  | hit _ _ => exact (intact.get_holds _).1
  | filled _ _ _ => exact (intact.put_refines _ _).1
  | absent _ _ _ => exact intact
  | written _ _ => exact (intact.put_refines _ _).1
  | deleted _ _ => exact (intact.erase_holds _).1
  | failed _ _ _ _ _ => rwa [Shared.cache_asking]

end Dispatch

end CacheAside
