import CacheAside.Cache.Basic

/-!
# Chains of slots

The recency list as a list of cells. `Cache.Chain` says that cells follow one another by their
links, and `Cache.Listed` that the whole list runs from the head of the cache to its tail.

Both ends of the list behave like one more cell: the head is the `next` of what lies before the
first cell, the tail the `prev` of what lies after the last one. `Cache.joinNext` and
`Cache.joinPrev` set such a link, and `unlink` and `pushFront` are made of them, so the cases of an
empty list, a single cell, the first and the last cell need no proofs of their own.
-/

namespace CacheAside

/-- A slot together with the pair in it. -/
structure Cell where
  slot : Nat
  key : Key
  value : Value
  deriving DecidableEq, Repr

namespace Cell

def pair (x : Cell) : Key × Value := (x.key, x.value)

/-- Where the cell lies, and the key that leads there. -/
def place (x : Cell) : Nat × Key := (x.slot, x.key)

/-- The entry of a cell that has these neighbours. -/
def entry (x : Cell) (prev next : Option Nat) : Entry := ⟨x.key, x.value, prev, next⟩

/-- The slot of the first cell, or `after` if there is none. -/
def first : List Cell → (after : Option Nat) → Option Nat
  | [], after => after
  | x :: _, _ => some x.slot

/-- The slot of the last cell, or `before` if there is none. -/
def last : (before : Option Nat) → List Cell → Option Nat
  | before, [] => before
  | _, x :: rest => last (some x.slot) rest

theorem slots_eq_of_places {xs ys : List Cell} (same : (ys.map place).Perm (xs.map place)) :
    (ys.map slot).Perm (xs.map slot) := by
  have slots := same.map Prod.fst
  rwa [List.map_map, List.map_map] at slots

theorem first_append (l r : List Cell) (after : Option Nat) :
    first (l ++ r) after = first l (first r after) := by
  cases l <;> rfl

theorem last_append (before : Option Nat) (l r : List Cell) :
    last before (l ++ r) = last (last before l) r := by
  induction l generalizing before with
  | nil => rfl
  | cons x l ih => exact ih (some x.slot)

/-- Where nothing comes after the row, its first slot is the slot of one of its cells. -/
theorem mem_of_first {xs : List Cell} {i : Nat} (h : first xs none = some i) :
    i ∈ xs.map slot := by
  cases xs with
  | nil => cases h
  | cons x xs =>
      cases h
      exact List.mem_cons_self

theorem mem_of_last {xs : List Cell} {before : Option Nat} {i : Nat}
    (h : last before xs = some i) : before = some i ∨ i ∈ xs.map slot := by
  induction xs generalizing before with
  | nil => exact Or.inl h
  | cons x xs ih =>
      rcases ih h with here | later
      · cases here
        exact Or.inr List.mem_cons_self
      · exact Or.inr (List.mem_cons_of_mem _ later)

/-- A row behind a slot has a last slot, be it that one. -/
theorem exists_last (i : Nat) (xs : List Cell) : ∃ j, last (some i) xs = some j := by
  induction xs generalizing i with
  | nil => exact ⟨i, rfl⟩
  | cons x xs ih => exact ih x.slot

/-- The slots around a cell in the middle of a list without repetitions. -/
theorem nodup_middle {l r : List Cell} {x : Cell}
    (nodup : ((l ++ x :: r).map slot).Nodup) :
    ((l ++ r).map slot).Nodup ∧ x.slot ∉ l.map slot ∧ x.slot ∉ r.map slot ∧
      ∀ i ∈ r.map slot, i ∉ l.map slot := by
  simp only [List.map_append, List.map_cons, List.nodup_append, List.nodup_cons,
    List.mem_cons] at nodup ⊢
  obtain ⟨left, ⟨notRight, right⟩, apart⟩ := nodup
  exact ⟨⟨left, right, fun i inLeft j inRight => apart i inLeft j (Or.inr inRight)⟩,
    fun member => apart _ member _ (Or.inl rfl) rfl, notRight,
    fun i inRight inLeft => apart i inLeft i (Or.inr inRight) rfl⟩

end Cell

namespace Cache

/-! ## Single entries -/

/-- Slot `i` belongs to the arena and holds no entry. -/
def Vacant (c : Cache) (i : Nat) : Prop := c.slots[i]? = some none

/-- Changing the entry of one slot changes no other. -/
theorem entry?_modifyEntry (c : Cache) (i j : Nat) (f : Entry → Entry) :
    Cache.entry? (c.modifyEntry i f) j = if i = j then (c.entry? j).map f else c.entry? j := by
  simp only [Cache.entry?, modifyEntry, Array.getElem?_modify]
  split
  · rcases c.slots[j]? with _ | _ | e <;> rfl
  · rfl

theorem entry?_modifyEntry_of_ne {c : Cache} {i j : Nat} (f : Entry → Entry) (other : i ≠ j) :
    Cache.entry? (c.modifyEntry i f) j = c.entry? j := by
  rw [entry?_modifyEntry, if_neg other]

/-! ## Setting one link -/

/-- Sets the `next` of slot `p`, or the head if there is no such slot. -/
def joinNext (c : Cache) (p n : Option Nat) : Cache :=
  match p with
  | some p => c.modifyEntry p ({ · with next := n })
  | none => { c with head := n }

/-- Sets the `prev` of slot `n`, or the tail if there is no such slot. -/
def joinPrev (c : Cache) (n p : Option Nat) : Cache :=
  match n with
  | some n => c.modifyEntry n ({ · with prev := p })
  | none => { c with tail := p }

/-- A link is set in one entry at most, so the entries that are not in front of it stay. -/
theorem entry?_joinNext {c : Cache} {p n : Option Nat} {i : Nat} (other : p ≠ some i) :
    Cache.entry? (c.joinNext p n) i = c.entry? i := by
  cases p with
  | none => rfl
  | some p =>
      have apart : p ≠ i := fun h => other (congrArg some h)
      exact entry?_modifyEntry_of_ne _ apart

/-- The entries that are not behind the link stay. -/
theorem entry?_joinPrev {c : Cache} {n p : Option Nat} {i : Nat} (other : n ≠ some i) :
    Cache.entry? (c.joinPrev n p) i = c.entry? i := by
  cases n with
  | none => rfl
  | some n =>
      have apart : n ≠ i := fun h => other (congrArg some h)
      exact entry?_modifyEntry_of_ne _ apart

theorem tail_joinNext (c : Cache) (p n : Option Nat) : (c.joinNext p n).tail = c.tail := by
  cases p <;> rfl

theorem head_joinPrev (c : Cache) (n p : Option Nat) : (c.joinPrev n p).head = c.head := by
  cases n <;> rfl

/-- Unlinking a slot joins its two neighbours, ends of the list included. -/
theorem unlink_eq_join {c : Cache} {i : Nat} {e : Entry} (here : c.entry? i = some e) :
    c.unlink i = ((c.modifyEntry i ({ · with prev := none, next := none })).joinNext
      e.prev e.next).joinPrev e.next e.prev := by
  simp only [unlink, here]
  cases e.prev <;> cases e.next <;> rfl

/-! ## Chains -/

/-- The cells follow one another in the arena. The first has `before` as its `prev`, the last has
`after` as its `next`. -/
def Chain (c : Cache) : (before : Option Nat) → List Cell → (after : Option Nat) → Prop
  | _, [], _ => True
  | before, x :: rest, after =>
    c.entry? x.slot = some (x.entry before (Cell.first rest after)) ∧
      Chain c (some x.slot) rest after

variable {c c' : Cache} {before after : Option Nat} {l r xs : List Cell} {x : Cell}

/-- A chain divides anywhere into two, which meet at each other's ends. -/
theorem chain_append : c.Chain before (l ++ r) after ↔
    c.Chain before l (Cell.first r after) ∧ c.Chain (Cell.last before l) r after := by
  induction l generalizing before with
  | nil => simp [Chain, Cell.last]
  | cons x l ih => simp only [List.cons_append, Chain, Cell.last, Cell.first_append, ih, and_assoc]

/-- A chain depends on the entries in its own slots only. -/
theorem Chain.congr (same : ∀ i ∈ xs.map Cell.slot, c'.entry? i = c.entry? i)
    (chain : c.Chain before xs after) : c'.Chain before xs after := by
  induction xs generalizing before with
  | nil => trivial
  | cons x xs ih =>
      obtain ⟨here, rest⟩ := chain
      exact ⟨(same x.slot List.mem_cons_self).trans here,
        ih (fun i member => same i (List.mem_cons_of_mem _ member)) rest⟩

/-- A chain does not depend on where the list begins and ends. -/
theorem Chain.ends (head tail : Option Nat) (chain : c.Chain before xs after) :
    ({ c with head, tail } : Cache).Chain before xs after := by
  have same : ∀ i, Cache.entry? { c with head, tail } i = c.entry? i := fun _ => rfl
  exact chain.congr fun i _ => same i

/-- Each cell of a chain is the entry in its slot, between some neighbours. -/
theorem Chain.entry (chain : c.Chain before xs after) (member : x ∈ xs) :
    ∃ prev next, c.entry? x.slot = some (x.entry prev next) := by
  induction xs generalizing before with
  | nil => cases member
  | cons y xs ih =>
      obtain ⟨here, rest⟩ := chain
      rcases List.mem_cons.mp member with rfl | later
      · exact ⟨_, _, here⟩
      · exact ih rest later

/-- Setting the `next` of the last cell leads the chain on to another slot. -/
theorem Chain.joinNext {after' : Option Nat} (chain : c.Chain none xs after)
    (nodup : (xs.map Cell.slot).Nodup) :
    (c.joinNext (Cell.last none xs) after').Chain none xs after' := by
  rcases List.eq_nil_or_concat xs with rfl | ⟨l, x, rfl⟩
  · trivial
  · rw [List.concat_eq_append] at *
    rw [List.map_append, List.map_singleton] at nodup
    have fresh : x.slot ∉ l.map Cell.slot := fun member =>
      (List.nodup_append.mp nodup).2.2 _ member _ List.mem_cons_self rfl
    obtain ⟨front, here, -⟩ := chain_append.mp chain
    rw [Cell.last_append]
    refine chain_append.mpr ⟨front.congr fun i member => entry?_joinNext ?_, ?_, trivial⟩
    · rintro h
      cases h
      exact fresh member
    · rw [Cell.last, Cell.last, Cache.joinNext, entry?_modifyEntry, if_pos rfl, here]
      rfl

/-- Setting the `prev` of the first cell hangs the chain behind another slot. -/
theorem Chain.joinPrev {before' : Option Nat} (chain : c.Chain before xs none)
    (nodup : (xs.map Cell.slot).Nodup) :
    (c.joinPrev (Cell.first xs none) before').Chain before' xs none := by
  cases xs with
  | nil => trivial
  | cons x rest =>
      obtain ⟨here, later⟩ := chain
      have fresh : x.slot ∉ rest.map Cell.slot := (List.nodup_cons.mp nodup).1
      refine ⟨?_, later.congr fun i member => entry?_joinPrev ?_⟩
      · rw [Cell.first, Cache.joinPrev, entry?_modifyEntry, if_pos rfl, here]
        rfl
      · rintro h
        cases h
        exact fresh member

/-! ## The two parts of the list around a link -/

/-- The list from the head to the last of the cells `xs`, which leads on to `after`. -/
structure Front (c : Cache) (xs : List Cell) (after : Option Nat) : Prop where
  head : c.head = Cell.first xs after
  chain : c.Chain none xs after

/-- The list from the first of the cells `xs`, which hangs behind `before`, to the tail. -/
structure Back (c : Cache) (before : Option Nat) (xs : List Cell) : Prop where
  tail : c.tail = Cell.last before xs
  chain : c.Chain before xs none

/-- The part up to a link is told by its own slots and the head. -/
theorem Front.congr (same : ∀ i ∈ xs.map Cell.slot, c'.entry? i = c.entry? i)
    (head : c'.head = c.head) (front : c.Front xs after) : c'.Front xs after :=
  ⟨head.trans front.head, front.chain.congr same⟩

/-- The part from a link on is told by its own slots and the tail. -/
theorem Back.congr (same : ∀ i ∈ xs.map Cell.slot, c'.entry? i = c.entry? i)
    (tail : c'.tail = c.tail) (back : c.Back before xs) : c'.Back before xs :=
  ⟨tail.trans back.tail, back.chain.congr same⟩

/-- The part up to a link can be made to lead anywhere. -/
theorem Front.joinNext {after' : Option Nat} (front : c.Front xs after)
    (nodup : (xs.map Cell.slot).Nodup) :
    (c.joinNext (Cell.last none xs) after').Front xs after' := by
  refine ⟨?_, front.chain.joinNext nodup⟩
  -- Without a last cell it is the head that is set.
  rcases List.eq_nil_or_concat xs with rfl | ⟨l, x, rfl⟩
  · rfl
  · have head := front.head
    rw [List.concat_eq_append, Cell.first_append] at head ⊢
    rw [Cell.last_append]
    exact head

/-- The part from a link on can be hung behind anything. -/
theorem Back.joinPrev {before' : Option Nat} (back : c.Back before xs)
    (nodup : (xs.map Cell.slot).Nodup) :
    (c.joinPrev (Cell.first xs none) before').Back before' xs := by
  refine ⟨?_, back.chain.joinPrev nodup⟩
  cases xs with
  | nil => rfl
  | cons x rest => exact back.tail

/-- What the first part leads to is no concern of the second. -/
theorem Back.joinNext {n : Option Nat} (back : c.Back before r)
    (apart : ∀ i ∈ r.map Cell.slot, i ∉ l.map Cell.slot) :
    (c.joinNext (Cell.last none l) n).Back before r := by
  refine back.congr (fun i member => entry?_joinNext fun h => ?_) (tail_joinNext c _ _)
  rcases Cell.mem_of_last h with start | inside
  · cases start
  · exact apart i member inside

/-- What the second part hangs behind is no concern of the first. -/
theorem Front.joinPrev {p : Option Nat} (front : c.Front l after)
    (apart : ∀ i ∈ r.map Cell.slot, i ∉ l.map Cell.slot) :
    (c.joinPrev (Cell.first r none) p).Front l after := by
  refine front.congr (fun i member => entry?_joinPrev fun h => ?_) (head_joinPrev c _ _)
  exact apart i (Cell.mem_of_first h) member

/-! ## The whole list -/

/-- The recency list consists of the cells `xs`, the most recently used one first. -/
structure Listed (c : Cache) (xs : List Cell) : Prop where
  head : c.head = Cell.first xs none
  tail : c.tail = Cell.last none xs
  chain : c.Chain none xs none
  nodup : (xs.map Cell.slot).Nodup

/-- A list is a part up to any of its links and a part from there on, in slots of their own. -/
theorem listed_append : c.Listed (l ++ r) ↔ c.Front l (Cell.first r none) ∧
    c.Back (Cell.last none l) r ∧ ((l ++ r).map Cell.slot).Nodup := by
  constructor
  · rintro ⟨head, tail, chain, nodup⟩
    rw [Cell.first_append] at head
    rw [Cell.last_append] at tail
    obtain ⟨front, back⟩ := chain_append.mp chain
    exact ⟨⟨head, front⟩, ⟨tail, back⟩, nodup⟩
  · rintro ⟨⟨head, front⟩, ⟨tail, back⟩, nodup⟩
    exact ⟨head.trans (Cell.first_append ..).symm, tail.trans (Cell.last_append ..).symm,
      chain_append.mpr ⟨front, back⟩, nodup⟩

/-- A cell in the middle of the list has its neighbours in the entry. -/
theorem Listed.entry (listed : c.Listed (l ++ x :: r)) :
    c.entry? x.slot = some (x.entry (Cell.last none l) (Cell.first r none)) :=
  (chain_append.mp listed.chain).2.1

/-- Unlinking a cell takes it out of the list and joins what was before and after it. -/
theorem Listed.unlink (listed : c.Listed (l ++ x :: r)) :
    (c.unlink x.slot).Listed (l ++ r) ∧
      Cache.entry? (c.unlink x.slot) x.slot = some (x.entry none none) := by
  obtain ⟨nodup, notLeft, notRight, apart⟩ := Cell.nodup_middle listed.nodup
  obtain ⟨nodupLeft, nodupRight, -⟩ := List.nodup_append.mp (List.map_append ▸ nodup)
  obtain ⟨front, ⟨tail, here, back⟩, -⟩ := listed_append.mp listed
  rw [unlink_eq_join here]
  -- The parts on both sides do not involve the detached slot, and each join changes one of them.
  let detached := c.modifyEntry x.slot ({ · with prev := none, next := none })
  have elsewhere : ∀ i, x.slot ≠ i → detached.entry? i = c.entry? i := fun i =>
    entry?_modifyEntry_of_ne _
  have front₀ : detached.Front l (some x.slot) :=
    front.congr (fun i member => elsewhere i fun h => notLeft (h ▸ member)) rfl
  have back₀ : detached.Back (some x.slot) r :=
    Back.congr (fun i member => elsewhere i fun h => notRight (h ▸ member)) rfl ⟨tail, back⟩
  let joined := detached.joinNext (Cell.last none l) (Cell.first r none)
  have front₁ : joined.Front l (Cell.first r none) := front₀.joinNext nodupLeft
  have back₁ : joined.Back (some x.slot) r := back₀.joinNext apart
  refine ⟨listed_append.mpr ⟨front₁.joinPrev apart, back₁.joinPrev nodupRight, nodup⟩, ?_⟩
  have notFirst : Cell.first r none ≠ some x.slot := fun h => notRight (Cell.mem_of_first h)
  have notLast : Cell.last none l ≠ some x.slot := fun h =>
    (Cell.mem_of_last h).elim (fun start => nomatch start) notLeft
  rw [Cell.entry, entry?_joinPrev notFirst, entry?_joinNext notLast, entry?_modifyEntry,
    if_pos rfl, here]
  rfl

/-- Putting a slot in front is setting two links at the beginning of the list. -/
theorem pushFront_eq_join (listed : c.Listed xs) (i : Nat) :
    c.pushFront i = { (c.modifyEntry i ({ · with prev := none, next := c.head })).joinPrev
      c.head (some i) with head := some i } := by
  cases xs with
  | nil =>
      have head : c.head = none := listed.head
      have tail : c.tail = none := listed.tail
      simp [pushFront, joinPrev, modifyEntry, head, tail]
  | cons x rest =>
      have head : c.head = some x.slot := listed.head
      obtain ⟨j, last⟩ := Cell.exists_last x.slot rest
      have tail : c.tail = some j := listed.tail.trans last
      simp [pushFront, joinPrev, modifyEntry, head, tail]

/-- An entry beside the list can be put in front, whatever links it has left. -/
theorem Listed.pushFront {prev next : Option Nat} (listed : c.Listed xs)
    (fresh : x.slot ∉ xs.map Cell.slot) (here : c.entry? x.slot = some (x.entry prev next)) :
    (c.pushFront x.slot).Listed (x :: xs) := by
  rw [pushFront_eq_join listed, listed.head]
  let linked := c.modifyEntry x.slot ({ · with prev := none, next := Cell.first xs none })
  have elsewhere : ∀ i ∈ xs.map Cell.slot, linked.entry? i = c.entry? i := fun i member =>
    entry?_modifyEntry_of_ne _ fun h => fresh (h ▸ member)
  have back : linked.Back none xs := Back.congr elsewhere rfl ⟨listed.tail, listed.chain⟩
  have hung : (linked.joinPrev (Cell.first xs none) (some x.slot)).Back (some x.slot) xs :=
    back.joinPrev listed.nodup
  refine ⟨rfl, hung.tail, ⟨?_, hung.chain.ends _ _⟩, List.nodup_cons.mpr ⟨fresh, listed.nodup⟩⟩
  have notFirst : Cell.first xs none ≠ some x.slot := fun h => fresh (Cell.mem_of_first h)
  have entry : linked.entry? x.slot = some (x.entry none (Cell.first xs none)) := by
    rw [entry?_modifyEntry, if_pos rfl, here]
    rfl
  exact (entry?_joinPrev notFirst).trans entry

/-- Promoting a listed cell moves it to the front and keeps the order of the others. -/
theorem Listed.promote (listed : c.Listed (l ++ x :: r)) :
    (c.promote x.slot).Listed (x :: (l ++ r)) := by
  unfold Cache.promote
  split
  -- The head stays where it is, and nothing is before it.
  next isHead =>
    have front : l = [] := by
      cases l with
      | nil => rfl
      | cons y l =>
          have same : y.slot = x.slot := Option.some.inj (listed.head.symm.trans isHead)
          have notLeft := (Cell.nodup_middle listed.nodup).2.1
          exact (notLeft (same ▸ List.mem_cons_self)).elim
    subst front
    exact listed
  next =>
    obtain ⟨nodup, notLeft, notRight, -⟩ := Cell.nodup_middle listed.nodup
    obtain ⟨unlinked, here⟩ := listed.unlink
    refine unlinked.pushFront ?_ here
    rw [List.map_append, List.mem_append]
    exact fun member => member.elim notLeft notRight

/-- A new value in a cell leaves the list as it is otherwise. -/
theorem Listed.setValue (value : Value) (listed : c.Listed (l ++ x :: r)) :
    (c.modifyEntry x.slot ({ · with value := value })).Listed
      (l ++ { x with value := value } :: r) := by
  obtain ⟨-, notLeft, notRight, -⟩ := Cell.nodup_middle listed.nodup
  obtain ⟨front, ⟨tail, here, back⟩, nodup⟩ := listed_append.mp listed
  let valued := c.modifyEntry x.slot ({ · with value := value })
  have elsewhere : ∀ i, x.slot ≠ i → valued.entry? i = c.entry? i := fun i =>
    entry?_modifyEntry_of_ne _
  refine listed_append.mpr
    ⟨front.congr (fun i member => elsewhere i fun h => notLeft (h ▸ member)) rfl,
      ⟨tail, ?_, back.congr fun i member => elsewhere i fun h => notRight (h ▸ member)⟩, ?_⟩
  · rw [entry?_modifyEntry, if_pos rfl, here]
    rfl
  · simpa only [List.map_append, List.map_cons] using nodup

/-! ## What relinking leaves alone -/

/-- `c'` has the table, the free slots and the capacity of `c`, and its arena holds entries in the
same slots. -/
structure Relinked (c c' : Cache) : Prop where
  capacity : c'.capacity = c.capacity
  lookup : c'.lookup = c.lookup
  free : c'.free = c.free
  size : c'.slots.size = c.slots.size
  shape : ∀ i : Nat, c'.slots[i]?.map Option.isSome = c.slots[i]?.map Option.isSome

/-- Whether a slot is free can be told without looking into entries. -/
theorem vacant_iff (c : Cache) (i : Nat) :
    c.Vacant i ↔ c.slots[i]?.map Option.isSome = some false := by
  rw [Vacant]
  rcases c.slots[i]? with _ | _ | e <;> simp

theorem occupied_eq_shape (c : Cache) (i : Nat) :
    (c.entry? i).isSome = (c.slots[i]?.map Option.isSome == some true) := by
  rw [Cache.entry?]
  rcases c.slots[i]? with _ | _ | e <;> rfl

theorem Relinked.vacant (relinked : c.Relinked c') (i : Nat) : c'.Vacant i ↔ c.Vacant i := by
  rw [vacant_iff, vacant_iff, relinked.shape]

theorem Relinked.occupied (relinked : c.Relinked c') (i : Nat) :
    (c'.entry? i).isSome = (c.entry? i).isSome := by
  rw [occupied_eq_shape, occupied_eq_shape, relinked.shape]

theorem Relinked.refl (c : Cache) : c.Relinked c := ⟨rfl, rfl, rfl, rfl, fun _ => rfl⟩

theorem Relinked.trans {c₁ c₂ c₃ : Cache} (left : c₁.Relinked c₂) (right : c₂.Relinked c₃) :
    c₁.Relinked c₃ :=
  ⟨right.capacity.trans left.capacity, right.lookup.trans left.lookup,
    right.free.trans left.free, right.size.trans left.size,
    fun i => (right.shape i).trans (left.shape i)⟩

theorem relinked_modifyEntry (c : Cache) (i : Nat) (f : Entry → Entry) :
    c.Relinked (c.modifyEntry i f) := by
  refine ⟨rfl, rfl, rfl, Array.size_modify, fun j => ?_⟩
  rw [modifyEntry, Array.getElem?_modify]
  split
  · rcases c.slots[j]? with _ | _ | e <;> rfl
  · rfl

theorem relinked_ends (c : Cache) (head tail : Option Nat) :
    c.Relinked { c with head, tail } :=
  ⟨rfl, rfl, rfl, rfl, fun _ => rfl⟩

theorem relinked_joinNext (c : Cache) (p n : Option Nat) : c.Relinked (c.joinNext p n) := by
  cases p with
  | none => exact relinked_ends c n c.tail
  | some p => exact relinked_modifyEntry c p _

theorem relinked_joinPrev (c : Cache) (n p : Option Nat) : c.Relinked (c.joinPrev n p) := by
  cases n with
  | none => exact relinked_ends c c.head p
  | some n => exact relinked_modifyEntry c n _

/-- Unlinking only relinks, whatever is in the slot. -/
theorem relinked_unlink (c : Cache) (i : Nat) : c.Relinked (c.unlink i) := by
  cases here : c.entry? i with
  | none =>
      rw [unlink, here]
      exact Relinked.refl c
  | some e =>
      rw [unlink_eq_join here]
      exact ((relinked_modifyEntry c i _).trans (relinked_joinNext _ _ _)).trans
        (relinked_joinPrev _ _ _)

theorem relinked_pushFront (c : Cache) (i : Nat) : c.Relinked (c.pushFront i) := by
  refine Relinked.trans ?_ (relinked_ends _ (some i) _)
  split
  · exact (relinked_modifyEntry c i _).trans (relinked_modifyEntry _ _ _)
  · exact relinked_modifyEntry c i _

/-- Moving a slot to the front only relinks. -/
theorem relinked_promote (c : Cache) (i : Nat) : c.Relinked (c.promote i) := by
  unfold promote
  split
  · exact Relinked.refl c
  · exact (relinked_unlink c i).trans (relinked_pushFront _ i)

end Cache

end CacheAside
