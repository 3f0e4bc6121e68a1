import CacheAside.Proofs.Dispatch.Ending
import CacheAside.Store.Faults
import CacheAside.Store.Memory

/-!
# The store in memory, and faults in front of it

A request either is struck by a fault, which its caller learns of while nothing changes, or is
served from the table. Which of the two shows in the reply, so the ending of an operation says
what happened to the table.
-/

namespace CacheAside

namespace Table

/-- After an insertion the table has the value under its key and the rest as before. -/
theorem getElem?_insert (t : Table) (key other : Key) (value : Value) :
    (t.insert key value)[other]? = if other = key then some value else t[other]? := by
  rw [Std.TreeMap.getElem?_insert]
  by_cases same : other = key
  · rw [if_pos same, if_pos (Std.compare_eq_iff_eq.mpr same.symm)]
  · rw [if_neg same, if_neg fun equal => same (Std.compare_eq_iff_eq.mp equal).symm]

theorem getElem?_erase (t : Table) (key other : Key) :
    (t.erase key)[other]? = if other = key then none else t[other]? := by
  rw [Std.TreeMap.getElem?_erase]
  by_cases same : other = key
  · rw [if_pos same, if_pos (Std.compare_eq_iff_eq.mpr same.symm)]
  · rw [if_neg same, if_neg fun equal => same (Std.compare_eq_iff_eq.mp equal).symm]

end Table

namespace Faulty

variable {σ : Type} {s : Faulty σ}

/-- The rules by which every request meets this fault, or by which none meets any. -/
def struck (s : Faulty σ) : Option Fault → Faulty σ
  | none => s.heal
  | some fault =>
    ((s.heal.inject ⟨.get, none, fault⟩).inject ⟨.put, none, fault⟩).inject ⟨.delete, none, fault⟩

theorem fault?_heal (s : Faulty σ) (r : Request) : s.heal.fault? r = none := rfl

/-- Under the rules of one fault, every request meets it. -/
theorem fault?_struck (s : Faulty σ) (fault : Option Fault) (r : Request) :
    (s.struck fault).fault? r = fault := by
  cases fault with
  | none => exact fault?_heal s r
  | some fault => cases r <;> simp [struck, fault?, rule?, inject, heal, Request.verb]

theorem store_struck (s : Faulty σ) (fault : Option Fault) : (s.struck fault).store = s.store := by
  cases fault <;> rfl

end Faulty

namespace Memory

variable {s : Faulty Table} {c : Unit} {r : Request} {t' : Unit × Faulty Table}

/-- A request that meets a fault leaves the table alone. -/
theorem faulty_struck {fault : Fault} (struck : s.fault? r = some fault) :
    (backend.faulty.answering r (c, s)).value = (fault.reply, c, s) := by
  simp only [Backend.answering, Backend.faulty, struck]
  rfl

/-- A request that meets no fault is served by the table. -/
theorem faulty_served (quiet : s.fault? r = none) :
    (backend.faulty.answering r (c, s)).value =
      (.answered (s.store.serve r).1, c, { s with store := (s.store.serve r).2 }) := by
  simp only [Backend.answering, Backend.faulty, quiet]
  rfl

/-- A request leaves the rules for faults as they are. -/
theorem fault?_of_replied {reply : Reply} {c' : Unit} {s' : Faulty Table}
    (replied : (backend.faulty.answering r (c, s)).value = (reply, c', s')) (other : Request) :
    s'.fault? other = s.fault? other := by
  cases met : s.fault? r with
  | none =>
      rw [faulty_served met] at replied
      cases replied
      rfl
  | some fault =>
      rw [faulty_struck met] at replied
      cases replied
      rfl

/-- Without faults the table serves every request. -/
theorem answering_eq (r : Request) (t : Unit × Table) :
    (backend.answering r t).value = (.answered (t.2.serve r).1, t.1, (t.2.serve r).2) := rfl

theorem served {t t' : Unit × Table} {answer : Option Value}
    (replied : (backend.answering r t).value = (.answered answer, t')) :
    (t.2.serve r).1 = answer ∧ t' = (t.1, (t.2.serve r).2) := by
  rw [answering_eq] at replied
  cases replied
  exact ⟨rfl, rfl⟩

theorem unfailing {t t' : Unit × Table} {reply : Reply} {result : Result}
    (replied : (backend.answering r t).value = (reply, t'))
    (trouble : reply.trouble = some result) : False := by
  rw [answering_eq] at replied
  cases replied
  cases trouble

/-- An answer comes from the table, with no fault in the way. -/
theorem served_of_answered {answer : Option Value}
    (replied : (backend.faulty.answering r (c, s)).value = (.answered answer, t')) :
    s.fault? r = none ∧ (s.store.serve r).1 = answer ∧
      t' = (c, { s with store := (s.store.serve r).2 }) := by
  cases met : s.fault? r with
  | none =>
      rw [faulty_served met] at replied
      cases replied
      exact ⟨rfl, rfl, rfl⟩
  | some fault =>
      rw [faulty_struck met] at replied
      cases fault <;> cases replied

/-- A read that is answered changes nothing. -/
theorem found_of_answered {key : Key} {answer : Option Value}
    (replied : (backend.faulty.answering (.get key) (c, s)).value = (.answered answer, t')) :
    s.fault? (.get key) = none ∧ s.store[key]? = answer ∧ t' = (c, s) :=
  served_of_answered replied

/-- Trouble comes from a fault, and the table is as it was. -/
theorem struck_of_trouble {reply : Reply} {result : Result}
    (replied : (backend.faulty.answering r (c, s)).value = (reply, t'))
    (trouble : reply.trouble = some result) :
    (∃ fault, s.fault? r = some fault ∧ reply = fault.reply) ∧ t' = (c, s) := by
  cases met : s.fault? r with
  | none =>
      rw [faulty_served met] at replied
      cases replied
      cases trouble
  | some fault =>
      rw [faulty_struck met] at replied
      cases replied
      exact ⟨⟨fault, rfl, rfl⟩, rfl⟩

end Memory

end CacheAside
