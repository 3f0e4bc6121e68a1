import CacheAside.Api.WriteBody
import CacheAside.Proofs.Json.Reading

/-!
# Decoding the body of a write

An object that the grammar of JSON allows is decoded member by member: `WriteBody.Found.take` says
what a member adds, from its name and from what its value is, and nothing else of the text counts
(`WriteBody.decode_object`).
-/

namespace CacheAside

open Json

namespace WriteBody

variable {cs : List Char} {rest : List Symbol} {d : Data} {name : String}
  {ms : List (String × Data)}

/-- The values of the members of a name. -/
def named (name : String) (ms : List (String × Data)) : List Data :=
  (ms.filter (·.1 = name)).map Prod.snd

theorem named_cons_of_eq (d : Data) (ms : List (String × Data)) :
    named name ((name, d) :: ms) = d :: named name ms := by
  simp [named]

theorem named_cons_of_ne {other : String} (apart : other ≠ name) (d : Data)
    (ms : List (String × Data)) : named name ((other, d) :: ms) = named name ms := by
  simp [named, apart]

/-- What a member named `key` adds: it has to be a text, and may not come twice. -/
def takeKey (had : Option Key) : Data → Option (Option Key)
  | .text key => if had.isSome then none else some (some key)
  | _ => none

/-- What a member named `value` adds: it has to be a text or `null`, and may not come twice. -/
def takeValue (had : Option (Option Value)) : Data → Option (Option (Option Value))
  | .text value => if had.isSome then none else some (some (some value))
  | .null => if had.isSome then none else some (some none)
  | _ => none

/-- What a member adds to what has been found. -/
def Found.take (f : Found) (m : String × Data) : Option Found :=
  if m.1 = "key" then (takeKey f.key m.2).map ({ f with key := · })
  else if m.1 = "value" then (takeValue f.value m.2).map ({ f with value := · })
  else some f

theorem value?_other (spells : Spells (.value d) cs) (texts : ∀ s, d ≠ .text s)
    (other : d ≠ .null) : value? (cs.map some ++ rest) = none := by
  have unread : text? (cs.map some ++ rest) = none := text?_other spells texts
  obtain ⟨c, ds, rfl, -, -, null⟩ := spells.begins
  unfold value?
  split
  · next opens =>
      rw [List.map_cons, List.cons_append, List.cons.injEq, Option.some.injEq] at opens
      exact absurd (null opens.1) other
  · rw [unread]
    rfl

theorem value?_text {s : String} (quoted : Quoted s cs) :
    value? (cs.map some ++ rest) = some (some s, rest) := by
  have read : text? (cs.map some ++ rest) = some (s, rest) := text?_quoted quoted
  obtain ⟨ds, rfl⟩ := quoted.begins
  unfold value?
  split
  · next opens => cases opens
  · rw [read]
    rfl

/-- The value of a member is read as the member is taken, and blanks after it may be left. -/
theorem field?_spelled (spells : Spells (.element d) cs) (ends : Ends rest) (name : String)
    (f : Found) : ∃ tail, skipBlanks tail = skipBlanks rest ∧
      field? name f (cs.map some ++ rest) = (f.take (name, d)).map (·, tail) := by
  obtain ⟨vs, bs, value, after, drops⟩ := spells.of_element
  refine ⟨bs.map some ++ rest, after.drop, ?_⟩
  have skipped := skipValue_spelled value (after.ends ends)
  unfold field? Found.take
  simp only [drops]
  by_cases key : name = "key"
  · rw [if_pos key, if_pos key]
    cases d with
    | text s =>
        cases value with
        | text quoted =>
            rw [text?_quoted quoted, takeKey]
            split <;> rfl
    | null | boolean | number | array | object =>
        rw [text?_other value nofun]
        exact ite_self none
  · rw [if_neg key, if_neg key]
    by_cases valued : name = "value"
    · rw [if_pos valued, if_pos valued]
      cases d with
      | text s =>
          cases value with
          | text quoted =>
              rw [value?_text quoted, takeValue]
              split <;> rfl
      | null =>
          cases value
          rw [takeValue]
          split <;> rfl
      | boolean | number | array | object =>
          rw [value?_other value nofun nofun]
          exact ite_self none
    · rw [if_neg valued, if_neg valued, skipped]
      rfl

/-- One member is read and taken, and what follows it decides how to go on. -/
theorem members?_member (spells : Spells (.member name d) cs) (ends : Ends rest) (rounds : Nat)
    (f : Found) : members? (rounds + 1) f (cs.map some ++ rest) =
      match f.take (name, d) with
      | none => none
      | some f =>
        match skipBlanks rest with
        | some ',' :: rest => members? rounds f rest
        | some '}' :: rest => some (f, rest)
        | _ => none := by
  cases spells with
  | @named _ _ bs ns bs' cs before quoted after element =>
      obtain ⟨tail, same, read⟩ := field?_spelled element ends name f
      have drops : skipBlanks ((bs ++ (ns ++ (bs' ++ ':' :: cs))).map some ++ rest) =
          ns.map some ++ (bs'.map some ++ some ':' :: (cs.map some ++ rest)) := by
        simp only [List.map_append, List.map_cons, List.append_assoc, List.cons_append]
        rw [before.drop]
        obtain ⟨ds, rfl⟩ := quoted.begins
        exact skipBlanks_of_seen rfl
      have colon : skipBlanks (bs'.map some ++ some ':' :: (cs.map some ++ rest)) =
          some ':' :: (cs.map some ++ rest) := after.drop.trans (skipBlanks_of_seen rfl)
      rw [members?, drops, text?_quoted quoted]
      dsimp only
      rw [colon]
      simp only [read]
      cases f.take (name, d) with
      | none => rfl
      | some f =>
          dsimp only [Option.map_some]
          generalize skipBlanks tail = left at same
          subst same
          rfl

/-- The members of an object are read up to its end, and each is taken. -/
theorem members?_spelled (spells : Spells (.members ms) cs) {rounds : Nat}
    (enough : ms.length ≤ rounds) (f : Found) :
    members? rounds f (cs.map some ++ some '}' :: rest) =
      (ms.foldlM Found.take f).map (·, rest) := by
  generalize members : Part.members ms = part at spells
  induction spells generalizing ms rounds f with
  | @member name d cs only =>
      cases members
      cases rounds with
      | zero => cases enough
      | succ rounds =>
          rw [members?_member only (ends_of_mark (by simp)), List.foldlM_cons]
          cases f.take (name, d) <;> rfl
  | @members name d ms cs es first more _ ih =>
      cases members
      cases rounds with
      | zero => cases enough
      | succ rounds =>
          have fewer : ms.length ≤ rounds := Nat.le_of_succ_le_succ enough
          rw [List.map_append, List.append_assoc, List.map_cons, List.cons_append,
            members?_member first (ends_of_mark (by simp)), List.foldlM_cons]
          cases f.take (name, d) with
          | none => rfl
          | some f => exact ih fewer f rfl
  | _ => cases members

/-- An object is decoded by its members, and what follows it is left. -/
theorem object?_spelled (spells : Spells (.value (.object ms)) cs) (rest : List Symbol) :
    ∃ ds, cs = '{' :: ds ∧
      object? (ds.map some ++ rest) = (ms.foldlM Found.take {}).map fun f => (f.body, rest) := by
  cases spells with
  | @noMembers bs blanks =>
      refine ⟨_, rfl, ?_⟩
      have closes : skipBlanks ((bs ++ ['}']).map some ++ rest) = some '}' :: rest := by
        rw [List.map_append, List.append_assoc, blanks.drop]
        exact skipBlanks_of_seen rfl
      rw [object?, closes]
      rfl
  | @object _ cs members =>
      refine ⟨_, rfl, ?_⟩
      obtain ⟨ds, trimmed, drops⟩ := members.trim
      have inner : skipBlanks ((cs ++ ['}']).map some ++ rest) =
          ('"' :: ds).map some ++ some '}' :: rest := by
        rw [List.map_append, List.append_assoc]
        exact drops _
      have enough : ms.length ≤ (('"' :: ds).map some ++ some '}' :: rest).length := by
        have fewer := trimmed.length_members
        rw [List.length_append, List.length_map]
        omega
      unfold object?
      rw [inner]
      split
      · next closes => cases closes
      · rw [members?_spelled trimmed enough, Option.map_map]
        rfl

/-- A body that the grammar allows as an object is read by its members; blanks after it are left. -/
theorem read?_object (spells : Spells (.element (.object ms)) cs) : ∃ bs : List Char, Blanks bs ∧
    ∀ rest, read? (cs.map some ++ rest) =
      (ms.foldlM Found.take {}).map fun f => (f.body, bs.map some ++ rest) := by
  obtain ⟨vs, bs, value, after, drops⟩ := spells.of_element
  refine ⟨bs, after, fun rest => ?_⟩
  obtain ⟨ds, rfl, read⟩ := object?_spelled value (bs.map some ++ rest)
  rw [read?, drops]
  exact read

/-- What is read is decoded, whether or not it has to be all of the text, if only blanks follow. -/
theorem decode_of_read {input : List Symbol} {body : Option WriteBody} {bs : List Char}
    (blanks : Blanks bs) (read : read? input = body.map (·, bs.map some)) :
    ofFirst? input = body ∧ ofWhole? input = body := by
  have nothing : skipBlanks (bs.map some ++ []) = [] := blanks.drop
  rw [List.append_nil] at nothing
  constructor
  · rw [ofFirst?, read, Option.map_map]
    exact Option.map_id'
  · rw [ofWhole?, read]
    cases body with
    | none => rfl
    | some body =>
        dsimp only [Option.map_some]
        rw [nothing]
        rfl

/-- It is decoded by its members alone, whether or not it has to be all of the text. -/
theorem decode_object (spells : Spells (.element (.object ms)) cs) :
    ofFirst? (cs.map some) = (ms.foldlM Found.take {}).map Found.body ∧
      ofWhole? (cs.map some) = (ms.foldlM Found.take {}).map Found.body := by
  obtain ⟨bs, blanks, read⟩ := read?_object spells
  have read := read []
  rw [List.append_nil, List.append_nil] at read
  refine decode_of_read blanks ?_
  rw [read, Option.map_map]
  rfl

/-! ## All members together -/

/-- Nothing but the members named `key` and `value` counts, however many others stand among them. -/
theorem foldlM_take (ms : List (String × Data)) (f : Found) : ms.foldlM Found.take f =
    ((named "key" ms).foldlM takeKey f.key).bind fun key =>
      ((named "value" ms).foldlM takeValue f.value).map fun value => ⟨key, value⟩ := by
  induction ms generalizing f with
  | nil => rfl
  | cons m ms ih =>
      obtain ⟨name, d⟩ := m
      rw [List.foldlM_cons, Found.take]
      by_cases key : name = "key"
      · subst key
        rw [if_pos rfl, named_cons_of_eq, named_cons_of_ne (by decide), List.foldlM_cons]
        cases takeKey f.key d with
        | none => rfl
        | some key => exact ih { f with key }
      · rw [if_neg key, named_cons_of_ne key]
        by_cases value : name = "value"
        · subst value
          rw [if_pos rfl, named_cons_of_eq, List.foldlM_cons]
          cases takeValue f.value d with
          | none => simp
          | some value => exact ih { f with value }
        · rw [if_neg value, named_cons_of_ne value]
          exact ih f

/-- An object that has one `key` and one `value`, both of them texts, is the write of that pair. -/
theorem decode_pair {key : Key} {value : Value} (spells : Spells (.element (.object ms)) cs)
    (keyed : named "key" ms = [.text key]) (valued : named "value" ms = [.text value]) :
    ofFirst? (cs.map some) = some ⟨key, some value⟩ ∧
      ofWhole? (cs.map some) = some ⟨key, some value⟩ := by
  have decoded := decode_object spells
  rw [foldlM_take, keyed, valued] at decoded
  exact decoded

end WriteBody

end CacheAside
