import CacheAside.Api.Body
import CacheAside.Proofs.Json.Grammar

/-!
# What is written is in the grammar

A written text spells the text, and an object written with texts as its members spells that object:
`Json.quoted_quote` and `Json.spells_object`.
-/

namespace CacheAside.Json

open Numeral (HexDigit)

/-- A short escape that is written can be read. -/
theorem shortEscape_mem {c e : Char} (short : shortEscape c = some e) : (e, c) ∈ shortEscapes := by
  unfold shortEscape at short
  split at short <;> cases short <;> decide

/-- The escape of a character spells it. -/
theorem spellsChar_escape (c : Char) : SpellsChar c (escape c) := by
  unfold escape
  cases short : shortEscape c with
  | some e => exact .short (shortEscape_mem short)
  | none =>
      by_cases control : c.toNat < 0x20
      · rw [if_pos control]
        have zero : HexDigit 0 '0' := ⟨by decide, .inl rfl⟩
        refine .unit (by omega) (.intro ?_ ?_ ?_ ?_)
        · rwa [Nat.div_eq_of_lt (by omega)]
        · rwa [Nat.div_eq_of_lt (by omega)]
        · rw [Nat.mod_eq_of_lt (by omega)]
          exact ⟨by omega, .inl rfl⟩
        · exact ⟨Nat.mod_lt _ (by decide), .inl rfl⟩
      · rw [if_neg control]
        refine .plain (Nat.le_of_not_lt control) ?_ ?_
        · rintro rfl
          cases short
        · rintro rfl
          cases short

theorem spellsChars_escape (cs : List Char) : SpellsChars cs (cs.flatMap escape) := by
  induction cs with
  | nil => exact .nil
  | cons c cs ih => exact .cons (spellsChar_escape c) ih

theorem toList_quote (s : String) :
    (quote s).toList = '"' :: (s.toList.flatMap escape ++ ['"']) := by
  simp only [quote, String.toList_append, String.toList_ofList]
  rfl

/-- A written text spells the text. -/
theorem quoted_quote (s : String) : Quoted s (quote s).toList := by
  rw [toList_quote]
  exact .intro (spellsChars_escape s.toList)

/-- A member is written as its name and its text. -/
theorem spells_member (name s : String) :
    Spells (.member name (.text s)) (member (name, .text s)).toList := by
  have written : (member (name, .text s)).toList =
      [] ++ ((quote name).toList ++ ([] ++ ':' :: ([] ++ ((quote s).toList ++ [])))) := by
    rw [member, Scalar.render, String.toList_append, String.toList_append, List.append_nil,
      List.append_assoc]
    rfl
  rw [written]
  exact .named nofun (quoted_quote name) nofun (.element nofun (.text (quoted_quote s)) nofun)

theorem spells_members (m : String × String) (ms : List (String × String)) :
    Spells (.members ((m :: ms).map fun m => (m.1, .text m.2)))
      (",".intercalate ((m :: ms).map fun m => member (m.1, .text m.2))).toList := by
  induction ms generalizing m with
  | nil =>
      rw [List.map_cons, List.map_cons, List.map_nil, List.map_nil, String.intercalate_singleton]
      exact .member (spells_member m.1 m.2)
  | cons m' ms ih =>
      have joined :
          (",".intercalate ((m :: m' :: ms).map fun m => member (m.1, .text m.2))).toList =
          (member (m.1, .text m.2)).toList ++
            ',' :: (",".intercalate ((m' :: ms).map fun m => member (m.1, .text m.2))).toList := by
        rw [List.map_cons, List.map_cons, String.intercalate_cons_cons, String.toList_append,
          String.toList_append, List.append_assoc]
        rfl
      rw [joined, List.map_cons]
      exact .members (spells_member m.1 m.2) (ih m')

/-- An object that is written with texts as its members spells that object. -/
theorem spells_object (m : String × String) (ms : List (String × String)) :
    Spells (.value (.object ((m :: ms).map fun m => (m.1, .text m.2))))
      (object ((m :: ms).map fun m => (m.1, .text m.2))).toList := by
  have written : (object ((m :: ms).map fun m => (m.1, Scalar.text m.2))).toList = '{' ::
      ((",".intercalate ((m :: ms).map fun m => member (m.1, .text m.2))).toList ++ ['}']) := by
    rw [object, String.toList_append, String.toList_append, List.map_map]
    rfl
  rw [written]
  exact .object (spells_members m ms)

/-- The answer to a read spells the object of the pair. -/
theorem spells_found (key : Key) (value : Value) :
    Spells (.value (.object [("key", .text key), ("value", .text value)]))
      (Body.found key value).toList :=
  spells_object ("key", key) [("value", value)]

end CacheAside.Json
