import CacheAside.Proofs.Json.Reading

/-!
# A text spells one value

The grammar of JSON is unambiguous: a row of characters spells at most one value,
`Json.Spells.alone`. Where a value ends is settled by the reader, which passes over a value without
knowing what it is, so two derivations of one row divide it at the same places.
-/

namespace CacheAside.Json

variable {cs es fs : List Char} {d d' : Data} {ds : List Data} {name name' : String}
  {ms : List (String × Data)}

/-! ## Shapes -/

/-- The constructors of the data. -/
inductive Shape
  | null
  | boolean (b : Bool)
  | number | text | array | object

def Data.shape : Data → Shape
  | .null => .null
  | .boolean b => .boolean b
  | .number _ => .number
  | .text _ => .text
  | .array _ => .array
  | .object _ => .object

/-- The shape of what begins with a character. Nothing but a number is left for the others. -/
def Shape.opened : Char → Shape
  | 'n' => .null
  | 't' => .boolean true
  | 'f' => .boolean false
  | '"' => .text
  | '[' => .array
  | '{' => .object
  | _ => .number

/-- The first character of a value is no blank and tells its shape. -/
theorem Spells.opens (spells : Spells (.value d) cs) :
    ∃ c more, cs = c :: more ∧ isBlank (some c) = false ∧ d.shape = Shape.opened c := by
  cases spells with
  | nullWord | trueWord | falseWord => exact ⟨_, _, rfl, rfl, rfl⟩
  | number number =>
      obtain ⟨c, more, rfl, member⟩ := number.begins
      simp only [List.mem_cons, List.not_mem_nil, or_false] at member
      rcases member with rfl | rfl | rfl | rfl | rfl | rfl | rfl | rfl | rfl | rfl | rfl
      all_goals exact ⟨_, _, rfl, rfl, rfl⟩
  | text quoted =>
      cases quoted with
      | intro _ => exact ⟨_, _, rfl, rfl, rfl⟩
  | noItems _ | array _ | noMembers _ | object _ => exact ⟨_, _, rfl, rfl, rfl⟩

/-- What two readings of a row are shows in its first character. -/
theorem Spells.same_shape (spells : Spells (.value d) cs) (other : Spells (.value d') cs) :
    d'.shape = d.shape := by
  obtain ⟨c, more, rfl, -, shape⟩ := spells.opens
  obtain ⟨c', more', same, -, shape'⟩ := other.opens
  cases same
  exact shape'.trans shape.symm

theorem Data.eq_of_shape (same : d'.shape = d.shape) (word : d = .null ∨ ∃ b, d = .boolean b) :
    d' = d := by
  rcases word with rfl | ⟨b, rfl⟩
  · cases d' with
    | null => rfl
    | _ => cases same
  · cases d' with
    | boolean _ =>
        cases same
        rfl
    | _ => cases same

/-! ## What a part is made of -/

/-- An array is written as nothing or items between brackets. -/
theorem Spells.of_array (spells : Spells (.value (.array ds)) cs) :
    (ds = [] ∧ ∃ bs, Blanks bs ∧ cs = '[' :: (bs ++ [']'])) ∨
      ∃ es, Spells (.items ds) es ∧ cs = '[' :: (es ++ [']']) := by
  cases spells with
  | noItems blanks => exact .inl ⟨rfl, _, blanks, rfl⟩
  | array items => exact .inr ⟨_, items, rfl⟩

theorem Spells.of_object (spells : Spells (.value (.object ms)) cs) :
    (ms = [] ∧ ∃ bs, Blanks bs ∧ cs = '{' :: (bs ++ ['}'])) ∨
      ∃ es, Spells (.members ms) es ∧ cs = '{' :: (es ++ ['}']) := by
  cases spells with
  | noMembers blanks => exact .inl ⟨rfl, _, blanks, rfl⟩
  | object members => exact .inr ⟨_, members, rfl⟩

/-- What stands between square brackets is an array: blanks, or its items. -/
theorem Spells.bracketed (spells : Spells (.value d) ('[' :: (cs ++ [']']))) :
    (d = .array [] ∧ Blanks cs) ∨ ∃ ds, d = .array ds ∧ Spells (.items ds) cs := by
  obtain ⟨c, more, opens, -, shape⟩ := spells.opens
  cases opens
  cases d with
  | array ds =>
      rcases spells.of_array with ⟨rfl, bs, blanks, same⟩ | ⟨es, items, same⟩
      · have inner : cs = bs := List.append_cancel_right (List.cons.inj same).2
        exact .inl ⟨rfl, inner ▸ blanks⟩
      · have inner : cs = es := List.append_cancel_right (List.cons.inj same).2
        exact .inr ⟨ds, rfl, inner ▸ items⟩
  | _ => cases shape

/-- What stands between braces is an object: blanks, or its members. -/
theorem Spells.braced (spells : Spells (.value d) ('{' :: (cs ++ ['}']))) :
    (d = .object [] ∧ Blanks cs) ∨ ∃ ms, d = .object ms ∧ Spells (.members ms) cs := by
  obtain ⟨c, more, opens, -, shape⟩ := spells.opens
  cases opens
  cases d with
  | object ms =>
      rcases spells.of_object with ⟨rfl, bs, blanks, same⟩ | ⟨es, members, same⟩
      · have inner : cs = bs := List.append_cancel_right (List.cons.inj same).2
        exact .inl ⟨rfl, inner ▸ blanks⟩
      · have inner : cs = es := List.append_cancel_right (List.cons.inj same).2
        exact .inr ⟨ms, rfl, inner ▸ members⟩
  | _ => cases shape

/-- What follows the first part of a row: nothing, or a comma and the other parts. -/
inductive Tail (spells : List Char → Prop) (isLast : Prop) : List Char → Prop
  | none (last : isLast) : Tail spells isLast []
  | more {es : List Char} (rest : spells es) : Tail spells isLast (',' :: es)

/-- A row of items divides into the first of them and the others. -/
theorem Spells.of_items (spells : Spells (.items ds) cs) :
    ∃ d others es fs, ds = d :: others ∧ cs = es ++ fs ∧ Spells (.element d) es ∧
      Tail (Spells (.items others)) (others = []) fs := by
  cases spells with
  | item element => exact ⟨_, _, _, [], rfl, (List.append_nil _).symm, element, .none rfl⟩
  | items first rest => exact ⟨_, _, _, _, rfl, rfl, first, .more rest⟩

theorem Spells.of_members (spells : Spells (.members ms) cs) :
    ∃ name d others es fs, ms = (name, d) :: others ∧ cs = es ++ fs ∧ Spells (.member name d) es ∧
      Tail (Spells (.members others)) (others = []) fs := by
  cases spells with
  | member only => exact ⟨_, _, _, _, [], rfl, (List.append_nil _).symm, only, .none rfl⟩
  | members first rest => exact ⟨_, _, _, _, _, rfl, rfl, first, .more rest⟩

/-! ## Where a part ends -/

theorem eq_of_symbols (same : es.map some = cs.map some) : es = cs :=
  (List.map_inj_right fun _ _ => Option.some.inj).mp same

/-- Nothing, or a mark that is part of no value. -/
def Marked (cs : List Char) : Prop := ∀ c ∈ cs.head?, c ∈ [',', ']', '}']

theorem marked_nil : Marked [] := nofun

theorem marked_comma (cs : List Char) : Marked (',' :: cs) := by
  rintro _ ⟨⟩
  exact List.mem_cons_self

/-- What follows an item is nothing or begins with a comma. -/
theorem Tail.marked {spells : List Char → Prop} {isLast : Prop} (tail : Tail spells isLast cs) :
    Marked cs := by
  cases tail with
  | none _ => exact marked_nil
  | more _ => exact marked_comma _

theorem Marked.ends (marked : Marked cs) : Ends (cs.map some) := by
  cases cs with
  | nil => nofun
  | cons c cs =>
      rintro _ ⟨⟩
      exact .inr (List.mem_map_of_mem (marked c rfl))

theorem Marked.seen (marked : Marked cs) : skipBlanks (cs.map some) = cs.map some := by
  cases cs with
  | nil => rfl
  | cons c cs =>
      have known := marked c rfl
      simp only [List.mem_cons, List.not_mem_nil, or_false] at known
      rcases known with rfl | rfl | rfl <;> exact skipBlanks_of_seen rfl

theorem Blanks.last {bs : List Char} (blanks : Blanks bs) : Ends (bs.map some) := by
  have ends : Ends (bs.map some ++ []) := blanks.ends nofun
  rwa [List.append_nil] at ends

/-- Two values that a row begins with, each before blanks, are the same characters. -/
theorem Spells.divided_values {vs vs' bs bs' : List Char} (spells : Spells (.value d) vs)
    (other : Spells (.value d') vs') (blanks : Blanks bs) (blanks' : Blanks bs')
    (same : vs' ++ bs' = vs ++ bs) : vs' = vs ∧ bs' = bs := by
  have skipped := skipValue_spelled spells blanks.last
  rw [← List.map_append, ← same, List.map_append, skipValue_spelled other blanks'.last,
    Option.some.injEq] at skipped
  have left : bs' = bs := eq_of_symbols skipped
  subst left
  exact ⟨List.append_cancel_right same, rfl⟩

/-- The reader passes over an element up to the mark after it. -/
theorem Spells.passed (spells : Spells (.element d) cs) (marked : Marked fs) :
    (skipValue ((cs ++ fs).map some)).map skipBlanks = some (fs.map some) := by
  cases spells with
  | @element _ bs vs bs' before value after =>
      have skipped := skipValue_spelled value (after.ends marked.ends)
      have blanks : skipValue ((bs ++ (vs ++ bs') ++ fs).map some) =
          skipValue (vs.map some ++ (bs'.map some ++ fs.map some)) := by
        simp only [List.map_append, List.append_assoc]
        exact before.skip (advance_value_blank _ _)
      rw [blanks, skipped, Option.map_some, after.drop, marked.seen]

/-- Two elements that a row begins with, each before a mark, are the same characters. -/
theorem Spells.divided {es' fs' : List Char} (spells : Spells (.element d) es)
    (other : Spells (.element d') es') (marked : Marked fs) (marked' : Marked fs')
    (same : es' ++ fs' = es ++ fs) : es' = es ∧ fs' = fs := by
  have passed := spells.passed marked
  rw [← same, other.passed marked', Option.some.injEq] at passed
  have left : fs' = fs := eq_of_symbols passed
  subst left
  exact ⟨List.append_cancel_right same, rfl⟩

/-- Items that begin with an element before a mark have it as their first part. -/
theorem Spells.first_item (element : Spells (.element d) es) (marked : Marked fs)
    (items : Spells (.items ds) (es ++ fs)) : ∃ d' others, ds = d' :: others ∧
      Spells (.element d') es ∧ Tail (Spells (.items others)) (others = []) fs := by
  obtain ⟨d', others, es', fs', rfl, same, element', tail⟩ := items.of_items
  obtain ⟨rfl, rfl⟩ := element.divided element' marked tail.marked same.symm
  exact ⟨d', others, rfl, element', tail⟩

/-- A member is read as its name, and as what follows its colon. -/
theorem read_named {bs ns bs' : List Char} (before : Blanks bs) (quoted : Quoted name ns)
    (after : Blanks bs') (es fs : List Char) :
    ∃ rest, text? (skipBlanks ((bs ++ (ns ++ (bs' ++ ':' :: es)) ++ fs).map some)) =
        some (name, rest) ∧ skipBlanks rest = some ':' :: (es ++ fs).map some := by
  refine ⟨(bs' ++ ':' :: (es ++ fs)).map some, ?_, ?_⟩
  · have split : (bs ++ (ns ++ (bs' ++ ':' :: es)) ++ fs).map some =
        bs.map some ++ (ns.map some ++ (bs' ++ ':' :: (es ++ fs)).map some) := by
      simp only [List.map_append, List.append_assoc, List.map_cons, List.cons_append]
    have seen : skipBlanks (ns.map some ++ (bs' ++ ':' :: (es ++ fs)).map some) =
        ns.map some ++ (bs' ++ ':' :: (es ++ fs)).map some := by
      obtain ⟨more, rfl⟩ := quoted.begins
      exact skipBlanks_of_seen rfl
    rw [split, before.drop, seen]
    exact text?_quoted quoted
  · rw [List.map_append, after.drop]
    exact skipBlanks_of_seen rfl

/-- A member is read as its name, and the value is what follows the colon. -/
theorem Spells.of_member (spells : Spells (.member name d) cs) : ∃ es, Spells (.element d) es ∧
    ∀ fs, ∃ rest, text? (skipBlanks ((cs ++ fs).map some)) = some (name, rest) ∧
      skipBlanks rest = some ':' :: (es ++ fs).map some := by
  cases spells with
  | named before quoted after element =>
      exact ⟨_, element, read_named before quoted after _⟩

/-- What is read of a member determines its name and what follows its colon. -/
theorem name_of_read {input rest rest' : List Symbol}
    (read : text? input = some (name, rest) ∧ skipBlanks rest = some ':' :: cs.map some)
    (read' : text? input = some (name', rest') ∧ skipBlanks rest' = some ':' :: es.map some) :
    name' = name ∧ es = cs := by
  obtain ⟨rfl, rfl⟩ := Prod.mk.inj (Option.some.inj (read'.1.symm.trans read.1))
  refine ⟨rfl, ?_⟩
  have same := (List.cons.inj (read'.2.symm.trans read.2)).2
  exact eq_of_symbols same

/-- Two members that a row begins with have one name, and their elements divide it alike. -/
theorem Spells.divided_members {es' fs' : List Char} (spells : Spells (.member name d) es)
    (other : Spells (.member name' d') es') (marked : Marked fs) (marked' : Marked fs')
    (same : es' ++ fs' = es ++ fs) : name' = name ∧ es' = es ∧ fs' = fs := by
  obtain ⟨vs, element, reads⟩ := spells.of_member
  obtain ⟨vs', element', reads'⟩ := other.of_member
  obtain ⟨rest, read⟩ := reads fs
  obtain ⟨rest', read'⟩ := reads' fs'
  rw [same] at read'
  obtain ⟨rfl, values⟩ := name_of_read read read'
  obtain ⟨-, rfl⟩ := element.divided element' marked marked' values
  exact ⟨rfl, List.append_cancel_right same, rfl⟩

/-- Members that begin with a member before a mark have it as their first part. -/
theorem Spells.first_member (member : Spells (.member name d) es) (marked : Marked fs)
    (members : Spells (.members ms) (es ++ fs)) : ∃ name' d' others, ms = (name', d') :: others ∧
      Spells (.member name' d') es ∧ Tail (Spells (.members others)) (others = []) fs := by
  obtain ⟨name', d', others, es', fs', rfl, same, member', tail⟩ := members.of_members
  obtain ⟨-, rfl, rfl⟩ := member.divided_members member' marked tail.marked same.symm
  exact ⟨name', d', others, rfl, member', tail⟩

/-! ## Nothing else is spelled -/

/-- What stands in an array or an object is more than blanks. -/
theorem Spells.seen_items (spells : Spells (.items ds) cs) : ¬ Blanks cs := by
  obtain ⟨d, others, es, fs, -, rfl, element, -⟩ := spells.of_items
  obtain ⟨vs, bs, value, -, front⟩ := element.of_element
  obtain ⟨c, more, rfl, -⟩ := value.opens
  intro blanks
  have blank : Blanks es := fun c member => blanks c (List.mem_append_left _ member)
  have none : skipBlanks (es.map some ++ []) = [] := blank.drop
  rw [front] at none
  cases none

theorem Spells.seen_members (spells : Spells (.members ms) cs) : ¬ Blanks cs := by
  obtain ⟨ds, trimmed, drops⟩ := spells.trim
  intro blanks
  have none := drops []
  rw [blanks.drop] at none
  cases none

/-- A part spells nothing else of its kind. -/
def Alone : Part → List Char → Prop
  | .value d, cs => ∀ d', Spells (.value d') cs → d' = d
  | .element d, cs => ∀ d', Spells (.element d') cs → d' = d
  | .items ds, cs => ∀ ds', Spells (.items ds') cs → ds' = ds
  | .member name d, cs => ∀ name' d', Spells (.member name' d') cs → name' = name ∧ d' = d
  | .members ms, cs => ∀ ms', Spells (.members ms') cs → ms' = ms

/-- A row of characters spells one value at most, and one part of any other kind. -/
theorem Spells.alone {part : Part} (spells : Spells part cs) : Alone part cs := by
  induction spells with
  | nullWord =>
      exact fun d' other => Data.eq_of_shape (Spells.nullWord.same_shape other) (.inl rfl)
  | trueWord =>
      exact fun d' other => Data.eq_of_shape (Spells.trueWord.same_shape other) (.inr ⟨_, rfl⟩)
  | falseWord =>
      exact fun d' other => Data.eq_of_shape (Spells.falseWord.same_shape other) (.inr ⟨_, rfl⟩)
  | number number =>
      intro d' other
      have shape : d'.shape = .number := (Spells.number number).same_shape other
      cases d' with
      | number _ =>
          cases other
          rfl
      | _ => cases shape
  | @text s cs quoted =>
      intro d' other
      have shape : d'.shape = .text := (Spells.text quoted).same_shape other
      cases d' with
      | text _ =>
          cases other with
          | text quoted' =>
              have read : text? (cs.map some ++ []) = some (s, []) := text?_quoted quoted
              rw [text?_quoted quoted'] at read
              cases read
              rfl
      | _ => cases shape
  | noItems blanks =>
      intro d' other
      rcases other.bracketed with ⟨rfl, -⟩ | ⟨ds, -, items⟩
      · rfl
      · exact absurd blanks items.seen_items
  | array items ih =>
      intro d' other
      rcases other.bracketed with ⟨-, blanks⟩ | ⟨ds', rfl, items'⟩
      · exact absurd blanks items.seen_items
      · exact congrArg Data.array (ih ds' items')
  | noMembers blanks =>
      intro d' other
      rcases other.braced with ⟨rfl, -⟩ | ⟨ms, -, members⟩
      · rfl
      · exact absurd blanks members.seen_members
  | object members ih =>
      intro d' other
      rcases other.braced with ⟨-, blanks⟩ | ⟨ms', rfl, members'⟩
      · exact absurd blanks members.seen_members
      · exact congrArg Data.object (ih ms' members')
  | @element d bs cs bs' before value after ih =>
      intro d' other
      obtain ⟨vs, as, value', after', front'⟩ := other.of_element
      have front : skipBlanks ((bs ++ (cs ++ bs')).map some) = cs.map some ++ bs'.map some := by
        rw [List.map_append, List.map_append]
        exact skipBlanks_before before value
      have same := front' []
      rw [List.append_nil, front, List.append_nil, ← List.map_append, ← List.map_append] at same
      obtain ⟨inner, -⟩ := value.divided_values value' after after' (eq_of_symbols same.symm)
      exact ih d' (inner ▸ value')
  | @item d cs element ih =>
      intro ds' other
      rw [← List.append_nil cs] at other
      obtain ⟨d', others, rfl, element', tail⟩ := element.first_item marked_nil other
      cases tail with
      | none last => rw [last, ih d' element']
  | @items d ds cs gs element rest ih ih' =>
      intro ds' other
      obtain ⟨d', others, rfl, element', tail⟩ := element.first_item (marked_comma gs) other
      cases tail with
      | more rest' => rw [ih d' element', ih' others rest']
  | @named name d bs ns bs' cs before quoted after element ih =>
      intro name' d' other
      obtain ⟨es, element', reads'⟩ := other.of_member
      obtain ⟨rest, read⟩ := read_named before quoted after cs []
      obtain ⟨rest', read'⟩ := reads' []
      rw [List.append_nil] at read read'
      obtain ⟨rfl, values⟩ := name_of_read read read'
      rw [List.append_nil, List.append_nil] at values
      exact ⟨rfl, ih d' (values ▸ element')⟩
  | @member name d cs only ih =>
      intro ms' other
      rw [← List.append_nil cs] at other
      obtain ⟨name', d', others, rfl, only', tail⟩ := only.first_member marked_nil other
      obtain ⟨rfl, rfl⟩ := ih name' d' only'
      cases tail with
      | none last => rw [last]
  | @members name d ms cs gs first rest ih ih' =>
      intro ms' other
      obtain ⟨name', d', others, rfl, first', tail⟩ :=
        first.first_member (marked_comma gs) other
      obtain ⟨rfl, rfl⟩ := ih name' d' first'
      cases tail with
      | more rest' => rw [ih' others rest']

end CacheAside.Json
