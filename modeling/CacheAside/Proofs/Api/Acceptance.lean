import CacheAside.Proofs.Api.Decoding
import CacheAside.Proofs.Json.Unambiguity

/-!
# Which bodies are accepted

What a JSON text means as the body of a write, said of the data that it spells: `WriteBody.Means`.
The decoder agrees with it on every spelling of every value (`WriteBody.decoded_iff_means`). Of an
object only the members named `key` and `value` count, and an array stands for the object that gives
its first element the one name and its second the other; nothing else means a write.
-/

namespace CacheAside

open Json

namespace WriteBody

variable {cs : List Char} {rest : List Symbol} {d : Data} {ms : List (String × Data)}
  {items keys values : List Data} {key : Key} {value : Option Value} {body : WriteBody}

/-! ## Meaning -/

/-- The key that is meant by the values given for it: the empty one if there are none. -/
inductive KeyOf : List Data → Key → Prop
  | missing : KeyOf [] ""
  | given (key : Key) : KeyOf [.text key] key

/-- The value that is meant by the values given for it: none if there are none. -/
inductive ValueOf : List Data → Option Value → Prop
  | missing : ValueOf [] none
  | null : ValueOf [.null] none
  | given (value : Value) : ValueOf [.text value] (some value)

/-- The write that a value means. An array gives the key first. -/
inductive Means : Data → WriteBody → Prop
  | object {ms : List (String × Data)} {key : Key} {value : Option Value}
      (keyed : KeyOf (named "key" ms) key) (valued : ValueOf (named "value" ms) value) :
    Means (.object ms) ⟨key, value⟩
  | array {items : List Data} {key : Key} {value : Option Value}
      (keyed : KeyOf (items.take 1) key) (valued : ValueOf (items.drop 1) value) :
    Means (.array items) ⟨key, value⟩

/-- An array of up to two elements means what the object means that names them. -/
theorem means_named (few : items.length ≤ 2) (body : WriteBody) :
    Means (.array items) body ↔ Means (.object (["key", "value"].zip items)) body := by
  have parts : named "key" (["key", "value"].zip items) = items.take 1 ∧
      named "value" (["key", "value"].zip items) = items.drop 1 := by
    match items, few with
    | [], _ | [_], _ | [_, _], _ => exact ⟨rfl, rfl⟩
  constructor
  · intro means
    cases means with
    | array keyed valued => exact .object (parts.1 ▸ keyed) (parts.2 ▸ valued)
  · intro means
    cases means with
    | object keyed valued => exact .array (parts.1 ▸ keyed) (parts.2 ▸ valued)

/-- A value that is valid is given at most once. -/
theorem ValueOf.length_le (valued : ValueOf values value) : values.length ≤ 1 := by
  cases valued <;> simp

/-- A longer array means nothing. -/
theorem not_means_of_long (long : 2 < items.length) (body : WriteBody) :
    ¬ Means (.array items) body := by
  intro means
  cases means with
  | array _ valued =>
      have few := valued.length_le
      rw [List.length_drop] at few
      omega

/-! ## What is decoded from the values given -/

/-- The body that the values given for the key and for the value are decoded to. -/
def assemble (keys values : List Data) : Option WriteBody :=
  (keys.foldlM takeKey none).bind fun key =>
    (values.foldlM takeValue none).map fun value => Found.body ⟨key, value⟩

theorem takeKey_twice (had : Key) (d : Data) : takeKey (some had) d = none := by
  cases d <;> rfl

theorem takeValue_twice (had : Option Value) (d : Data) : takeValue (some had) d = none := by
  cases d <;> rfl

theorem takeValue_some {had : Option (Option Value)} (taken : takeValue none d = some had) :
    ∃ value, had = some value := by
  cases d with
  | text | null =>
      cases taken
      exact ⟨_, rfl⟩
  | boolean | number | array | object => cases taken

/-- Of all keys in a row, the only one is taken, or the empty key. -/
theorem foldlM_takeKey : (keys.foldlM takeKey none).map (·.getD "") = some key ↔
    KeyOf keys key := by
  constructor
  · intro taken
    match keys with
    | [] =>
        cases taken
        exact .missing
    | [.text _] =>
        cases taken
        exact .given _
    | .text _ :: d :: _ =>
        rw [List.foldlM_cons, takeKey, Option.bind_eq_bind] at taken
        simp [takeKey_twice] at taken
    | .null :: _ | .boolean _ :: _ | .number _ :: _ | .array _ :: _ | .object _ :: _ => cases taken
  · intro keyed
    cases keyed <;> rfl

theorem foldlM_takeValue : (values.foldlM takeValue none).map Option.join = some value ↔
    ValueOf values value := by
  constructor
  · intro taken
    match values with
    | [] =>
        cases taken
        exact .missing
    | [.null] =>
        cases taken
        exact .null
    | [.text _] =>
        cases taken
        exact .given _
    | .null :: d :: _ | .text _ :: d :: _ =>
        rw [List.foldlM_cons, takeValue, Option.bind_eq_bind] at taken
        simp [takeValue_twice] at taken
    | .boolean _ :: _ | .number _ :: _ | .array _ :: _ | .object _ :: _ => cases taken
  · intro valued
    cases valued <;> rfl

/-- A write is put together from one key and one value at most. -/
theorem assemble_eq_some_iff :
    assemble keys values = some body ↔ KeyOf keys body.key ∧ ValueOf values body.value := by
  rw [← foldlM_takeKey, ← foldlM_takeValue, assemble]
  obtain ⟨key, value⟩ := body
  cases keys.foldlM takeKey none <;> cases values.foldlM takeValue none <;>
    simp [Found.body]

theorem assemble_text (key : Key) (d : Data) (others : List Data) :
    assemble [.text key] (d :: others) = (takeValue none d).bind fun had =>
      (others.foldlM takeValue had).map fun value => ⟨key, value.join⟩ := by
  have keyed : [Data.text key].foldlM takeKey none = some (some key) := rfl
  rw [assemble, keyed, Option.bind_some, List.foldlM_cons]
  cases takeValue none d <;> rfl

/-! ## Arrays -/

/-- No value begins with the mark that closes an array. -/
theorem unclosed (spells : Spells (.value d) cs) (rest more : List Symbol) :
    cs.map some ++ rest ≠ some ']' :: more := by
  obtain ⟨c, ds, rfl, -, -⟩ := spells.begins
  intro closes
  have skipped : skipValue (some c :: (ds.map some ++ [])) = some [] :=
    skipValue_spelled spells nofun
  rw [List.map_cons, List.cons_append, List.cons.injEq] at closes
  rw [closes.1] at skipped
  cases skipped

/-- What follows the first of the elements in an array: the closing mark, or the others. -/
inductive Others : List Data → List Symbol → List Symbol → Prop
  | none {rest : List Symbol} : Others [] (some ']' :: rest) rest
  | more {items : List Data} {cs : List Char} {rest : List Symbol}
      (inner : Spells (.items items) cs) :
    Others items (some ',' :: (cs.map some ++ some ']' :: rest)) rest

/-- The elements in an array begin with a value, whose text ends before blanks. -/
theorem first_item (spells : Spells (.items items) cs) (rest : List Symbol) :
    ∃ d others vs tail, items = d :: others ∧ Spells (.value d) vs ∧
      skipBlanks (cs.map some ++ some ']' :: rest) = vs.map some ++ tail ∧
      Others others (skipBlanks tail) rest := by
  obtain ⟨d, others, es, fs, rfl, rfl, element, more⟩ := spells.of_items
  obtain ⟨vs, bs, value, after, drops⟩ := element.of_element
  refine ⟨d, others, vs, bs.map some ++ (fs.map some ++ some ']' :: rest), rfl, value, ?_, ?_⟩
  · rw [List.map_append, List.append_assoc]
    exact drops _
  · rw [after.drop]
    cases more with
    | none last =>
        subst last
        exact .none
    | more items => exact .more items

theorem value?_spelled (spells : Spells (.value d) cs) : value? (cs.map some ++ rest) =
    (takeValue none d).map fun value => (value.join, rest) := by
  cases d with
  | text s =>
      cases spells with
      | text quoted => exact value?_text quoted
  | null =>
      cases spells
      rfl
  | boolean | number | array | object => exact value?_other spells nofun nofun

/-- After the key and its comma, an array is decoded if it holds one more element. -/
theorem value?_items (inner : Spells (.items items) cs) (rest : List Symbol) (key : Key) :
    (match value? (skipBlanks (cs.map some ++ some ']' :: rest)) with
      | none => none
      | some (value, rest) =>
        match skipBlanks rest with
        | some ']' :: rest => some (WriteBody.mk key value, rest)
        | _ => none) = (assemble [.text key] items).map (·, rest) := by
  obtain ⟨d, others, vs, tail, rfl, second, front, left⟩ := first_item inner rest
  rw [front, value?_spelled second, assemble_text]
  cases taken : takeValue none d with
  | none => rfl
  | some had =>
      obtain ⟨value, rfl⟩ := takeValue_some taken
      dsimp only [Option.map_some, Option.bind_some]
      generalize skipBlanks tail = after at left
      cases left with
      | none => rfl
      | more inner =>
          obtain ⟨d', others', -, -, rfl, -⟩ := first_item inner rest
          rw [List.foldlM_cons, takeValue_twice]
          rfl

/-- An array is decoded by its elements, and what follows it is left. -/
theorem array?_spelled (spells : Spells (.value (.array items)) cs) (rest : List Symbol) :
    ∃ ds, cs = '[' :: ds ∧ array? (ds.map some ++ rest) =
      (assemble (items.take 1) (items.drop 1)).map (·, rest) := by
  rcases spells.of_array with ⟨rfl, bs, blanks, rfl⟩ | ⟨es, inner, rfl⟩
  · refine ⟨_, rfl, ?_⟩
    have closes : skipBlanks ((bs ++ [']']).map some ++ rest) = some ']' :: rest := by
      rw [List.map_append, List.append_assoc, blanks.drop]
      exact skipBlanks_of_seen rfl
    rw [array?, closes]
    rfl
  · refine ⟨_, rfl, ?_⟩
    obtain ⟨d, others, vs, tail, rfl, first, front, left⟩ := first_item inner rest
    have begins : skipBlanks ((es ++ [']']).map some ++ rest) = vs.map some ++ tail := by
      rw [List.map_append, List.append_assoc]
      exact front
    unfold array?
    rw [begins]
    split
    · next closes => exact absurd closes (unclosed first _ _)
    · cases d with
      | text key =>
          cases first with
          | text quoted =>
              rw [text?_quoted quoted]
              dsimp only
              generalize skipBlanks tail = after at left
              cases left with
              | none => rfl
              | more inner => exact value?_items inner rest key
      | null | boolean | number | array | object =>
          rw [text?_other first nofun]
          rfl

/-! ## Every value -/

/-- What a value is decoded to. -/
def decoded : Data → Option WriteBody
  | .object ms => assemble (named "key" ms) (named "value" ms)
  | .array items => assemble (items.take 1) (items.drop 1)
  | _ => none

/-- Data is decoded as what it means. -/
theorem decoded_eq_some_iff : decoded d = some body ↔ Means d body := by
  obtain ⟨key, value⟩ := body
  constructor
  · intro found
    cases d with
    | object ms =>
        obtain ⟨keyed, valued⟩ := assemble_eq_some_iff.mp found
        exact .object keyed valued
    | array items =>
        obtain ⟨keyed, valued⟩ := assemble_eq_some_iff.mp found
        exact .array keyed valued
    | null | boolean | number | text => cases found
  · intro means
    cases means with
    | object keyed valued => exact assemble_eq_some_iff.mpr ⟨keyed, valued⟩
    | array keyed valued => exact assemble_eq_some_iff.mpr ⟨keyed, valued⟩

/-- Whatever is spelled is decoded by what it is, whether or not it has to be all of the text. -/
theorem decode_spelled (spells : Spells (.element d) cs) :
    ofFirst? (cs.map some) = decoded d ∧ ofWhole? (cs.map some) = decoded d := by
  by_cases object : ∃ ms, d = .object ms
  · obtain ⟨ms, rfl⟩ := object
    have body : (ms.foldlM Found.take {}).map Found.body = decoded (.object ms) := by
      rw [foldlM_take, Option.map_bind]
      exact congrArg _ (funext fun key => Option.map_map ..)
    rw [← body]
    exact decode_object spells
  · obtain ⟨vs, bs, value, after, drops⟩ := spells.of_element
    have front := drops []
    rw [List.append_nil, List.append_nil] at front
    refine decode_of_read after ?_
    rw [read?, front]
    by_cases array : ∃ items, d = .array items
    · obtain ⟨items, rfl⟩ := array
      obtain ⟨ds, rfl, read⟩ := array?_spelled value (bs.map some)
      exact read
    · have other : decoded d = none := by
        cases d with
        | object ms => exact absurd ⟨ms, rfl⟩ object
        | array items => exact absurd ⟨items, rfl⟩ array
        | null | boolean | number | text => rfl
      obtain ⟨c, more, rfl, -, shape⟩ := value.opens
      rw [other, List.map_cons, List.cons_append]
      split
      · next opens =>
          cases opens
          cases d <;> cases shape
          exact absurd ⟨_, rfl⟩ object
      · next opens =>
          cases opens
          cases d <;> cases shape
          exact absurd ⟨_, rfl⟩ array
      · rfl

/-- A JSON text, in any of the spellings of the data `d`, is decoded as `d` means, and is refused if
`d` means nothing, whether or not the body has to be all of the text. In particular an array of at
most two elements is decoded as the object that names them is, and a longer one is refused. -/
theorem decoded_iff_means (spells : Spells (.element d) cs) :
    let received (cs : List Char) := Utf8.scan (Utf8.encode cs)
    (∀ body, (ofWhole? (received cs) = some body ↔ Means d body) ∧
      (ofFirst? (received cs) = some body ↔ Means d body)) ∧
    ∀ items, d = .array items →
      (items.length ≤ 2 → ∀ es, Spells (.element (.object (["key", "value"].zip items))) es →
        ofWhole? (received cs) = ofWhole? (received es) ∧
          ofFirst? (received cs) = ofFirst? (received es)) ∧
      (2 < items.length → ofWhole? (received cs) = none ∧ ofFirst? (received cs) = none) := by
  intro received
  have settled : ∀ {d cs}, Spells (.element d) cs →
      ofWhole? (received cs) = decoded d ∧ ofFirst? (received cs) = decoded d := by
    intro d cs spells
    dsimp only [received]
    rw [Utf8.scan_encode]
    exact (decode_spelled spells).symm
  obtain ⟨whole, first⟩ := settled spells
  rw [whole, first]
  refine ⟨fun body => ⟨decoded_eq_some_iff, decoded_eq_some_iff⟩, ?_⟩
  rintro items rfl
  constructor
  · intro few es others
    obtain ⟨whole', first'⟩ := settled others
    have same : decoded (.array items) = decoded (.object (["key", "value"].zip items)) := by
      refine Option.ext fun body => ?_
      rw [decoded_eq_some_iff, decoded_eq_some_iff]
      exact means_named few body
    rw [whole', first', same, and_self_iff]
  · intro long
    have refused : decoded (.array items) = none := by
      rw [Option.eq_none_iff_forall_ne_some]
      exact fun body found => not_means_of_long long body (decoded_eq_some_iff.mp found)
    exact ⟨refused, refused⟩

/-- An escape in a name, blanks and a member to be skipped make no difference. -/
theorem decoded_iff_means_escaped :
    let d : Data := .object [("key", .text "k"), ("x", .array [.object []])]
    let cs := ['{', '"', '\\', 'u', '0', '0', '6', 'b', 'e', 'y', '"', ' ', ':', '\n', '"', 'k',
      '"', ',', '"', 'x', '"', ':', '[', '{', ' ', '}', ']', '}']
    Spells (.element d) cs ∧ Means d ⟨"k", none⟩ ∧
      ofWhole? (Utf8.scan (Utf8.encode cs)) = some ⟨"k", none⟩ := by
  intro d cs
  have letter : ∀ c ∈ ['k', 'e', 'y', 'x'], SpellsChar c [c] := by
    intro c member
    simp only [List.mem_cons, List.not_mem_nil, or_false] at member
    rcases member with rfl | rfl | rfl | rfl <;>
      exact .plain (by decide) (by decide) (by decide)
  have digits : Quad 'k'.toNat ['0', '0', '6', 'b'] :=
    .intro ⟨by decide, .inl rfl⟩ ⟨by decide, .inl rfl⟩ ⟨by decide, .inl rfl⟩ ⟨by decide, .inl rfl⟩
  have key : Quoted "key" ['"', '\\', 'u', '0', '0', '6', 'b', 'e', 'y', '"'] :=
    @Quoted.intro "key" _ (.cons (.unit (by decide) digits)
      (.cons (letter 'e' (by decide)) (.cons (letter 'y' (by decide)) .nil)))
  have k : Quoted "k" ['"', 'k', '"'] :=
    @Quoted.intro "k" _ (.cons (letter 'k' (by decide)) .nil)
  have x : Quoted "x" ['"', 'x', '"'] :=
    @Quoted.intro "x" _ (.cons (letter 'x' (by decide)) .nil)
  have line : Blanks ['\n'] := by simp [Blanks]
  have space : Blanks [' '] := by simp [Blanks]
  have keyed : Spells (.member "key" (.text "k"))
      ([] ++ (_ ++ ([' '] ++ ':' :: (['\n'] ++ (_ ++ []))))) :=
    .named nofun key space (.element line (.text k) nofun)
  have other : Spells (.member "x" (.array [.object []])) ([] ++ (_ ++ ([] ++ ':' :: _))) :=
    .named nofun x nofun (Spells.array (.item (Spells.noMembers space).bare)).bare
  have spells : Spells (.element d) cs := (Spells.object (.members keyed (.member other))).bare
  have means : Means d ⟨"k", none⟩ := .object (.given "k") .missing
  exact ⟨spells, means, ((decoded_iff_means spells).1 ⟨"k", none⟩).1.mpr means⟩

end WriteBody

end CacheAside
