import CacheAside.Proofs.Text.Encoding
import CacheAside.Text.Form

/-!
# What a query carries

`Form.StandsFor` says which bytes a row of characters stands for in a name or a value, and
`Form.Carries` which value is the first of a name in a query, rule by rule and without the decoder.
Names and values decode to what they mean (`Form.decode_eq_iff`), and the first pair of a name is
the one that the query carries (`Form.first?_eq_some_iff`), whatever stands literally and whatever
is escaped in it and around it.
-/

namespace CacheAside.Form

open Numeral (HexDigit hexDigit? hexDigit?_eq_some_iff lt_of_hexDigit?)

/-! ## The rules -/

/-- The bytes that a row of characters stands for. An escape takes both of its digits; a percent
sign without them stands for itself. -/
inductive StandsFor : List Char → List UInt8 → Prop
  | nil : StandsFor [] []
  | blank {cs : List Char} {bs : List UInt8} (rest : StandsFor cs bs) :
    StandsFor ('+' :: cs) (0x20 :: bs)
  | escape {high low : Nat} {h l : Char} {cs : List Char} {bs : List UInt8}
      (first : HexDigit high h) (second : HexDigit low l) (rest : StandsFor cs bs) :
    StandsFor ('%' :: h :: l :: cs) (UInt8.ofNat (16 * high + low) :: bs)
  | percent {cs : List Char} {bs : List UInt8} (bare : ∀ high low h l more, HexDigit high h →
      HexDigit low l → cs ≠ h :: l :: more) (rest : StandsFor cs bs) :
    StandsFor ('%' :: cs) (0x25 :: bs)
  | literal {c : Char} {cs : List Char} {bs : List UInt8} (sign : c ≠ '+') (mark : c ≠ '%')
      (rest : StandsFor cs bs) : StandsFor (c :: cs) (Utf8.encodeChar c ++ bs)

/-- What a name or value means as text. -/
def Means (cs : List Char) (text : String) : Prop :=
  ∃ bytes, StandsFor cs bytes ∧ Utf8.decodeLossy bytes = text

/-- The name and the value of a piece of a query. -/
inductive Pair : List Char → String → String → Prop
  | valued {ns vs : List Char} {name value : String} (only : '=' ∉ ns) (names : Means ns name)
      (values : Means vs value) : Pair (ns ++ '=' :: vs) name value
  | bare {ns : List Char} {name : String} (only : '=' ∉ ns) (names : Means ns name) :
    Pair ns name ""

/-- The value of the first pair of a name in a query. Empty pieces are no pairs. -/
inductive Carries (name value : String) : List Char → Prop
  | last {cs : List Char} (inside : '&' ∉ cs) (filled : cs ≠ []) (own : Pair cs name value) :
    Carries name value cs
  | here {cs : List Char} (inside : '&' ∉ cs) (filled : cs ≠ []) (own : Pair cs name value)
      (rest : List Char) : Carries name value (cs ++ '&' :: rest)
  | later {cs rest : List Char} (inside : '&' ∉ cs)
      (other : cs = [] ∨ ∀ value, ¬ Pair cs name value) (carries : Carries name value rest) :
    Carries name value (cs ++ '&' :: rest)

/-! ## Bytes -/

/-- The bytes of a name or value before escapes are replaced. -/
def written (cs : List Char) : List UInt8 :=
  Utf8.encode (cs.map fun c => if c = '+' then ' ' else c)

theorem written_plus (cs : List Char) : written ('+' :: cs) = 0x20 :: written cs := rfl

theorem written_cons {c : Char} (sign : c ≠ '+') (cs : List Char) :
    written (c :: cs) = Utf8.encodeChar c ++ written cs := by
  unfold written
  rw [List.map_cons, if_neg sign]
  rfl

theorem written_percent (cs : List Char) : written ('%' :: cs) = 0x25 :: written cs :=
  written_cons (by decide) cs

variable {cs : List Char} {bs rest : List UInt8} {b : UInt8} {c : Char} {n : Nat}

/-- A character whose bytes begin with a digit is that digit. -/
theorem digit_of_written (read : hexByte? b = some n) (begins : written cs = b :: rest) :
    ∃ c more, cs = c :: more ∧ HexDigit n c ∧ written more = rest := by
  have low : (Char.ofNat b.toNat).toNat < 0x67 := lt_of_hexDigit? read
  cases cs with
  | nil => cases begins
  | cons c more =>
      by_cases sign : c = '+'
      · subst sign
        rw [written_plus] at begins
        obtain ⟨rfl, -⟩ := List.cons.inj begins
        cases read
      · rw [written_cons sign] at begins
        refine ⟨c, more, rfl, ?_⟩
        by_cases ascii : c.toNat < 0x80
        · rw [Utf8.encodeChar_of_ascii ascii] at begins
          obtain ⟨rfl, same⟩ := List.cons.inj begins
          rw [hexByte?, Utf8.toNat_ofNat (by omega), Char.ofNat_toNat] at read
          exact ⟨hexDigit?_eq_some_iff.mp read, same⟩
        · -- Every byte of a wider character lies above the digits.
          obtain ⟨bytes, first⟩ : ∃ bytes, Utf8.encodeChar c = b :: bytes := by
            rcases List.append_eq_cons_iff.mp begins with ⟨none, -⟩ | ⟨bytes, first, -⟩
            · rw [Utf8.encodeChar_eq] at none
              exact absurd none String.utf8EncodeChar_ne_nil
            · exact ⟨bytes, first⟩
          have high := Utf8.le_of_mem_encodeChar ascii (first ▸ List.mem_cons_self)
          have valid : b.toNat.isValidChar := .inl (Nat.lt_trans b.toNat_lt (by decide))
          rw [Char.ofNat, dif_pos valid] at low
          exact absurd (Nat.lt_of_le_of_lt high low) (by decide)

/-- A digit is one byte, which is read as the digit. -/
theorem written_digit (digit : HexDigit n c) (cs : List Char) :
    written (c :: cs) = UInt8.ofNat c.toNat :: written cs ∧
      hexByte? (UInt8.ofNat c.toNat) = some n := by
  have read := digit.read
  have low := lt_of_hexDigit? read
  have sign : c ≠ '+' := by
    rintro rfl
    cases read
  rw [written_cons sign, Utf8.encodeChar_of_ascii (by omega), hexByte?,
    Utf8.toNat_ofNat (by omega), Char.ofNat_toNat]
  exact ⟨rfl, read⟩

/-! ## Escapes -/

/-- An escape is read as its byte. -/
theorem unescapeFrom_escape {h l : UInt8} {high low : Nat} (first : hexByte? h = some high)
    (second : hexByte? l = some low) (done : List UInt8) (rest : List UInt8) :
    unescapeFrom done (0x25 :: h :: l :: rest) =
      unescapeFrom (UInt8.ofNat (16 * high + low) :: done) rest := by
  rw [unescapeFrom, first, second]

theorem unescapeFrom_literal (mark : b ≠ 0x25) (done rest : List UInt8) :
    unescapeFrom done (b :: rest) = unescapeFrom (b :: done) rest := by
  rw [unescapeFrom]
  exact fun _ _ _ same _ => mark same

/-- A percent sign without two digits behind it stays. -/
theorem unescapeFrom_bare (bare : ∀ h l more high low, hexByte? h = some high →
    hexByte? l = some low → rest ≠ h :: l :: more) (done : List UInt8) :
    unescapeFrom done (0x25 :: rest) = unescapeFrom (0x25 :: done) rest := by
  rcases rest with _ | ⟨h, _ | ⟨l, more⟩⟩
  · rfl
  · rw [unescapeFrom]
    exact nofun
  · rw [unescapeFrom]
    split
    · next high low first second => exact absurd rfl (bare h l more high low first second)
    · rfl

theorem unescapeFrom_append (marks : ∀ b ∈ bs, b ≠ 0x25) (done rest : List UInt8) :
    unescapeFrom done (bs ++ rest) = unescapeFrom (bs.reverse ++ done) rest := by
  induction bs generalizing done with
  | nil => rfl
  | cons b bs ih =>
      rw [List.cons_append, unescapeFrom_literal (marks b List.mem_cons_self),
        ih fun b part => marks b (List.mem_cons_of_mem _ part), List.reverse_cons,
        List.append_assoc]
      rfl

theorem ne_of_mem_encodeChar (mark : c ≠ '%') (part : b ∈ Utf8.encodeChar c) : b ≠ 0x25 := by
  rintro rfl
  by_cases ascii : c.toNat < 0x80
  · rw [Utf8.encodeChar_of_ascii ascii] at part
    have same := congrArg UInt8.toNat (List.mem_singleton.mp part)
    rw [Utf8.toNat_ofNat (by omega)] at same
    exact mark (Char.toNat_inj.mp same.symm)
  · exact absurd (Utf8.le_of_mem_encodeChar ascii part) (by decide)

/-- What a row of characters stands for is what the decoder makes of its bytes. -/
theorem StandsFor.unescapeFrom (stands : StandsFor cs bs) (done : List UInt8) :
    Form.unescapeFrom done (written cs) = done.reverse ++ bs := by
  induction stands generalizing done with
  | nil => exact (List.append_nil _).symm
  | blank _ ih =>
      rw [written_plus, unescapeFrom_literal (by decide), ih, List.reverse_cons, List.append_assoc]
      rfl
  | @escape high low h l cs bs first second _ ih =>
      obtain ⟨here, read⟩ := written_digit first (l :: cs)
      obtain ⟨here', read'⟩ := written_digit second cs
      rw [written_percent, here, here', unescapeFrom_escape read read', ih, List.reverse_cons,
        List.append_assoc]
      rfl
  | @percent cs bs bare _ ih =>
      rw [written_percent, unescapeFrom_bare ?_, ih, List.reverse_cons, List.append_assoc]
      · rfl
      · intro h l more high low read read' begins
        obtain ⟨c, cs, rfl, first, begins⟩ := digit_of_written read begins
        obtain ⟨c', cs, rfl, second, -⟩ := digit_of_written read' begins
        exact bare high low c c' cs first second rfl
  | @literal c cs bs sign mark _ ih =>
      rw [written_cons sign, unescapeFrom_append fun b part => ne_of_mem_encodeChar mark part, ih,
        List.reverse_append, List.reverse_reverse, List.append_assoc]

/-- Every row of characters stands for something. -/
theorem exists_standsFor (cs : List Char) : ∃ bs, StandsFor cs bs := by
  match cs with
  | [] => exact ⟨[], .nil⟩
  | c :: cs =>
      obtain ⟨bs, rest⟩ := exists_standsFor cs
      by_cases sign : c = '+'
      · subst sign
        exact ⟨_, .blank rest⟩
      · by_cases mark : c = '%'
        · subst mark
          by_cases escape : ∃ high low h l more, HexDigit high h ∧ HexDigit low l ∧
              cs = h :: l :: more
          · obtain ⟨high, low, h, l, more, first, second, rfl⟩ := escape
            obtain ⟨bs, rest⟩ := exists_standsFor more
            exact ⟨_, .escape first second rest⟩
          · refine ⟨_, .percent ?_ rest⟩
            intro high low h l more first second begins
            exact escape ⟨high, low, h, l, more, first, second, begins⟩
        · exact ⟨_, .literal sign mark rest⟩
termination_by cs.length

/-- A name or value is decoded to what it means. -/
theorem decode_eq_iff {text : String} : decode cs = text ↔ Means cs text := by
  have meant : ∀ {text}, Means cs text → decode cs = text := by
    rintro text ⟨bytes, stands, rfl⟩
    exact congrArg Utf8.decodeLossy (stands.unescapeFrom [])
  constructor
  · rintro rfl
    obtain ⟨bytes, stands⟩ := exists_standsFor cs
    exact ⟨bytes, stands, (meant ⟨bytes, stands, rfl⟩).symm⟩
  · exact meant

/-! ## Pieces -/

variable {ns vs : List Char} {name value : String}

theorem pair_valued (only : '=' ∉ ns) (vs : List Char) :
    pair (ns ++ '=' :: vs) = (decode ns, decode vs) := by
  have inside : ∀ c ∈ ns, decide (c ≠ '=') = true := fun c part =>
    decide_eq_true fun same => only (same ▸ part)
  rw [pair, List.takeWhile_append_of_pos inside, List.dropWhile_append_of_pos inside]
  simp

theorem pair_bare (only : '=' ∉ ns) : pair ns = (decode ns, "") := by
  have inside : ∀ c ∈ ns, decide (c ≠ '=') = true := fun c part =>
    decide_eq_true fun same => only (same ▸ part)
  have taken : (ns ++ []).takeWhile (· ≠ '=') = ns ++ [] := List.takeWhile_append_of_pos inside
  have dropped : (ns ++ []).dropWhile (· ≠ '=') = [] := List.dropWhile_append_of_pos inside
  rw [List.append_nil] at taken dropped
  rw [pair, taken, dropped]
  rfl

/-- A piece is read as the pair that it is. -/
theorem pair_eq_iff : pair cs = (name, value) ↔ Pair cs name value := by
  constructor
  · intro read
    by_cases mark : '=' ∈ cs
    · obtain ⟨ns, vs, rfl, only⟩ := List.eq_append_cons_of_mem mark
      rw [pair_valued only, Prod.mk.injEq] at read
      exact .valued only (decode_eq_iff.mp read.1) (decode_eq_iff.mp read.2)
    · rw [pair_bare mark, Prod.mk.injEq] at read
      obtain ⟨names, rfl⟩ := read
      exact .bare mark (decode_eq_iff.mp names)
  · rintro (⟨only, names, values⟩ | ⟨only, names⟩)
    · rw [pair_valued only, decode_eq_iff.mpr names, decode_eq_iff.mpr values]
    · rw [pair_bare only, decode_eq_iff.mpr names]

/-- The pairs of a query are those in front of an ampersand and those behind it. -/
theorem pairs_append (cs rest : List Char) :
    pairs (String.ofList (cs ++ '&' :: rest)) =
      pairs (String.ofList cs) ++ pairs (String.ofList rest) := by
  simp only [pairs, String.toList_ofList]
  rw [List.splitOnP_append_cons cs rest rfl, List.filter_append, List.map_append]

/-- A piece without an ampersand is one pair. -/
theorem pairs_piece (inside : '&' ∉ cs) (filled : cs ≠ []) :
    pairs (String.ofList cs) = [pair cs] := by
  have apart : ∀ c ∈ cs, (c == '&') = false := fun c part =>
    beq_false_of_ne fun same => inside (same ▸ part)
  simp only [pairs, String.toList_ofList]
  rw [List.splitOnP_eq_singleton apart]
  cases cs with
  | nil => exact absurd rfl filled
  | cons c cs => rfl

/-- The value of one parameter makes no difference to the pairs around it. -/
theorem pairs_swap {before after : List Char} (first : before = [] ∨ ∃ bs, before = bs ++ ['&'])
    (named : ∀ c ∈ ns, c ≠ '=' ∧ c ≠ '&') (last : after = [] ∨ ∃ rest, after = '&' :: rest) :
    ∃ front back, ∀ vs, '&' ∉ vs → pairs (String.ofList (before ++ (ns ++ '=' :: (vs ++ after)))) =
      front ++ (decode ns, decode vs) :: back := by
  have unvalued : '=' ∉ ns := fun part => (named _ part).1 rfl
  have piece {vs : List Char} (inside : '&' ∉ vs) :
      pairs (String.ofList (ns ++ '=' :: vs)) = [(decode ns, decode vs)] := by
    have whole : '&' ∉ ns ++ '=' :: vs := by
      rw [List.mem_append, List.mem_cons]
      rintro (part | same | part)
      · exact (named _ part).2 rfl
      · cases same
      · exact inside part
    rw [pairs_piece whole (by simp), pair_valued unvalued]
  obtain ⟨back, behind⟩ : ∃ back, ∀ vs, '&' ∉ vs →
      pairs (String.ofList (ns ++ '=' :: (vs ++ after))) = (decode ns, decode vs) :: back := by
    rcases last with rfl | ⟨rest, rfl⟩
    · exact ⟨[], fun vs inside => by rw [List.append_nil, piece inside]⟩
    · refine ⟨pairs (String.ofList rest), fun vs inside => ?_⟩
      rw [← List.cons_append, ← List.append_assoc, pairs_append, piece inside]
      rfl
  rcases first with rfl | ⟨bs, rfl⟩
  · exact ⟨[], back, fun vs inside => behind vs inside⟩
  · refine ⟨pairs (String.ofList bs), back, fun vs inside => ?_⟩
    rw [List.append_assoc, List.singleton_append, pairs_append, behind vs inside]

/-- What one piece adds to the search for a name. -/
theorem lookup_piece (inside : '&' ∉ cs) (filled : cs ≠ []) :
    (pairs (String.ofList cs)).lookup name = some value ↔ Pair cs name value := by
  rw [pairs_piece inside filled, ← pair_eq_iff, List.lookup_cons, List.lookup_nil]
  rcases pair cs with ⟨own, held⟩
  by_cases same : name = own
  · subst same
    simp
  · rw [beq_false_of_ne same]
    exact ⟨nofun, fun equal => absurd (Prod.mk.inj equal).1.symm same⟩

/-- A piece has nothing under a name exactly if it is no pair of that name. -/
theorem lookup_other (inside : '&' ∉ cs) :
    (pairs (String.ofList cs)).lookup name = none ↔ cs = [] ∨ ∀ value, ¬ Pair cs name value := by
  by_cases filled : cs = []
  · subst filled
    exact ⟨fun _ => .inl rfl, fun _ => rfl⟩
  · rw [Option.eq_none_iff_forall_ne_some]
    simp only [filled, false_or, ne_eq, lookup_piece inside filled]

/-- The first pair of a name is the one that the query carries. -/
theorem lookup_eq_some_iff (cs : List Char) :
    (pairs (String.ofList cs)).lookup name = some value ↔ Carries name value cs := by
  constructor
  · intro found
    by_cases more : '&' ∈ cs
    · obtain ⟨piece, rest, rfl, inside⟩ := List.eq_append_cons_of_mem more
      rw [pairs_append, List.lookup_append, Option.or_eq_some_iff] at found
      rcases found with own | ⟨other, later⟩
      · have filled : piece ≠ [] := by
          rintro rfl
          cases own
        exact .here inside filled ((lookup_piece inside filled).mp own) rest
      · exact .later inside ((lookup_other inside).mp other) ((lookup_eq_some_iff rest).mp later)
    · have filled : cs ≠ [] := by
        rintro rfl
        cases found
      exact .last more filled ((lookup_piece more filled).mp found)
  · intro carries
    induction carries with
    | last inside filled own => exact (lookup_piece inside filled).mpr own
    | here inside filled own rest =>
        rw [pairs_append, List.lookup_append, (lookup_piece inside filled).mpr own]
        rfl
    | later inside other _ ih =>
        rw [pairs_append, List.lookup_append, (lookup_other inside).mpr other, ih]
        rfl
termination_by cs.length

/-- The first value of a name is the one that the query carries. -/
theorem first?_eq_some_iff {query : String} :
    first? name (pairs query) = some value ↔ Carries name value query.toList := by
  rw [← lookup_eq_some_iff, String.ofList_toList]
  rfl

end CacheAside.Form
