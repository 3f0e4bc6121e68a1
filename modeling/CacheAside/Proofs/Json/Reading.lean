import CacheAside.Json.Reader
import CacheAside.Proofs.Json.Grammar

/-!
# Reading what the grammar allows

The parts of the reader meet rows of characters that spell something. A text is read as what it
spells, and everything else is skipped from its first character to its last: `Json.text?_quoted` and
`Json.skipValue_spelled`. Both leave alone what follows. A number ends where the next character does
not continue it, so what follows a value has to be a blank, a comma or a closing mark, or nothing:
`Json.Ends`. What a value is shows in its first character: `Json.Spells.begins`.
-/

namespace CacheAside.Json

open Numeral (HexDigit)

variable {c : Char} {cs ds : List Char} {n : Nat} {done : List Char} {isName closable : Bool}
  {frames : List Frame} {rest : List Symbol} {s : String}

/-! ## Hexadecimal digits -/

/-- Four digits are read as the number that they spell. -/
theorem Quad.read (quad : Quad n ds) : ∃ a b c d, ds = [a, b, c, d] ∧
    unit? (some a) (some b) (some c) (some d) = some n := by
  cases quad with
  | @intro a b c d ha hb hc hd =>
      refine ⟨a, b, c, d, rfl, ?_⟩
      have first : n / 0x1000 < 16 := ha.1
      have whole : ((n / 0x1000 * 16 + n / 0x100 % 16) * 16 + n / 0x10 % 16) * 16 + n % 16 = n := by
        omega
      simp only [unit?, Option.bind_eq_bind, Option.bind_some, ha.read, hb.read, hc.read, hd.read,
        whole, Option.pure_def]

/-! ## Texts -/

/-- A short escape is read as its character. -/
theorem unescape?_of_mem {e : Char} (known : (e, c) ∈ shortEscapes) :
    unescape? e = some c ∧ e ≠ 'u' := by
  have each : ∀ p ∈ shortEscapes, unescape? p.1 = some p.2 ∧ p.1 ≠ 'u' := by decide
  exact each _ known

/-- The number of a character is no half of a pair. -/
theorem ofUnit?_char (c : Char) : Spelled.ofUnit? none c.toNat = some (.char c) := by
  have valid := (Utf8.toNat_bounds c).2
  have noHigh : ¬ (0xD800 ≤ c.toNat ∧ c.toNat < 0xDC00) := by omega
  have noLow : ¬ (0xDC00 ≤ c.toNat ∧ c.toNat < 0xE000) := by omega
  simp only [Spelled.ofUnit?, if_neg noHigh, if_neg noLow, Char.ofNat_toNat]

/-- The two halves of a large number are read as its character. -/
theorem ofUnit?_pair (large : 0x10000 ≤ c.toNat) :
    let high := 0xD800 + (c.toNat - 0x10000) / 0x400
    let low := 0xDC00 + (c.toNat - 0x10000) % 0x400
    Spelled.ofUnit? none high = some (.half high) ∧
      Spelled.ofUnit? (some high) low = some (.char c) := by
  intro high low
  have bound := (Utf8.toNat_bounds c).1
  have isHigh : 0xD800 ≤ high ∧ high < 0xDC00 := by omega
  have isLow : 0xDC00 ≤ low ∧ low < 0xE000 := by omega
  have both : 0x10000 + (high - 0xD800) * 0x400 + (low - 0xDC00) = c.toNat := by omega
  simp only [Spelled.ofUnit?, if_pos isHigh, if_pos isLow, both, Char.ofNat_toNat]
  exact ⟨trivial, trivial⟩

/-- A spelled character is read, and the reader goes on with what follows it. -/
theorem SpellsChar.read (spelled : SpellsChar c ds) :
    textFrom done none (ds.map some ++ rest) = textFrom (c :: done) none rest := by
  cases spelled with
  | plain seen unquoted unescaped =>
      have stays : ¬ (Option.isSome (none : Option Nat) || decide (c = '\\') ||
          decide (c.toNat < 0x20)) = true := by
        simp [unescaped, Nat.not_lt.mpr seen]
      rw [List.map_cons, List.map_nil, List.cons_append, List.nil_append, textFrom.eq_4,
        if_neg stays, if_neg unquoted]
      · exact fun _ _ _ _ _ _ same => unescaped same
      · exact fun _ _ _ same => unescaped same
  | @short e known =>
      obtain ⟨meant, other⟩ := unescape?_of_mem known
      exact textFrom.eq_2 done e rest c (fun _ _ _ _ _ _ same => other same) meant
  | unit small digits =>
      obtain ⟨x, y, z, w, rfl, number⟩ := digits.read
      refine (textFrom.eq_1 done none (some x) (some y) (some z) (some w) rest).trans ?_
      rw [number, Option.bind_some, ofUnit?_char]
  | pair large high low =>
      obtain ⟨x, y, z, w, rfl, first⟩ := high.read
      obtain ⟨x', y', z', w', rfl, second⟩ := low.read
      obtain ⟨half, whole⟩ := ofUnit?_pair large
      refine (textFrom.eq_1 done none (some x) (some y) (some z) (some w) _).trans ?_
      rw [first, Option.bind_some, half]
      refine (textFrom.eq_1 done _ (some x') (some y') (some z') (some w') rest).trans ?_
      rw [second, Option.bind_some, whole]

/-- A spelled text is read up to its closing mark. -/
theorem SpellsChars.read (spelled : SpellsChars cs ds) (done : List Char) (rest : List Symbol) :
    textFrom done none (ds.map some ++ some '"' :: rest) =
      some (String.ofList (done.reverse ++ cs), rest) := by
  induction spelled generalizing done with
  | nil =>
      have ends := textFrom.eq_4 done none '"' rest (by simp) (by simp)
      rw [List.append_nil]
      exact ends
  | @cons c cs ds es first _ ih =>
      rw [List.map_append, List.append_assoc, first.read, ih, List.reverse_cons, List.append_assoc]
      rfl

/-- A quoted text is read as the text. -/
theorem text?_quoted (quoted : Quoted s ds) : text? (ds.map some ++ rest) = some (s, rest) := by
  cases quoted with
  | @intro cs spelled =>
      have inner := spelled.read [] rest
      rw [List.reverse_nil, List.nil_append, String.ofList_toList] at inner
      rw [List.map_cons, List.map_append, List.cons_append, List.append_assoc]
      exact inner

/-! ## Skipping texts -/

theorem skipFrom_on {spot spot' : Spot} {frames' : List Frame} {symbol : Symbol}
    (moves : advance spot frames symbol = .on spot' frames') :
    skipFrom spot frames (symbol :: rest) = skipFrom spot' frames' rest := by
  rw [skipFrom, moves]

theorem advance_hex (digit : HexDigit n c) (missing : Nat) :
    advance (.hex isName (missing + 2)) frames (some c) = .on (.hex isName (missing + 1)) frames ∧
      advance (.hex isName 1) frames (some c) = .on (.quoted isName) frames := by
  simp [advance, digit.read]

/-- Four digits lead back into the text. -/
theorem Quad.skip (quad : Quad n ds) :
    skipFrom (.hex isName 4) frames (ds.map some ++ rest) =
      skipFrom (.quoted isName) frames rest := by
  cases quad with
  | intro ha hb hc hd =>
      simp only [List.map_cons, List.map_nil, List.cons_append, List.nil_append]
      rw [skipFrom_on (advance_hex ha 2).1, skipFrom_on (advance_hex hb 1).1,
        skipFrom_on (advance_hex hc 0).1, skipFrom_on (advance_hex hd 0).2]

/-- A spelled character leads back into the text. -/
theorem SpellsChar.skip (spelled : SpellsChar c ds) :
    skipFrom (.quoted isName) frames (ds.map some ++ rest) =
      skipFrom (.quoted isName) frames rest := by
  have escapes : advance (.quoted isName) frames (some '\\') = .on (.escaped isName) frames := rfl
  have numbers : advance (.escaped isName) frames (some 'u') = .on (.hex isName 4) frames := rfl
  cases spelled with
  | plain seen unquoted unescaped =>
      refine skipFrom_on ?_
      simp [advance, unquoted, unescaped, Nat.not_lt.mpr seen]
  | @short e known =>
      obtain ⟨meant, other⟩ := unescape?_of_mem known
      have stands : advance (.escaped isName) frames (some e) = .on (.quoted isName) frames := by
        simp [advance, meant, other]
      exact (skipFrom_on escapes).trans (skipFrom_on stands)
  | unit small digits =>
      exact (skipFrom_on escapes).trans ((skipFrom_on numbers).trans digits.skip)
  | pair large high low =>
      rw [List.map_cons, List.map_cons, List.map_append, List.cons_append, List.cons_append,
        List.append_assoc, skipFrom_on escapes, skipFrom_on numbers, high.skip]
      exact (skipFrom_on escapes).trans ((skipFrom_on numbers).trans low.skip)

theorem SpellsChars.skip (spelled : SpellsChars cs ds) :
    skipFrom (.quoted isName) frames (ds.map some ++ rest) =
      skipFrom (.quoted isName) frames rest := by
  induction spelled with
  | nil => rfl
  | cons first _ ih => rw [List.map_append, List.append_assoc, first.skip, ih]

/-- A quoted text is skipped as a value. -/
theorem Quoted.skip_value (quoted : Quoted s ds) :
    skipFrom (.value closable) frames (ds.map some ++ rest) = skipFrom .after frames rest := by
  cases quoted with
  | intro spelled =>
      have opens : advance (.value closable) frames (some '"') = .on (.quoted false) frames := rfl
      rw [List.map_cons, List.map_append, List.cons_append, List.append_assoc, skipFrom_on opens,
        spelled.skip]
      exact skipFrom_on rfl

/-- A quoted text is skipped as a name. -/
theorem Quoted.skip_name (quoted : Quoted s ds) :
    skipFrom (.name closable) frames (ds.map some ++ rest) = skipFrom .colon frames rest := by
  cases quoted with
  | intro spelled =>
      have opens : advance (.name closable) frames (some '"') = .on (.quoted true) frames := rfl
      rw [List.map_cons, List.map_append, List.cons_append, List.append_assoc, skipFrom_on opens,
        spelled.skip]
      exact skipFrom_on rfl

/-! ## Skipping blanks -/

theorem Blanks.isBlank (blanks : Blanks cs) (member : c ∈ cs) : isBlank (some c) = true := by
  have known := blanks c member
  simp only [List.mem_cons, List.not_mem_nil, or_false] at known
  rcases known with rfl | rfl | rfl | rfl <;> rfl

/-- Blanks are skipped where they do not matter. -/
theorem Blanks.skip {spot : Spot} (blanks : Blanks cs)
    (stays : ∀ symbol, Json.isBlank symbol = true → advance spot frames symbol = .on spot frames) :
    skipFrom spot frames (cs.map some ++ rest) = skipFrom spot frames rest := by
  induction cs with
  | nil => rfl
  | cons c cs ih =>
      have later : Blanks cs := fun d member => blanks d (List.mem_cons_of_mem _ member)
      have here := blanks.isBlank List.mem_cons_self
      rw [List.map_cons, List.cons_append, skipFrom_on (stays _ here), ih later]

theorem advance_value_blank (closable : Bool) (frames : List Frame) (symbol : Symbol)
    (blank : isBlank symbol = true) :
    advance (.value closable) frames symbol = .on (.value closable) frames := if_pos blank

theorem advance_name_blank (closable : Bool) (frames : List Frame) (symbol : Symbol)
    (blank : isBlank symbol = true) :
    advance (.name closable) frames symbol = .on (.name closable) frames := if_pos blank

theorem advance_colon_blank (frames : List Frame) (symbol : Symbol)
    (blank : isBlank symbol = true) : advance .colon frames symbol = .on .colon frames :=
  if_pos blank

theorem advance_after_blank (frame : Frame) (frames : List Frame) (symbol : Symbol)
    (blank : isBlank symbol = true) :
    advance .after (frame :: frames) symbol = .on .after (frame :: frames) := if_pos blank

/-! ## Skipping numbers -/

/-- The characters lead from one place in a number to another. -/
def Leads (place : Digits) (cs : List Char) (place' : Digits) : Prop :=
  cs.foldlM Digits.next? place = some place'

theorem Leads.cons {place place' place'' : Digits} (first : place.next? c = some place')
    (rest : Leads place' cs place'') : Leads place (c :: cs) place'' := by
  rw [Leads, List.foldlM_cons, first]
  exact rest

theorem Leads.append {place place' place'' : Digits} (first : Leads place cs place')
    (rest : Leads place' ds place'') : Leads place (cs ++ ds) place'' := by
  have first : cs.foldlM Digits.next? place = some place' := first
  rw [Leads, List.foldlM_append, first]
  exact rest

/-- A number is skipped along the places that its characters lead through. -/
theorem Leads.skip {place place' : Digits} (leads : Leads place cs place') :
    skipFrom (.number place) frames (cs.map some ++ rest) =
      skipFrom (.number place') frames rest := by
  induction cs generalizing place with
  | nil =>
      cases leads
      rfl
  | cons c cs ih =>
      rw [Leads, List.foldlM_cons] at leads
      cases next : place.next? c with
      | none =>
          rw [next] at leads
          cases leads
      | some place'' =>
          rw [next] at leads
          have moves : advance (.number place) frames (some c) = .on (.number place'') frames := by
            simp only [advance, Option.bind_some, next]
          rw [List.map_cons, List.cons_append, skipFrom_on moves]
          exact ih leads

/-- Digits lead on where they lead, and stay there. -/
theorem leads_digits {place : Digits} (stays : ∀ c, c.isDigit → place.next? c = some place)
    (digits : ∀ d ∈ cs, d.isDigit) : Leads place cs place := by
  induction cs with
  | nil => rfl
  | cons c cs ih =>
      exact .cons (stays c (digits c List.mem_cons_self))
        (ih fun d member => digits d (List.mem_cons_of_mem _ member))

theorem Digits1.leads {place place' : Digits} (digits : Digits1 cs)
    (enters : ∀ c, c.isDigit → place.next? c = some place')
    (stays : ∀ c, c.isDigit → place'.next? c = some place') : Leads place cs place' := by
  obtain ⟨some, each⟩ := digits
  obtain ⟨c, cs, rfl⟩ := List.exists_cons_of_ne_nil some
  exact .cons (enters c (each c List.mem_cons_self))
    (leads_digits stays fun d member => each d (List.mem_cons_of_mem _ member))

theorem next?_whole (digit : c.isDigit) : Digits.whole.next? c = some .whole := if_pos digit

theorem next?_fraction (digit : c.isDigit) : Digits.fraction.next? c = some .fraction :=
  if_pos digit

theorem next?_point (digit : c.isDigit) : Digits.point.next? c = some .fraction := if_pos digit

theorem next?_sign (digit : c.isDigit) : Digits.sign.next? c = some .power := if_pos digit

theorem next?_power (digit : c.isDigit) : Digits.power.next? c = some .power := if_pos digit

theorem next?_exponent (digit : c.isDigit) : Digits.exponent.next? c = some .power := by
  have unsigned : ¬ (c = '+' ∨ c = '-') := by
    rintro (rfl | rfl) <;> cases digit
  exact (if_neg unsigned).trans (if_pos digit)

/-- The whole part leads to a place where a number may end. -/
theorem Whole.leads (whole : Whole cs) :
    ∃ place, Leads .minus cs place ∧ (place = .zero ∨ place = .whole) := by
  cases whole with
  | zero => exact ⟨.zero, rfl, .inl rfl⟩
  | leading digit nonzero digits =>
      have first : Digits.minus.next? _ = some .whole := (if_neg nonzero).trans (if_pos digit)
      exact ⟨.whole, .cons first (leads_digits (fun _ => next?_whole) digits), .inr rfl⟩

/-- With a fraction, or without, the number may end. -/
theorem Fraction.leads (fraction : Fraction cs) {place : Digits}
    (before : place = .zero ∨ place = .whole) :
    ∃ place', Leads place cs place' ∧ (place' = .zero ∨ place' = .whole ∨ place' = .fraction) := by
  cases fraction with
  | absent => exact ⟨place, rfl, before.elim .inl (.inr ∘ .inl)⟩
  | present digits =>
      have first : place.next? '.' = some .point := by rcases before with rfl | rfl <;> rfl
      exact ⟨.fraction, .cons first
        (digits.leads (fun _ => next?_point) fun _ => next?_fraction), .inr (.inr rfl)⟩

/-- With an exponent, or without, the number is complete. -/
theorem Exponent.leads (exponent : Exponent cs) {place : Digits}
    (before : place = .zero ∨ place = .whole ∨ place = .fraction) :
    ∃ place', Leads place cs place' ∧ place'.complete = true := by
  cases exponent with
  | absent => exact ⟨place, rfl, by rcases before with rfl | rfl | rfl <;> rfl⟩
  | @present e sign ds mark signed digits =>
      have first : place.next? e = some .exponent := by
        simp only [List.mem_cons, List.not_mem_nil, or_false] at mark
        rcases before with rfl | rfl | rfl <;> rcases mark with rfl | rfl <;> rfl
      refine ⟨.power, .cons first ?_, rfl⟩
      simp only [List.mem_cons, List.not_mem_nil, or_false] at signed
      rcases signed with rfl | rfl | rfl
      · exact digits.leads (fun _ => next?_exponent) fun _ => next?_power
      · exact .cons rfl (digits.leads (fun _ => next?_sign) fun _ => next?_power)
      · exact .cons rfl (digits.leads (fun _ => next?_sign) fun _ => next?_power)

/-- Nothing follows, or a character that can stand after a value. -/
def Ends (rest : List Symbol) : Prop :=
  ∀ symbol ∈ rest.head?, isBlank symbol = true ∨ symbol ∈ [some ',', some ']', some '}']

/-- A number that is complete ends before such a character. -/
theorem skipFrom_complete {place : Digits} (complete : place.complete = true) (ends : Ends rest) :
    skipFrom (.number place) frames rest = skipFrom .after frames rest := by
  cases rest with
  | nil =>
      rw [skipFrom, skipFrom]
      simp only [Spot.ended, complete]
      rfl
  | cons symbol rest =>
      have stops : symbol.bind place.next? = none := by
        have each : ∀ symbol ∈ [some ' ', some '\t', some '\n', some '\r', some ',', some ']',
            some '}'], symbol.bind place.next? = none := by
          cases place <;> decide +kernel
        refine each symbol ?_
        rcases ends symbol rfl with blank | mark
        · simp only [isBlank, Bool.or_eq_true, decide_eq_true_eq] at blank
          rcases blank with ((rfl | rfl) | rfl) | rfl <;> decide
        · exact List.mem_append_right [some ' ', some '\t', some '\n', some '\r'] mark
      have same : advance (.number place) frames symbol = advance .after frames symbol := by
        simp only [advance, stops, complete, if_true]
      rw [skipFrom, skipFrom, same]

theorem mem_digits (digit : c.isDigit) :
    c ∈ ['0', '1', '2', '3', '4', '5', '6', '7', '8', '9'] := by
  have bounds : 48 ≤ c.toNat ∧ c.toNat ≤ 57 := by
    simpa [Char.isDigit, UInt32.le_iff_toNat_le] using digit
  have each : ∀ n < 10, Char.ofNat (48 + n) ∈
      ['0', '1', '2', '3', '4', '5', '6', '7', '8', '9'] := by decide
  have here := each (c.toNat - 48) (by omega)
  rwa [Nat.add_sub_cancel' bounds.1, Char.ofNat_toNat] at here

/-- A digit that begins a number leads where it leads after a minus sign. -/
theorem openValue_digit {place : Digits} (leads : Digits.minus.next? c = some place)
    (closable : Bool) (frames : List Frame) :
    advance (.value closable) frames (some c) = .on (.number place) frames := by
  by_cases digit : c.isDigit
  · have each : ∀ c ∈ ['0', '1', '2', '3', '4', '5', '6', '7', '8', '9'],
        Digits.minus.next? c = some place →
          advance (.value closable) frames (some c) = .on (.number place) frames := by
      intro c member leads
      simp only [List.mem_cons, List.not_mem_nil, or_false] at member
      rcases member with rfl | rfl | rfl | rfl | rfl | rfl | rfl | rfl | rfl | rfl
      all_goals
        cases leads
        rfl
    exact each c (mem_digits digit) leads
  · have zero : c ≠ '0' := by
      rintro rfl
      exact digit rfl
    rw [Digits.next?, if_neg zero, if_neg digit] at leads
    cases leads

/-- A number is skipped as a value, as far as what follows it ends it. -/
theorem Number.skip_value (number : Number cs) (ends : Ends rest) :
    skipFrom (.value closable) frames (cs.map some ++ rest) = skipFrom .after frames rest := by
  cases number with
  | @intro sign whole fraction exponent signed hw hf he =>
      obtain ⟨place, leads, before⟩ := hw.leads
      obtain ⟨place', leads', before'⟩ := hf.leads before
      obtain ⟨place'', leads'', complete⟩ := he.leads before'
      have unsigned : Leads .minus (whole ++ (fraction ++ exponent)) place'' :=
        leads.append (leads'.append leads'')
      simp only [List.mem_cons, List.not_mem_nil, or_false] at signed
      rcases signed with rfl | rfl
      · -- The first digit is read as the beginning of a value, the others as those of a number.
        obtain ⟨c, cs, split⟩ : ∃ c cs, whole = c :: cs := by cases hw <;> exact ⟨_, _, rfl⟩
        rw [split, List.cons_append, Leads, List.foldlM_cons] at unsigned
        cases first : Digits.minus.next? c with
        | none =>
            rw [first] at unsigned
            cases unsigned
        | some next =>
            rw [first] at unsigned
            have later : Leads next (cs ++ (fraction ++ exponent)) place'' := unsigned
            rw [split, List.nil_append, List.cons_append, List.map_cons, List.cons_append,
              skipFrom_on (openValue_digit first _ _), later.skip]
            exact skipFrom_complete complete ends
      · have minus : advance (.value closable) frames (some '-') = .on (.number .minus) frames :=
          rfl
        rw [List.cons_append, List.nil_append, List.map_cons, List.cons_append, skipFrom_on minus,
          unsigned.skip]
        exact skipFrom_complete complete ends

/-! ## Skipping values -/

theorem ends_of_mark {mark : Char} (known : mark ∈ [',', ']', '}']) : Ends (some mark :: rest) := by
  rintro _ ⟨⟩
  exact .inr (List.mem_map_of_mem known)

/-- Blanks end what is in front of them, or leave it to what follows. -/
theorem Blanks.ends (blanks : Blanks cs) (ends : Ends rest) : Ends (cs.map some ++ rest) := by
  cases cs with
  | nil => exact ends
  | cons c cs =>
      rintro _ ⟨⟩
      exact .inl (blanks.isBlank List.mem_cons_self)

/-- How a part is skipped: from the spot at which it begins to the one after it. What stands in an
array or an object is skipped together with the closing mark. -/
def Skipped : Part → List Char → Prop
  | .value _, cs => ∀ closable frames rest, Ends rest →
    skipFrom (.value closable) frames (cs.map some ++ rest) = skipFrom .after frames rest
  | .element _, cs => ∀ closable frame frames rest, Ends rest →
    skipFrom (.value closable) (frame :: frames) (cs.map some ++ rest) =
      skipFrom .after (frame :: frames) rest
  | .items _, cs => ∀ closable frames rest,
    skipFrom (.value closable) (.array :: frames) (cs.map some ++ some ']' :: rest) =
      skipFrom .after frames rest
  | .member _ _, cs => ∀ closable frames rest, Ends rest →
    skipFrom (.name closable) (.object :: frames) (cs.map some ++ rest) =
      skipFrom .after (.object :: frames) rest
  | .members _, cs => ∀ closable frames rest,
    skipFrom (.name closable) (.object :: frames) (cs.map some ++ some '}' :: rest) =
      skipFrom .after frames rest

/-- Whatever a part spells, it is skipped whole. -/
theorem Spells.skip {part : Part} (spells : Spells part cs) : Skipped part cs := by
  induction spells with
  | nullWord | trueWord | falseWord => exact fun _ _ _ _ => rfl
  | number number => exact fun _ _ _ ends => number.skip_value ends
  | text quoted => exact fun _ _ _ _ => quoted.skip_value
  | noItems blanks =>
      intro closable frames rest _
      have opens : advance (.value closable) frames (some '[') =
          .on (.value true) (.array :: frames) := rfl
      rw [List.map_cons, List.map_append, List.cons_append, List.append_assoc, skipFrom_on opens,
        blanks.skip (advance_value_blank _ _)]
      exact skipFrom_on rfl
  | array _ ih =>
      intro closable frames rest _
      have opens : advance (.value closable) frames (some '[') =
          .on (.value true) (.array :: frames) := rfl
      rw [List.map_cons, List.map_append, List.cons_append, List.append_assoc, skipFrom_on opens]
      exact ih true frames rest
  | noMembers blanks =>
      intro closable frames rest _
      have opens : advance (.value closable) frames (some '{') =
          .on (.name true) (.object :: frames) := rfl
      rw [List.map_cons, List.map_append, List.cons_append, List.append_assoc, skipFrom_on opens,
        blanks.skip (advance_name_blank _ _)]
      exact skipFrom_on rfl
  | object _ ih =>
      intro closable frames rest _
      have opens : advance (.value closable) frames (some '{') =
          .on (.name true) (.object :: frames) := rfl
      rw [List.map_cons, List.map_append, List.cons_append, List.append_assoc, skipFrom_on opens]
      exact ih true frames rest
  | element before _ after ih =>
      intro closable frame frames rest ends
      rw [List.map_append, List.map_append, List.append_assoc, List.append_assoc,
        before.skip (advance_value_blank _ _), ih _ _ _ (after.ends ends),
        after.skip (advance_after_blank _ _)]
  | item _ ih =>
      intro closable frames rest
      rw [ih closable .array frames _ (ends_of_mark (by simp))]
      exact skipFrom_on rfl
  | items _ _ ih ih' =>
      intro closable frames rest
      have goes : advance .after (.array :: frames) (some ',') =
          .on (.value false) (.array :: frames) := rfl
      rw [List.map_append, List.append_assoc, List.map_cons, List.cons_append,
        ih closable .array frames _ (ends_of_mark (by simp)), skipFrom_on goes]
      exact ih' _ frames rest
  | named before quoted after _ ih =>
      intro closable frames rest ends
      have colon : advance .colon (.object :: frames) (some ':') =
          .on (.value false) (.object :: frames) := rfl
      rw [List.map_append, List.map_append, List.map_append, List.append_assoc, List.append_assoc,
        List.append_assoc, List.map_cons, List.cons_append,
        before.skip (advance_name_blank _ _), quoted.skip_name,
        after.skip (advance_colon_blank _), skipFrom_on colon]
      exact ih _ .object frames rest ends
  | member _ ih =>
      intro closable frames rest
      rw [ih closable frames _ (ends_of_mark (by simp))]
      exact skipFrom_on rfl
  | members _ _ ih ih' =>
      intro closable frames rest
      have goes : advance .after (.object :: frames) (some ',') =
          .on (.name false) (.object :: frames) := rfl
      rw [List.map_append, List.append_assoc, List.map_cons, List.cons_append,
        ih closable frames _ (ends_of_mark (by simp)), skipFrom_on goes]
      exact ih' _ frames rest

/-- A value is skipped from its first character to its last, whatever it holds. -/
theorem skipValue_spelled {d : Data} (spells : Spells (.value d) cs) (ends : Ends rest) :
    skipValue (cs.map some ++ rest) = some rest := by
  have outside : skipFrom .after [] rest = some rest := by cases rest <;> rfl
  exact (spells.skip false [] rest ends).trans outside

variable {d : Data} {ms : List (String × Data)}

/-! ## Blanks -/

theorem skipBlanks_of_seen (seen : isBlank (some c) = false) :
    skipBlanks (some c :: rest) = some c :: rest :=
  List.dropWhile_cons_of_neg (by simp [seen])

/-- All blanks are dropped. -/
theorem Blanks.drop (blanks : Blanks cs) : skipBlanks (cs.map some ++ rest) = skipBlanks rest := by
  refine List.dropWhile_append_of_pos fun symbol member => ?_
  obtain ⟨c, here, rfl⟩ := List.mem_map.mp member
  exact blanks.isBlank here

/-! ## First characters -/

/-- A number begins with a digit or a minus sign. -/
theorem Number.begins (number : Number cs) :
    ∃ c ds, cs = c :: ds ∧ c ∈ ['-', '0', '1', '2', '3', '4', '5', '6', '7', '8', '9'] := by
  cases number with
  | @intro sign whole fraction exponent signed hw hf he =>
      simp only [List.mem_cons, List.not_mem_nil, or_false] at signed
      rcases signed with rfl | rfl
      · cases hw with
        | zero => exact ⟨'0', _, rfl, by decide⟩
        | leading digit _ _ => exact ⟨_, _, rfl, List.mem_cons_of_mem _ (mem_digits digit)⟩
      · exact ⟨'-', _, rfl, by decide⟩

/-- The first character of a value is no blank, and tells a text and a `null` from all else. -/
theorem Spells.begins (spells : Spells (.value d) cs) : ∃ c ds, cs = c :: ds ∧
    isBlank (some c) = false ∧ (c = '"' → ∃ s, d = .text s) ∧ (c = 'n' → d = .null) := by
  cases spells with
  | nullWord => exact ⟨'n', _, rfl, rfl, nofun, fun _ => rfl⟩
  | trueWord => exact ⟨'t', _, rfl, rfl, nofun, nofun⟩
  | falseWord => exact ⟨'f', _, rfl, rfl, nofun, nofun⟩
  | number number =>
      obtain ⟨c, ds, rfl, member⟩ := number.begins
      simp only [List.mem_cons, List.not_mem_nil, or_false] at member
      rcases member with rfl | rfl | rfl | rfl | rfl | rfl | rfl | rfl | rfl | rfl | rfl
      all_goals exact ⟨_, _, rfl, rfl, nofun, nofun⟩
  | text quoted =>
      cases quoted with
      | intro _ => exact ⟨'"', _, rfl, rfl, fun _ => ⟨_, rfl⟩, nofun⟩
  | noItems _ | array _ => exact ⟨'[', _, rfl, rfl, nofun, nofun⟩
  | noMembers _ | object _ => exact ⟨'{', _, rfl, rfl, nofun, nofun⟩

/-- Blanks before a value are dropped up to its first character. -/
theorem skipBlanks_before {bs : List Char} (before : Blanks bs) (value : Spells (.value d) cs) :
    skipBlanks (bs.map some ++ (cs.map some ++ rest)) = cs.map some ++ rest := by
  obtain ⟨c, ds, rfl, seen, -⟩ := value.begins
  rw [before.drop]
  exact skipBlanks_of_seen seen

/-- An element is a value with blanks after it, once the blanks before it are dropped. -/
theorem Spells.of_element (spells : Spells (.element d) cs) :
    ∃ vs bs, Spells (.value d) vs ∧ Blanks bs ∧
      ∀ rest, skipBlanks (cs.map some ++ rest) = vs.map some ++ (bs.map some ++ rest) := by
  cases spells with
  | element before value after =>
      refine ⟨_, _, value, after, fun rest => ?_⟩
      rw [List.map_append, List.map_append, List.append_assoc, List.append_assoc]
      exact skipBlanks_before before value

theorem Quoted.begins {s : String} (quoted : Quoted s cs) : ∃ ds, cs = '"' :: ds := by
  cases quoted with
  | intro _ => exact ⟨_, rfl⟩

/-- What spells no text is not read as one. -/
theorem text?_other (spells : Spells (.value d) cs) (other : ∀ s, d ≠ .text s) :
    text? (cs.map some ++ rest) = none := by
  obtain ⟨c, ds, rfl, -, quoted, -⟩ := spells.begins
  have unquoted : c ≠ '"' := by
    intro same
    obtain ⟨s, text⟩ := quoted same
    exact other s text
  unfold text?
  split
  · next opens =>
      cases opens
      exact absurd rfl unquoted
  · rfl

/-! ## Members -/

theorem Spells.length_members (spells : Spells (.members ms) cs) : ms.length ≤ cs.length := by
  generalize members : Part.members ms = part at spells
  induction spells generalizing ms with
  | member only =>
      cases members
      cases only with
      | named =>
          simp only [List.length_append, List.length_cons, List.length_nil]
          omega
  | members _ _ _ ih =>
      cases members
      have fewer := ih rfl
      simp only [List.length_append, List.length_cons]
      omega
  | _ => cases members

/-- Blanks before a name make no difference. -/
theorem Spells.trim_member {name : String} (spells : Spells (.member name d) cs) :
    ∃ ds, Spells (.member name d) ('"' :: ds) ∧
      ∀ rest, skipBlanks (cs.map some ++ rest) = ('"' :: ds).map some ++ rest := by
  cases spells with
  | @named _ _ bs ns bs' cs before quoted after element =>
      obtain ⟨ds, rfl⟩ := quoted.begins
      have trimmed : Spells (.member name d) ([] ++ (('"' :: ds) ++ (bs' ++ ':' :: cs))) :=
        .named nofun quoted after element
      refine ⟨ds ++ (bs' ++ ':' :: cs), trimmed, ?_⟩
      intro rest
      rw [List.map_append, List.append_assoc, before.drop]
      exact skipBlanks_of_seen rfl

/-- Members begin with the quotation mark of a name, blanks aside. -/
theorem Spells.trim (spells : Spells (.members ms) cs) : ∃ ds, Spells (.members ms) ('"' :: ds) ∧
    ∀ rest, skipBlanks (cs.map some ++ rest) = ('"' :: ds).map some ++ rest := by
  cases spells with
  | member only =>
      obtain ⟨ds, trimmed, drops⟩ := only.trim_member
      exact ⟨ds, .member trimmed, drops⟩
  | @members _ _ _ cs es first more =>
      obtain ⟨ds, trimmed, drops⟩ := first.trim_member
      refine ⟨ds ++ ',' :: es, .members trimmed more, ?_⟩
      intro rest
      rw [List.map_append, List.append_assoc, drops, ← List.append_assoc, ← List.map_append]
      rfl

end CacheAside.Json
