import CacheAside.Proofs.Text.Encoding

/-!
# The grammar of JSON

Which rows of characters spell which data, rule by rule: `Json.Spells`. Nothing here refers to how a
text is read or written. A number stands for itself, as it is written. A row can spell a value, a
value with blanks around it, or what stands between the brackets of an array or an object; of these
the grammar is one inductive, indexed by `Json.Part`.
-/

namespace CacheAside.Json

open Numeral (HexDigit)

/-- What a JSON text can spell. -/
inductive Data
  | null
  | boolean (b : Bool)
  | number (written : List Char)
  | text (s : String)
  | array (items : List Data)
  | object (members : List (String × Data))

/-! ## Blanks and numbers -/

def Blanks (cs : List Char) : Prop := ∀ c ∈ cs, c ∈ [' ', '\t', '\n', '\r']

/-- At least one decimal digit. -/
def Digits1 (cs : List Char) : Prop := cs ≠ [] ∧ ∀ c ∈ cs, c.isDigit

/-- The whole part of a number has no leading zero, unless it is zero. -/
inductive Whole : List Char → Prop
  | zero : Whole ['0']
  | leading {c : Char} {cs : List Char} (digit : c.isDigit) (nonzero : c ≠ '0')
      (digits : ∀ d ∈ cs, d.isDigit) : Whole (c :: cs)

inductive Fraction : List Char → Prop
  | absent : Fraction []
  | present {cs : List Char} (digits : Digits1 cs) : Fraction ('.' :: cs)

inductive Exponent : List Char → Prop
  | absent : Exponent []
  | present {e : Char} {sign cs : List Char} (mark : e ∈ ['e', 'E'])
      (signed : sign ∈ [[], ['+'], ['-']]) (digits : Digits1 cs) : Exponent (e :: (sign ++ cs))

inductive Number : List Char → Prop
  | intro {sign whole fraction exponent : List Char} (signed : sign ∈ [[], ['-']])
      (hw : Whole whole) (hf : Fraction fraction) (he : Exponent exponent) :
    Number (sign ++ (whole ++ (fraction ++ exponent)))

/-! ## Texts -/

/-- The four hexadecimal digits of a number. -/
inductive Quad (n : Nat) : List Char → Prop
  | intro {a b c d : Char} (ha : HexDigit (n / 0x1000) a) (hb : HexDigit (n / 0x100 % 16) b)
      (hc : HexDigit (n / 0x10 % 16) c) (hd : HexDigit (n % 16) d) : Quad n [a, b, c, d]

/-- The letters of the short escapes, each with the character that it stands for. -/
def shortEscapes : List (Char × Char) :=
  [('"', '"'), ('\\', '\\'), ('/', '/'), ('b', '\x08'), ('f', '\x0c'), ('n', '\n'), ('r', '\r'),
    ('t', '\t')]

/-- How a character can be spelled in a text: as it is, unless it is a control character, a
quotation mark or a backslash; by a short escape; or by its number, in two halves if it is a large
one. -/
inductive SpellsChar (c : Char) : List Char → Prop
  | plain (seen : 0x20 ≤ c.toNat) (unquoted : c ≠ '"') (unescaped : c ≠ '\\') : SpellsChar c [c]
  | short {e : Char} (known : (e, c) ∈ shortEscapes) : SpellsChar c ['\\', e]
  | unit {ds : List Char} (small : c.toNat < 0x10000) (digits : Quad c.toNat ds) :
    SpellsChar c ('\\' :: 'u' :: ds)
  | pair {ds es : List Char} (large : 0x10000 ≤ c.toNat)
      (high : Quad (0xD800 + (c.toNat - 0x10000) / 0x400) ds)
      (low : Quad (0xDC00 + (c.toNat - 0x10000) % 0x400) es) :
    SpellsChar c ('\\' :: 'u' :: (ds ++ '\\' :: 'u' :: es))

inductive SpellsChars : List Char → List Char → Prop
  | nil : SpellsChars [] []
  | cons {c : Char} {cs ds es : List Char} (first : SpellsChar c ds) (rest : SpellsChars cs es) :
    SpellsChars (c :: cs) (ds ++ es)

/-- A text between quotation marks. -/
inductive Quoted (s : String) : List Char → Prop
  | intro {cs : List Char} (spelled : SpellsChars s.toList cs) : Quoted s ('"' :: (cs ++ ['"']))

/-! ## Values -/

/-- What a row of characters can be. -/
inductive Part
  | value (d : Data)
  /-- A value with blanks around it. -/
  | element (d : Data)
  /-- What stands in an array that is not empty. -/
  | items (ds : List Data)
  | member (name : String) (d : Data)
  /-- What stands in an object that is not empty. -/
  | members (ms : List (String × Data))

inductive Spells : Part → List Char → Prop
  | nullWord : Spells (.value .null) ['n', 'u', 'l', 'l']
  | trueWord : Spells (.value (.boolean true)) ['t', 'r', 'u', 'e']
  | falseWord : Spells (.value (.boolean false)) ['f', 'a', 'l', 's', 'e']
  | number {cs : List Char} (number : Number cs) : Spells (.value (.number cs)) cs
  | text {s : String} {cs : List Char} (quoted : Quoted s cs) : Spells (.value (.text s)) cs
  | noItems {bs : List Char} (blanks : Blanks bs) :
    Spells (.value (.array [])) ('[' :: (bs ++ [']']))
  | array {ds : List Data} {cs : List Char} (items : Spells (.items ds) cs) :
    Spells (.value (.array ds)) ('[' :: (cs ++ [']']))
  | noMembers {bs : List Char} (blanks : Blanks bs) :
    Spells (.value (.object [])) ('{' :: (bs ++ ['}']))
  | object {ms : List (String × Data)} {cs : List Char} (members : Spells (.members ms) cs) :
    Spells (.value (.object ms)) ('{' :: (cs ++ ['}']))
  | element {d : Data} {bs cs bs' : List Char} (before : Blanks bs) (value : Spells (.value d) cs)
      (after : Blanks bs') : Spells (.element d) (bs ++ (cs ++ bs'))
  | item {d : Data} {cs : List Char} (element : Spells (.element d) cs) : Spells (.items [d]) cs
  | items {d : Data} {ds : List Data} {cs es : List Char} (first : Spells (.element d) cs)
      (rest : Spells (.items ds) es) : Spells (.items (d :: ds)) (cs ++ ',' :: es)
  | named {name : String} {d : Data} {bs ns bs' cs : List Char} (before : Blanks bs)
      (quoted : Quoted name ns) (after : Blanks bs') (element : Spells (.element d) cs) :
    Spells (.member name d) (bs ++ (ns ++ (bs' ++ ':' :: cs)))
  | member {name : String} {d : Data} {cs : List Char} (only : Spells (.member name d) cs) :
    Spells (.members [(name, d)]) cs
  | members {name : String} {d : Data} {ms : List (String × Data)} {cs es : List Char}
      (first : Spells (.member name d) cs) (rest : Spells (.members ms) es) :
    Spells (.members ((name, d) :: ms)) (cs ++ ',' :: es)

/-- A value is an element without blanks around it. -/
theorem Spells.bare {d : Data} {cs : List Char} (spells : Spells (.value d) cs) :
    Spells (.element d) cs := by
  have element : Spells (.element d) ([] ++ (cs ++ [])) := .element nofun spells nofun
  rwa [List.nil_append, List.append_nil] at element

end CacheAside.Json
