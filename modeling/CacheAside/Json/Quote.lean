import CacheAside.Decimal.Shortest

/-!
# Writing JSON

Answers are flat JSON objects without blanks, their members in a fixed order. A text is written
with the short escapes where there are any, with `\u00xx` for the other characters below U+0020,
and as it is otherwise, so no written text holds a raw control character below U+0020.
-/

namespace CacheAside.Json

/-- The two-character escape of a character that has one. -/
def shortEscape : Char → Option Char
  | '"' => some '"'
  | '\\' => some '\\'
  | '\x08' => some 'b'
  | '\x0c' => some 'f'
  | '\n' => some 'n'
  | '\r' => some 'r'
  | '\t' => some 't'
  | _ => none

/-- One character of a text as it is written between the quotation marks. -/
def escape (c : Char) : List Char :=
  match shortEscape c with
  | some e => ['\\', e]
  | none =>
    if c.toNat < 0x20 then
      ['\\', 'u', '0', '0', Nat.digitChar (c.toNat / 16), Nat.digitChar (c.toNat % 16)]
    else [c]

/-- A text between quotation marks. -/
def quote (s : String) : String := "\"" ++ String.ofList (s.toList.flatMap escape) ++ "\""

/-- Rates are positional from 0.00001 up to but not including 10 ^ 16. -/
def rateNotation : Notation := ⟨-5, 16⟩

/-- What a member of an answer can be. -/
inductive Scalar
  | text (s : String)
  | count (n : Nat)
  | rate (x : Binary64)

def Scalar.render : Scalar → String
  | .text s => quote s
  | .count n => toString n
  | .rate x => x.shortest.render rateNotation

/-- A name and its value. -/
def member (m : String × Scalar) : String := quote m.1 ++ ":" ++ m.2.render

/-- An object with the given members. -/
def object (members : List (String × Scalar)) : String :=
  "\x7b" ++ ",".intercalate (members.map member) ++ "\x7d"

end CacheAside.Json
