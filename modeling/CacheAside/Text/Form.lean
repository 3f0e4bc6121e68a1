import CacheAside.Text.Numeral
import CacheAside.Text.Utf8

/-!
# Form-encoded pairs

The query part of a request target: pairs between ampersands, the name before the first equals
sign. A plus stands for a space and `%XX` for a byte; an escape without two hexadecimal digits is
kept as it is written. What the bytes spell is read with U+FFFD for holes.
-/

namespace CacheAside.Form

/-- The value of a byte that is a hexadecimal digit. -/
def hexByte? (b : UInt8) : Option Nat := Numeral.hexDigit? (Char.ofNat b.toNat)

/-- Replaces every escape by its byte. `done` holds the bytes so far, last first. -/
def unescapeFrom (done : List UInt8) : List UInt8 → List UInt8
  | 0x25 :: h :: l :: rest =>
    match hexByte? h, hexByte? l with
    | some high, some low => unescapeFrom (UInt8.ofNat (16 * high + low) :: done) rest
    | _, _ => unescapeFrom (0x25 :: done) (h :: l :: rest)
  | b :: rest => unescapeFrom (b :: done) rest
  | [] => done.reverse

/-- The bytes that percent-encoded bytes stand for. -/
def unescape (bytes : List UInt8) : List UInt8 := unescapeFrom [] bytes

/-- The text of a name or value. -/
def decode (cs : List Char) : String :=
  Utf8.decodeLossy (unescape (Utf8.encode (cs.map fun c => if c = '+' then ' ' else c)))

/-- One pair: the name up to the first equals sign, the value after it. -/
def pair (cs : List Char) : String × String :=
  (decode (cs.takeWhile (· ≠ '=')), decode ((cs.dropWhile (· ≠ '=')).drop 1))

/-- The pairs of a query, in order. Empty pieces are no pairs. -/
def pairs (query : String) : List (String × String) :=
  ((query.toList.splitOnP (· == '&')).filter (!·.isEmpty)).map pair

/-- The value of the first pair of the given name. -/
def first? (name : String) (pairs : List (String × String)) : Option String := pairs.lookup name

end CacheAside.Form
