/-!
# Numerals

Whole numbers in text: ASCII digits, at least one and any number of leading zeros, with an optional
sign in front. Nothing else may stand in the text, no blank and no separator, and a number beyond
the given bound is not read at all.
-/

namespace CacheAside.Numeral

/-- The value of the digits read so far and one digit more. -/
def shift (n : Nat) (c : Char) : Nat := 10 * n + (c.toNat - '0'.toNat)

/-- The value of a non-empty row of ASCII digits. -/
def digits? (cs : List Char) : Option Nat :=
  if cs.isEmpty || !cs.all Char.isDigit then none else some (cs.foldl shift 0)

/-- A number below `bound`, with an optional plus sign. -/
def unsigned? (bound : Nat) (s : String) : Option Nat :=
  let n? := match s.toList with
    | '+' :: cs => digits? cs
    | cs => digits? cs
  n?.filter (· < bound)

/-- A number from `-bound` up to but not including `bound`, with an optional sign. -/
def signed? (bound : Nat) (s : String) : Option Int :=
  match s.toList with
  | '-' :: cs => ((digits? cs).filter (· ≤ bound)).map fun n => -(n : Int)
  | _ => (unsigned? bound s).map Int.ofNat

/-- A number of 64 bits with a sign. -/
def signedWord? (s : String) : Option Int := signed? 0x8000000000000000 s

/-- The value of a hexadecimal digit of either case. -/
def hexDigit? (c : Char) : Option Nat :=
  if c.isDigit then some (c.toNat - '0'.toNat)
  else if 'a' ≤ c ∧ c ≤ 'f' then some (c.toNat - 'a'.toNat + 10)
  else if 'A' ≤ c ∧ c ≤ 'F' then some (c.toNat - 'A'.toNat + 10)
  else none

/-- The digits of a number in base sixteen, lower case and without leading zeros. -/
def hex (n : Nat) : String := String.ofList (Nat.toDigits 16 n)

/-- A word of 64 bits as sixteen such digits. -/
def hexWord (n : UInt64) : String :=
  let digits := Nat.toDigits 16 n.toNat
  String.ofList (List.replicate (16 - digits.length) '0' ++ digits)

end CacheAside.Numeral
