/-!
# UTF-8

`Utf8.scan` reads bytes as a row of characters with holes: wherever the bytes are not UTF-8, the
longest run that could still have begun a character becomes one hole. Bytes below 0x80 are never
part of a hole, so a reader of ASCII punctuation sees every one of its marks. Strict and lossy
decoding are two ways of looking at that row.
-/

namespace CacheAside.Utf8

/-- A character that has begun: how many bytes are missing, the bits so far, and the range in
which the next byte has to lie. -/
structure Pending where
  missing : Nat
  bits : Nat
  low : Nat
  high : Nat
  deriving DecidableEq, Repr

/-- What a byte that begins a character says about it: the character itself if it stands alone, or
what has to follow. The narrowed ranges keep out overlong forms, surrogates and values above
10FFFF. -/
def lead (b : Nat) : Option (Char ⊕ Pending) :=
  if b < 0x80 then some (.inl (Char.ofNat b))
  else if b < 0xC2 then none
  else if b < 0xE0 then some (.inr ⟨1, b - 0xC0, 0x80, 0xBF⟩)
  else if b = 0xE0 then some (.inr ⟨2, 0, 0xA0, 0xBF⟩)
  else if b = 0xED then some (.inr ⟨2, 0xD, 0x80, 0x9F⟩)
  else if b < 0xF0 then some (.inr ⟨2, b - 0xE0, 0x80, 0xBF⟩)
  else if b = 0xF0 then some (.inr ⟨3, 0, 0x90, 0xBF⟩)
  else if b < 0xF4 then some (.inr ⟨3, b - 0xF0, 0x80, 0xBF⟩)
  else if b = 0xF4 then some (.inr ⟨3, 4, 0x80, 0x8F⟩)
  else none

/-- Reads on. `pending` is the character that has begun, `done` what has been read, last first. -/
def scanFrom (pending : Option Pending) (done : List (Option Char)) :
    List UInt8 → List (Option Char)
  | [] =>
    match pending with
    | none => done.reverse
    | some _ => (none :: done).reverse
  | b :: rest =>
    let b := b.toNat
    match pending with
    | some p =>
      if p.low ≤ b ∧ b ≤ p.high then
        let bits := p.bits * 64 + (b - 0x80)
        if p.missing ≤ 1 then scanFrom none (some (Char.ofNat bits) :: done) rest
        else scanFrom (some ⟨p.missing - 1, bits, 0x80, 0xBF⟩) done rest
      else
        match lead b with
        | some (.inl c) => scanFrom none (some c :: none :: done) rest
        | some (.inr p) => scanFrom (some p) (none :: done) rest
        | none => scanFrom none (none :: none :: done) rest
    | none =>
      match lead b with
      | some (.inl c) => scanFrom none (some c :: done) rest
      | some (.inr p) => scanFrom (some p) done rest
      | none => scanFrom none (none :: done) rest

/-- The characters that the bytes spell, with `none` for each hole. -/
def scan (bytes : List UInt8) : List (Option Char) := scanFrom none [] bytes

/-- The text that the bytes spell, if all of them are UTF-8. -/
def decode? (bytes : List UInt8) : Option String := ((scan bytes).mapM id).map String.ofList

/-- The text that the bytes spell, with U+FFFD for each hole. -/
def decodeLossy (bytes : List UInt8) : String :=
  String.ofList ((scan bytes).map (·.getD '\uFFFD'))

/-- The bytes of one character. -/
def encodeChar (c : Char) : List UInt8 :=
  let n := c.toNat
  let tail (n : Nat) : UInt8 := UInt8.ofNat (0x80 + n % 64)
  if n < 0x80 then [UInt8.ofNat n]
  else if n < 0x800 then [UInt8.ofNat (0xC0 + n / 64), tail n]
  else if n < 0x10000 then [UInt8.ofNat (0xE0 + n / 4096), tail (n / 64), tail n]
  else [UInt8.ofNat (0xF0 + n / 262144), tail (n / 4096), tail (n / 64), tail n]

/-- The bytes of a row of characters. -/
def encode (cs : List Char) : List UInt8 := cs.flatMap encodeChar

end CacheAside.Utf8
