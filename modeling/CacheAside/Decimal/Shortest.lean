import CacheAside.Decimal.Quotient

/-!
# The shortest decimal that reads back

A number with 53 bits is written with the fewest decimal digits that still lead back to it: all
decimals between the midpoints to its two neighbours round to it, the midpoints themselves when
its mantissa is even. `Binary64.shortest` tries one digit, two digits and so on, each time the two
neighbours of the value on the grid of that many digits.

How the digits are laid out is a matter of the format and not of the number: `Notation` says so.
-/

namespace CacheAside

/-- The decimal `0.d₁d₂… · 10 ^ point`, its digits without trailing zeros. -/
structure Decimal where
  digits : List Nat
  point : Int
  deriving DecidableEq, Repr

namespace Binary64

/-- The value and the two midpoints to its neighbours, as naturals over one denominator: lower
midpoint, value, upper midpoint, denominator. Below a power of two the neighbour is half as far. -/
def gap (x : Binary64) : Nat × Nat × Nat × Nat :=
  let (lower, value, upper) :=
    if x.mantissa = leading then (4 * x.mantissa - 1, 4 * x.mantissa, 4 * x.mantissa + 2)
    else (4 * x.mantissa - 2, 4 * x.mantissa, 4 * x.mantissa + 2)
  let e := x.exponent - 2
  let scale := Nat.pow 2 e.toNat
  (lower * scale, value * scale, upper * scale, Nat.pow 2 (-e).toNat)

/-- Whether the decimal `n · 10 ^ k` rounds to `x`. -/
def readsBack (x : Binary64) (n : Nat) (k : Int) : Bool :=
  let (lower, _, upper, den) := x.gap
  let num := n * Nat.pow 10 k.toNat * den
  let scale := Nat.pow 10 (-k).toNat
  if x.mantissa % 2 = 0 then lower * scale ≤ num && num ≤ upper * scale
  else lower * scale < num && num < upper * scale

/-- The least `k` from `start` on, within `n` steps, for which the value is below `10 ^ k`. -/
def pointFrom (x : Binary64) : Nat → Int → Int
  | 0, k => k
  | n + 1, k =>
    let (num, den) := x.ratio
    if num * Nat.pow 10 (-k).toNat < den * Nat.pow 10 k.toNat then k else x.pointFrom n (k + 1)

/-- The position of the decimal point. All rates lie between 10 ^ -20 and 10 ^ 20. -/
def point (x : Binary64) : Int := x.pointFrom 42 (-20)

/-- The decimal with `n` digits that reads back and is nearest to the value, as an integer count
of steps of `10 ^ (point - n)`. -/
def candidate? (x : Binary64) (n : Nat) : Option Nat :=
  let k := x.point - n
  let (num, den) := x.ratio
  let num := num * Nat.pow 10 (-k).toNat
  let den := den * Nat.pow 10 k.toNat
  let below := num / den
  let nearer := nearest num den
  let other := if nearer = below then below + 1 else below
  if x.readsBack nearer k then some nearer
  else if x.readsBack other k then some other
  else none

/-- The decimal digits of a natural number, most significant first and none for zero. -/
def digitsOf (n : Nat) : List Nat := (Nat.toDigits 10 n).map fun c => c.toNat - '0'.toNat

/-- The decimal that `count` steps of `10 ^ k` make, without trailing zeros. -/
def trimmed (count : Nat) (k : Int) : Decimal :=
  let digits := digitsOf count
  ⟨(digits.reverse.dropWhile (· = 0)).reverse, k + digits.length⟩

/-- The first number of digits, from `n` on and within `fuel` tries, on whose grid a decimal reads
back. Seventeen digits always do. -/
def search (x : Binary64) : (fuel n : Nat) → Decimal
  | 0, _ => ⟨[], 0⟩
  | fuel + 1, n =>
    match x.candidate? n with
    | some count => trimmed count (x.point - n)
    | none => x.search fuel (n + 1)

/-- The fewest digits that read back to `x`; zero has none. -/
def shortest (x : Binary64) : Decimal :=
  if x.mantissa = 0 then ⟨[], 0⟩ else x.search 17 1

end Binary64

/-- Where a format stops writing a number positionally: below `10 ^ least`, and from
`10 ^ bound` on, it uses an exponent. -/
structure Notation where
  least : Int
  bound : Int

namespace Decimal

def text (digits : List Nat) : String := String.ofList (digits.map Nat.digitChar)

def zeros (n : Nat) : String := String.ofList (List.replicate n '0')

/-- Writes a decimal. A positional number always shows a fractional part, `.0` if it is whole; an
exponent is always signed. -/
def render (style : Notation) (d : Decimal) : String :=
  if d.digits = [] then "0.0"
  else if style.least < d.point ∧ d.point ≤ style.bound then
    let n := d.digits.length
    if d.point ≤ 0 then "0." ++ zeros (-d.point).toNat ++ text d.digits
    else if n ≤ d.point.toNat then text d.digits ++ zeros (d.point.toNat - n) ++ ".0"
    else text (d.digits.take d.point.toNat) ++ "." ++ text (d.digits.drop d.point.toNat)
  else
    let fraction := if d.digits.length ≤ 1 then "" else "." ++ text (d.digits.drop 1)
    let e := d.point - 1
    let sign := if e < 0 then "-" else "+"
    text (d.digits.take 1) ++ fraction ++ "e" ++ sign ++ toString e.natAbs

end Decimal

end CacheAside
