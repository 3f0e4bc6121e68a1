/-!
# Quotients with 53 significant bits

A rate is the quotient of two counts, each first rounded to 53 significant bits and the quotient
rounded to 53 bits again, always to the nearest value and on a tie to the even one.
`Binary64.ofNat` and `Binary64.div` do this in exact integer arithmetic. Counts lie below 2 ^ 64, so
all values are zero or between 2 ^ -64 and 2 ^ 64, far from the ends of the exponent range.
-/

namespace CacheAside

/-- The number `mantissa · 2 ^ exponent`. The mantissa is zero, or has exactly 53 bits. -/
structure Binary64 where
  mantissa : Nat
  exponent : Int
  deriving DecidableEq, Repr

namespace Binary64

def zero : Binary64 := ⟨0, 0⟩

/-- The smallest mantissa with 53 bits. -/
def leading : Nat := 0x10000000000000

/-- The integer nearest to `num / den`, and the even one of two that are equally near. -/
def nearest (num den : Nat) : Nat :=
  let q := num / den
  let rest := 2 * (num % den)
  if rest < den ∨ (rest = den ∧ q % 2 = 0) then q else q + 1

/-- `num / (den · 2 ^ e)` as a quotient of naturals. -/
def scaled (num den : Nat) (e : Int) : Nat × Nat :=
  (num * Nat.pow 2 (-e).toNat, den * Nat.pow 2 e.toNat)

/-- The value with 53 bits that is nearest to `num / den`. The difference of the two binary
logarithms fixes the exponent up to one step, and the whole part of the scaled quotient decides
which of the two it is. -/
def ofRatio (num den : Nat) : Binary64 :=
  if num = 0 then zero
  else
    let low : Int := (num.log2 : Int) - den.log2 - 53
    let whole := (scaled num den low).1 / (scaled num den low).2
    let e := if whole < 2 * leading then low else low + 1
    let m := nearest (scaled num den e).1 (scaled num den e).2
    if m < 2 * leading then ⟨m, e⟩ else ⟨leading, e + 1⟩

/-- The value with 53 bits that is nearest to a natural number. -/
def ofNat (n : Nat) : Binary64 := ofRatio n 1

/-- The value as a quotient of naturals. -/
def ratio (x : Binary64) : Nat × Nat :=
  (x.mantissa * Nat.pow 2 x.exponent.toNat, Nat.pow 2 (-x.exponent).toNat)

/-- The value with 53 bits that is nearest to the quotient. -/
def div (x y : Binary64) : Binary64 :=
  ofRatio (x.ratio.1 * y.ratio.2) (x.ratio.2 * y.ratio.1)

/-- The 64 bits of the interchange format: a zero sign, eleven bits of the exponent shifted by
1075, and the mantissa without its leading bit. -/
def toBits (x : Binary64) : Nat :=
  if x.mantissa = 0 then 0
  else (x.exponent + 1075).toNat * leading + (x.mantissa - leading)

end Binary64

end CacheAside
