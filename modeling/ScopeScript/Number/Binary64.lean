import ScopeScript.Number.Power

/-!
# Doubles in exact arithmetic

Every finite double is a sign and a whole number of *units* of `2 ^ -1074`, the
smallest positive double. `magnitude x` is the bit pattern of `x` without its
sign; `units` reads the pattern as a natural number of units, and `nearest`
goes back: it takes a quotient of units to the pattern closest to it, halves to
the even pattern. `remainder` is then a remainder of natural numbers.
-/

namespace ScopeScript.Binary64

/-- Patterns per binade: the fraction field has 52 bits. -/
def binade : Nat := twoPow 52

/-- The pattern of infinity; the patterns above it are not numbers. -/
def infinity : Nat := 2047 * binade

/-- The denominator of a unit. -/
def unitsPerOne : Nat := twoPow 1074

def negative (x : Float) : Bool := twoPow 63 ≤ x.toBits.toNat

def magnitude (x : Float) : Nat := x.toBits.toNat % twoPow 63

def ofMagnitude (neg : Bool) (pattern : Nat) : Float :=
  Float.ofBits (UInt64.ofNat (pattern + if neg then twoPow 63 else 0))

/-- The power of two that one step of the significand is worth, in units. -/
def scale (pattern : Nat) : Nat := pattern / binade - 1

def significand (pattern : Nat) : Nat := pattern - scale pattern * binade

/-- A finite pattern as a number of units. -/
def units (pattern : Nat) : Nat := significand pattern * twoPow (scale pattern)

/-- The quotient rounded to the nearest integer, a half to the even one. -/
def divToEven (num den : Nat) : Nat :=
  let q := num / den
  let r := num % den
  if den < 2 * r ∨ (2 * r = den ∧ q % 2 = 1) then q + 1 else q

/-- The pattern nearest to `num / den` units; infinity when none is near enough.
A significand that rounds up to the next power of two carries into the scale. -/
def nearest (num den : Nat) : Nat :=
  let s := (num / den).log2 - 52
  min (s * binade + divToEven num (den * twoPow s)) infinity

/-- The remainder of the division that rounds toward zero: it is exact, and it has the
sign of the dividend. -/
def remainder (a b : Float) : Float :=
  let u := magnitude a
  let v := magnitude b
  if infinity ≤ u ∨ infinity < v ∨ v = 0 then 0.0 / 0.0
  else if v = infinity then a
  else ofMagnitude (negative a) (nearest (units u % units v) 1)

/-- The remainder of the division that rounds down: it has the sign of the divisor. -/
def flooredRemainder (a b : Float) : Float :=
  let r := remainder a b
  if r != 0.0 && ((r < 0.0 : Bool) != (b < 0.0 : Bool)) then r + b else r

end ScopeScript.Binary64
