import ScopeScript.Number.Binary64

/-!
# Decimal text of doubles

A `Decimal` is a coefficient and a power of ten. `shortest` finds, for a finite double, the
decimal with the fewest digits that reads back as that double; `numeral` reads a run of digits
with at most one point. Numbers are always written positionally. `plain` writes every double by
its shortest decimal, `display` writes whole numbers with all their digits.
-/

namespace ScopeScript

/-- The number `coefficient * 10 ^ exponent`. -/
structure Decimal where
  coefficient : Nat
  exponent : Int
  deriving DecidableEq, Repr

namespace Decimal

open Binary64

/-- The decimal digits of a natural number, most significant first. -/
def digits (n : Nat) : List Char := Nat.toDigits 10 n

/-- The numerator of `10 ^ e`. -/
def upper (e : Int) : Nat := tenPow e.toNat

/-- The denominator of `10 ^ e`. -/
def lower (e : Int) : Nat := tenPow (-e).toNat

/-- The reals that round to a pattern, in quarters of its last place: between `lo` and `hi`, the
ends included when `closed`. -/
structure Interval where
  lo : Nat
  hi : Nat
  closed : Bool
  deriving DecidableEq, Repr

/-- The rounding interval of a finite pattern. Below a power of two the doubles lie twice as
close, so the lower half gap is half as wide there. -/
def Interval.of (pattern : Nat) : Interval :=
  let m := significand pattern
  { lo := 4 * m - (if m = binade ∧ 0 < scale pattern then 1 else 2)
    hi := 4 * m + 2
    closed := m % 2 = 0 }

/-- Whether `num / den` quarters of the last place lie in the interval. -/
def Interval.contains (i : Interval) (num den : Nat) : Bool :=
  if i.closed then i.lo * den ≤ num && num ≤ i.hi * den
  else i.lo * den < num && num < i.hi * den

/-- The numerator of `10 ^ e` in quarters of the last place of a pattern. -/
def gridUpper (pattern : Nat) (e : Int) : Nat := upper e * twoPow (1076 - scale pattern)

/-- The denominator of `10 ^ e` in quarters of the last place of a pattern. -/
def gridLower (pattern : Nat) (e : Int) : Nat := lower e * twoPow (scale pattern - 1076)

/-- The two neighbours of `value` among the multiples of `unit`, all in parts of one `den`th: the
one in the interval, the nearer if both are, the upper one on a tie. -/
def neighbour (i : Interval) (value unit den : Nat) : Option Nat :=
  let down := value / unit
  match i.contains (down * unit) den, i.contains ((down + 1) * unit) den with
  | true, true =>
    some (if value - down * unit < (down + 1) * unit - value then down else down + 1)
  | true, false => some down
  | false, true => some (down + 1)
  | false, false => none

/-- The neighbour of a pattern on the grid of multiples of `10 ^ e` that rounds to it. -/
def onGrid (pattern : Nat) (e : Int) : Option Nat :=
  neighbour (Interval.of pattern) (4 * significand pattern * gridLower pattern e)
    (gridUpper pattern e) (gridLower pattern e)

/-- The first of the exponents from `p` on whose power of ten is above the pattern. -/
def firstAbove (pattern : Nat) : Nat → Int → Int
  | 0, p => p
  | more + 1, p =>
    if 4 * significand pattern * gridLower pattern p < gridUpper pattern p then p
    else firstAbove pattern more (p + 1)

/-- The exponent of the leading digit, plus one: `10 ^ (p - 1) ≤ value < 10 ^ p`. The search starts
from an estimate by the binary exponent; `1233 / 4096` stands for the decimal logarithm of two. -/
def leading (pattern : Nat) : Int :=
  let exponent : Int := (significand pattern).log2 + scale pattern - 1074
  firstAbove pattern 4 (Int.fdiv (exponent * 1233) 4096)

/-- Tries grids of one more digit each time; `grid` answers for the multiples of a power of ten.
Seventeen digits always suffice. -/
def search (grid : Int → Option Nat) (p : Int) : Nat → Nat → Decimal
  | 0, n => ⟨(grid (p - n)).getD 0, p - n⟩
  | more + 1, n =>
    match grid (p - n) with
    | some d => if d = tenPow n then ⟨1, p⟩ else ⟨d, p - n⟩
    | none => search grid p more (n + 1)

/-- The decimal of fewest digits that rounds to a finite nonzero pattern, the nearest of those. -/
def shortest (pattern : Nat) : Decimal := search (onGrid pattern) (leading pattern) 16 1

/-- Positional notation: no exponent, and no point in front of nothing. -/
def text (d : Decimal) : List Char :=
  if 0 ≤ d.exponent then digits d.coefficient ++ List.replicate d.exponent.toNat '0'
  else
    let places := (-d.exponent).toNat
    let ds := digits d.coefficient
    let padded := List.replicate (places + 1 - ds.length) '0' ++ ds
    padded.take (padded.length - places) ++ '.' :: padded.drop (padded.length - places)

def signed (neg : Bool) (cs : List Char) : String :=
  String.ofList (if neg then '-' :: cs else cs)

/-- Every double by its shortest decimal; the sign of a zero is kept. -/
def plain (x : Float) : String :=
  let m := magnitude x
  if infinity < m then "NaN"
  else if m = infinity then signed (negative x) ['i', 'n', 'f']
  else if m = 0 then signed (negative x) ['0']
  else signed (negative x) (text (shortest m))

def isWhole (pattern : Nat) : Bool :=
  pattern < infinity && units pattern % unitsPerOne = 0

/-- Whole numbers with all their digits and zero without a sign; others by `plain`. -/
def display (x : Float) : String :=
  let m := magnitude x
  if m = 0 then "0"
  else if isWhole m then signed (negative x) (digits (units m / unitsPerOne))
  else plain x

/-- The natural number that digits spell. -/
def ofDigits (cs : List Char) : Nat :=
  cs.foldl (fun n c => 10 * n + (c.toNat - '0'.toNat)) 0

/-- The double nearest to `n / 10 ^ places`. -/
def toFloat (n places : Nat) : Float :=
  ofMagnitude false (nearest (n * unitsPerOne) (tenPow places))

/-- Reads digits with at most one point among them; at least one digit is needed. -/
def numeral (cs : List Char) : Option Float :=
  let whole := cs.takeWhile (· != '.')
  let fraction := (cs.dropWhile (· != '.')).drop 1
  if whole.isEmpty && fraction.isEmpty then none
  else some (toFloat (ofDigits (whole ++ fraction)) fraction.length)

end Decimal

end ScopeScript
