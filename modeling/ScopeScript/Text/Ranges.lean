/-!
# Tables of code point ranges

A character property is a table of inclusive ranges in ascending order, cut into parts of
moderate length.
-/

namespace ScopeScript.Text

/-- Whether one of the ranges, which are in ascending order, holds the code point. -/
def inRanges : List (Nat × Nat) → Nat → Bool
  | [], _ => false
  | (lo, hi) :: ranges, n => lo ≤ n && (n ≤ hi || inRanges ranges n)

/-- Whether one of the parts of a table holds the code point. -/
def inTable (parts : List (List (Nat × Nat))) (n : Nat) : Bool :=
  parts.any (inRanges · n)

end ScopeScript.Text
