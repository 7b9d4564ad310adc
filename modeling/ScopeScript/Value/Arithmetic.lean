import ScopeScript.Value.Basic

/-!
# Operators on values

Numbers have arithmetic and order, texts have concatenation and order, and all values have
equality and truth. Both operands of `and` and `or` are values already, so nothing is skipped.
-/

namespace ScopeScript

structure Mismatch where
  operator : String
  operands : List String
  deriving DecidableEq, Repr

def Mismatch.message (m : Mismatch) : String :=
  "Unsupported operation '" ++ m.operator ++ "' for " ++ " and ".intercalate m.operands

namespace BinaryOp

def onNumbers? : BinaryOp → Float → Float → Option Value
  | .add, a, b => some (.number (a + b))
  | .sub, a, b => some (.number (a - b))
  | .mul, a, b => some (.number (a * b))
  | .div, a, b => some (.number (a / b))
  | .floorDiv, a, b => some (.number (a / b).floor)
  | .mod, a, b => some (.number (Binary64.flooredRemainder a b))
  | .pow, a, b => some (.number (a.pow b))
  | .eq, a, b => some (.bool (a == b))
  | .ne, a, b => some (.bool (a != b))
  | .lt, a, b => some (.bool (a < b))
  | .le, a, b => some (.bool (a ≤ b))
  | .gt, a, b => some (.bool (b < a))
  | .ge, a, b => some (.bool (b ≤ a))
  | _, _, _ => none

/-- Concatenation and order of texts; the order is that of code points. -/
def onTexts? : BinaryOp → String → String → Option Value
  | .add, a, b => some (.text (a ++ b))
  | .lt, a, b => some (.bool (a < b))
  | .le, a, b => some (.bool (!decide (b < a)))
  | .gt, a, b => some (.bool (b < a))
  | .ge, a, b => some (.bool (!decide (a < b)))
  | _, _, _ => none

/-- What every kind of value has. -/
def onValues? : BinaryOp → Value → Value → Option Value
  | .assign, _, b => some b
  | .eq, a, b => some (.bool (a.same b))
  | .ne, a, b => some (.bool (!a.same b))
  | .and, a, b => some (.bool (a.isTruthy && b.isTruthy))
  | .or, a, b => some (.bool (a.isTruthy || b.isTruthy))
  | _, _, _ => none

def onKinds? (op : BinaryOp) : Value → Value → Option Value
  | .number a, .number b => op.onNumbers? a b
  | .text a, .text b => op.onTexts? a b
  | _, _ => none

def apply (op : BinaryOp) (a b : Value) : Except Mismatch Value :=
  match (op.onKinds? a b).or (op.onValues? a b) with
  | some v => .ok v
  | none => .error ⟨op.symbol, [a.kindName, b.kindName]⟩

end BinaryOp

namespace UnaryOp

def apply (op : UnaryOp) (a : Value) : Except Mismatch Value :=
  match op, a with
  | .pos, .number x => .ok (.number x)
  | .neg, .number x => .ok (.number (-x))
  | .not, a => .ok (.bool (!a.isTruthy))
  | op, a => .error ⟨op.symbol, [a.kindName]⟩

end UnaryOp

end ScopeScript
