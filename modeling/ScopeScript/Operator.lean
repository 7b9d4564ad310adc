/-!
# Operators

The binary and unary operators with their symbols. `assign` yields its right operand; it is the
operator of a plain reassignment.
-/

namespace ScopeScript

inductive BinaryOp where
  | add | sub | mul | div | floorDiv | mod | pow
  | eq | ne | lt | le | gt | ge
  | and | or
  | assign
  deriving DecidableEq, Repr

inductive UnaryOp where
  | pos | neg | not
  deriving DecidableEq, Repr

namespace BinaryOp

def all : List BinaryOp :=
  [.add, .sub, .mul, .div, .floorDiv, .mod, .pow, .eq, .ne, .lt, .le, .gt, .ge, .and, .or, .assign]

def symbol : BinaryOp → String
  | .add => "+"
  | .sub => "-"
  | .mul => "*"
  | .div => "/"
  | .floorDiv => "//"
  | .mod => "%"
  | .pow => "^"
  | .eq => "=="
  | .ne => "!="
  | .lt => "<"
  | .le => "<="
  | .gt => ">"
  | .ge => ">="
  | .and => "and"
  | .or => "or"
  | .assign => "="

def ofSymbol? (s : String) : Option BinaryOp := all.find? (·.symbol == s)

@[simp] theorem ofSymbol?_symbol (op : BinaryOp) : ofSymbol? op.symbol = some op := by
  cases op <;> decide

end BinaryOp

namespace UnaryOp

def all : List UnaryOp := [.pos, .neg, .not]

def symbol : UnaryOp → String
  | .pos => "+"
  | .neg => "-"
  | .not => "not"

def ofSymbol? (s : String) : Option UnaryOp := all.find? (·.symbol == s)

@[simp] theorem ofSymbol?_symbol (op : UnaryOp) : ofSymbol? op.symbol = some op := by
  cases op <;> decide

end UnaryOp

end ScopeScript
