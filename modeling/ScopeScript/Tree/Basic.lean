import ScopeScript.Operator

/-!
# Syntax trees

What the parser reads: expressions, statements and blocks, each with the byte offset it is
reported at. A statement never stands where a value is needed; the types keep the two apart. The
body of a function and a scope used as a value are blocks inside an expression.
-/

namespace ScopeScript.Tree

mutual

inductive Expr where
  | number (value : Float) (offset : Nat)
  | text (value : String) (offset : Nat)
  | bool (value : Bool) (offset : Nat)
  | nil (offset : Nat)
  | var (name : String) (offset : Nat)
  | unary (op : UnaryOp) (operand : Expr) (offset : Nat)
  | binary (op : BinaryOp) (left right : Expr) (offset : Nat)
  | call (callee : Expr) (args : List Expr) (offset : Nat)
  | function (params : List String) (body : Block) (offset : Nat)
  | scope (body : Block) (offset : Nat)

inductive Stmt where
  | bind (name : String) (value : Expr) (isPublic : Bool) (offset : Nat)
  | set (name : String) (op : BinaryOp) (value : Expr) (offset : Nat)
  | branch (condition : Expr) (body : Block) (offset : Nat)
  | print (value : Expr) (offset : Nat)
  | result (value : Expr) (offset : Nat)
  | block (body : Block) (offset : Nat)
  | eval (value : Expr)
  | empty (offset : Nat)

inductive Block where
  | mk (statements : List Stmt) (offset : Nat)

end

namespace Expr

def offset : Expr → Nat
  | .number _ o | .text _ o | .bool _ o | .nil o | .var _ o | .unary _ _ o | .binary _ _ _ o
  | .call _ _ o | .function _ _ o | .scope _ o => o

end Expr

namespace Stmt

/-- An expression or a block in last place is the value of its scope. -/
def promote : Stmt → Stmt
  | .eval e => .result e e.offset
  | .block b o => .result (.scope b o) o
  | s => s

end Stmt

/-- Promotes the first of statements in reverse order. -/
def promoteHead : List Stmt → List Stmt
  | [] => []
  | s :: ss => s.promote :: ss

end ScopeScript.Tree
