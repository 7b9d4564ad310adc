import ScopeScript.Operator

/-!
# Programs

A program is an arena of numbered scopes. Its nodes are expressions and statements alike, and refer
to scopes by number, so a program may also be put together by hand: nothing says that a number is
that of a scope, or that a statement is not used as a value. The machine faults on such nodes.
-/

namespace ScopeScript

/-- How the store of a scope comes from the store around it. -/
inductive Capture where
  | shared
  | copied
  | fresh
  deriving DecidableEq, Repr

abbrev ScopeId := Nat

inductive Node where
  | number (value : Float) (offset : Nat)
  | text (value : String) (offset : Nat)
  | bool (value : Bool) (offset : Nat)
  | nil (offset : Nat)
  | var (name : String) (offset : Nat)
  | unary (op : UnaryOp) (operand : Node) (offset : Nat)
  | binary (op : BinaryOp) (left right : Node) (offset : Nat)
  | call (callee : Node) (args : List Node) (offset : Nat)
  | function (params : List String) (body : ScopeId) (offset : Nat)
  | scope (id : ScopeId) (offset : Nat)
  | bind (name : String) (value : Node) (isPublic : Bool) (offset : Nat)
  | set (name : String) (op : BinaryOp) (value : Node) (offset : Nat)
  | branch (condition : Node) (body : ScopeId) (offset : Nat)
  | print (value : Node) (offset : Nat)
  | result (value : Node) (offset : Nat)
  | empty (offset : Nat)

namespace Node

def offset : Node → Nat
  | .number _ o | .text _ o | .bool _ o | .nil o | .var _ o | .unary _ _ o | .binary _ _ _ o
  | .call _ _ o | .function _ _ o | .scope _ o | .bind _ _ _ o | .set _ _ _ o | .branch _ _ o
  | .print _ o | .result _ o | .empty o => o

mutual

def size : Node → Nat
  | .unary _ e _ | .bind _ e _ _ | .set _ _ e _ | .branch e _ _ | .print e _ | .result e _ =>
    e.size + 1
  | .binary _ l r _ => l.size + r.size + 1
  | .call f args _ => f.size + sizeAll args + 1
  | _ => 1

def sizeAll : List Node → Nat
  | [] => 0
  | n :: ns => n.size + sizeAll ns

end

end Node

/-- A scope as written: how its store is made, what it does, and where it opens. -/
structure Scope where
  id : ScopeId
  parent : Option ScopeId
  capture : Capture
  statements : List Node
  offset : Nat

/-- The number of nodes in scopes, and one for each scope. -/
def Scope.sizeAll : List Scope → Nat
  | [] => 0
  | s :: ss => Node.sizeAll s.statements + 1 + sizeAll ss

/-- An arena of scopes and the number of the outermost one. -/
structure Program where
  scopes : Array Scope
  root : ScopeId

namespace Program

def scope? (p : Program) (id : ScopeId) : Option Scope := p.scopes[id]?

def size (p : Program) : Nat := Scope.sizeAll p.scopes.toList

end Program

end ScopeScript
