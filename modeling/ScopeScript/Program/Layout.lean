import ScopeScript.Program.Basic
import ScopeScript.Tree.Basic

/-!
# From trees to programs

`Program.ofTree` numbers the blocks of a tree in the order in which they open and puts each into
the arena at its number. The outermost block starts with a fresh store, a function body with a
copy of its closure's store, and every other block shares the store around it.

Each function takes the number of the scope it is in and the next free number, and returns
the scopes it used up from there.
-/

namespace ScopeScript

namespace Layout

open ScopeScript.Tree

mutual

def expr (parent next : ScopeId) : Expr → Node × List Scope
  | .number x o => (.number x o, [])
  | .text s o => (.text s o, [])
  | .bool b o => (.bool b o, [])
  | .nil o => (.nil o, [])
  | .var s o => (.var s o, [])
  | .unary op e o =>
    let (n, used) := expr parent next e
    (.unary op n o, used)
  | .binary op l r o =>
    let (nl, usedL) := expr parent next l
    let (nr, usedR) := expr parent (next + usedL.length) r
    (.binary op nl nr o, usedL ++ usedR)
  | .call f args o =>
    let (nf, usedF) := expr parent next f
    let (ns, used) := exprs parent (next + usedF.length) args
    (.call nf ns o, usedF ++ used)
  | .function params body o =>
    (.function params next o, block (some parent) .copied next body)
  | .scope body o => (.scope next o, block (some parent) .shared next body)

def exprs (parent next : ScopeId) : List Expr → List Node × List Scope
  | [] => ([], [])
  | e :: es =>
    let (n, used) := expr parent next e
    let (ns, more) := exprs parent (next + used.length) es
    (n :: ns, used ++ more)

def stmt (parent next : ScopeId) : Stmt → Node × List Scope
  | .bind s e isPublic o =>
    let (n, used) := expr parent next e
    (.bind s n isPublic o, used)
  | .set s op e o =>
    let (n, used) := expr parent next e
    (.set s op n o, used)
  | .branch e body o =>
    let (n, used) := expr parent next e
    (.branch n (next + used.length) o,
      used ++ block (some parent) .shared (next + used.length) body)
  | .print e o =>
    let (n, used) := expr parent next e
    (.print n o, used)
  | .result e o =>
    let (n, used) := expr parent next e
    (.result n o, used)
  | .block body o => (.scope next o, block (some parent) .shared next body)
  | .eval e => expr parent next e
  | .empty o => (.empty o, [])

def stmts (parent next : ScopeId) : List Stmt → List Node × List Scope
  | [] => ([], [])
  | s :: ss =>
    let (n, used) := stmt parent next s
    let (ns, more) := stmts parent (next + used.length) ss
    (n :: ns, used ++ more)

/-- The scopes of a block: the block itself at number `id`, then those inside it. -/
def block (parent : Option ScopeId) (capture : Capture) (id : ScopeId) : Block → List Scope
  | .mk statements o =>
    let (ns, used) := stmts id (id + 1) statements
    ⟨id, parent, capture, ns, o⟩ :: used

end

end Layout

def Program.ofTree (root : Tree.Block) : Program :=
  { scopes := (Layout.block none .fresh 0 root).toArray, root := 0 }

end ScopeScript
