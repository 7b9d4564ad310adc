import ScopeScript.Program.Basic
import ScopeScript.Tree.Parser

/-!
# Scripts for a cursor

A reader in one pass keeps a cursor: the tokens, a position in them, the arena of the scopes begun
so far, and the stack of those that are still open. What it does is a `Script`, a tree whose nodes
are the single accesses to the cursor; an answer decides how the script goes on. `Script.run` is the
run from a cursor, and `Script.points` lists the accesses of that run with the cursor each is made
at.
-/

namespace ScopeScript.Reader

open ScopeScript.Tree (Expected)

structure Cursor where
  tokens : List Token
  position : Nat
  /-- The scopes begun so far; those that are open have no statements yet. -/
  scopes : List Scope
  /-- The open scopes, the innermost one first. -/
  opened : List ScopeId

namespace Cursor

/-- The cursor at the first of these tokens. A `finish` is put behind them if they do not end with
one. -/
def start (tokens : List Token) : Cursor :=
  { tokens :=
      match tokens.getLast? with
      | some t => if t.kind = .finish then tokens else tokens ++ [⟨.finish, t.offset⟩]
      | none => [⟨.finish, 0⟩]
    position := 0, scopes := [], opened := [] }

def tokenAt (c : Cursor) (i : Nat) : Token := c.tokens[i]?.getD ⟨.finish, 0⟩

def current (c : Cursor) : Token := c.tokenAt (min c.position (c.tokens.length - 1))

def ahead? (c : Cursor) (n : Nat) : Option Token := c.tokens[c.position + n]?

def previous (c : Cursor) : Token := c.tokenAt (c.position - 1)

/-- The cursor behind the current token; a `finish` is never passed. -/
def next (c : Cursor) : Cursor :=
  if c.current.kind = .finish then c else { c with position := c.position + 1 }

def openScope (c : Cursor) (capture : Capture) (offset : Nat) : Cursor :=
  { c with
    scopes := c.scopes ++ [⟨c.scopes.length, c.opened.head?, capture, [], offset⟩]
    opened := c.scopes.length :: c.opened }

/-- The cursor after the innermost open scope has been filled with statements and closed. -/
def closeScope (c : Cursor) (statements : List Node) : Cursor :=
  { c with
    scopes := match c.opened with
      | id :: _ => c.scopes.modify id fun s => { s with statements }
      | [] => c.scopes
    opened := c.opened.tail }

end Cursor

/-! ## Scripts -/

/-- What a reader can miss: something among the tokens, or the scope it closes on top of the
stack. -/
inductive Missed where
  | token (expected : Expected)
  | innermost
  deriving DecidableEq

def Missed.text : Missed → String
  | .token e => e.text
  | .innermost => "end of the innermost scope"

/-- What is missed, and the token found instead. -/
structure Miss where
  missed : Missed
  found : Token
  deriving DecidableEq

namespace Miss

def offset (m : Miss) : Nat := m.found.offset

def message (m : Miss) : String :=
  "Expected " ++ m.missed.text ++ ", found " ++ m.found.kind.describe

end Miss

/-- A script that returns an `α`. `spent` is the end of a script that ran out of fuel. -/
inductive Script (α : Type) where
  | done (a : α)
  | miss (expected : Expected)
  | spent
  | peek (k : Token → Script α)
  | ahead (n : Nat) (k : Option Token → Script α)
  | advance (k : Token → Script α)
  | openScope (capture : Capture) (offset : Nat) (k : ScopeId → Script α)
  | closeScope (id : ScopeId) (statements : List Node) (k : Script α)

inductive Outcome (α : Type) where
  | ok (a : α) (c : Cursor)
  | failed (m : Miss) (c : Cursor)
  | spent

inductive Access where
  | peek
  | ahead (n : Nat)
  | advance
  | openScope
  | closeScope (id : ScopeId)
  deriving DecidableEq, Repr

/-- An access and the cursor at which it is made. -/
structure Point where
  access : Access
  cursor : Cursor

namespace Script

variable {α β : Type}

def bind : Script α → (α → Script β) → Script β
  | .done a, f => f a
  | .miss e, _ => .miss e
  | .spent, _ => .spent
  | .peek k, f => .peek fun t => (k t).bind f
  | .ahead n k, f => .ahead n fun t => (k t).bind f
  | .advance k, f => .advance fun t => (k t).bind f
  | .openScope capture o k, f => .openScope capture o fun id => (k id).bind f
  | .closeScope id ss k, f => .closeScope id ss (k.bind f)

instance : Monad Script where
  pure := .done
  bind := .bind

def run : Script α → Cursor → Outcome α
  | .done a, c => .ok a c
  | .miss e, c => .failed ⟨.token e, c.current⟩ c
  | .spent, _ => .spent
  | .peek k, c => (k c.current).run c
  | .ahead n k, c => (k (c.ahead? n)).run c
  | .advance k, c => (k c.next.previous).run c.next
  | .openScope capture o k, c => (k c.scopes.length).run (c.openScope capture o)
  | .closeScope id ss k, c =>
    if c.opened.head? = some id then k.run (c.closeScope ss)
    else .failed ⟨.innermost, c.current⟩ { c with opened := c.opened.tail }

/-- The accesses of the run of a script. A failure looks at the token it is reported at. -/
def points : Script α → Cursor → List Point
  | .done _, _ => []
  | .miss _, c => [⟨.peek, c⟩]
  | .spent, _ => []
  | .peek k, c => ⟨.peek, c⟩ :: (k c.current).points c
  | .ahead n k, c => ⟨.ahead n, c⟩ :: (k (c.ahead? n)).points c
  | .advance k, c => ⟨.advance, c⟩ :: (k c.next.previous).points c.next
  | .openScope capture o k, c =>
    ⟨.openScope, c⟩ :: (k c.scopes.length).points (c.openScope capture o)
  | .closeScope id ss k, c =>
    ⟨.closeScope id, c⟩ ::
      if c.opened.head? = some id then k.points (c.closeScope ss)
      else [⟨.peek, { c with opened := c.opened.tail }⟩]

end Script

end ScopeScript.Reader
