import ScopeScript.Diagnostic
import ScopeScript.Machine.Eval
import ScopeScript.Program.Layout
import ScopeScript.Token.Lexer
import ScopeScript.Tree.Parser

/-!
# From source to result

`compile` reads a source text into a program; `execute` also runs it and keeps what was printed
and bound, whether or not a fault ended the run.
-/

namespace ScopeScript

inductive Fault where
  | lex (fault : LexFault)
  | parse (fault : Tree.ParseFault)
  | run (halt : Halt)
  deriving DecidableEq

namespace Fault

def stage : Fault → Stage
  | .lex _ => .lexing
  | .parse _ => .parsing
  | .run _ => .running

def offset : Fault → Nat
  | .lex f => f.offset
  | .parse f => f.offset
  | .run h => h.offset

def message : Fault → String
  | .lex f => f.cause.message
  | .parse f => f.message
  | .run h => h.message

def diagnostic (f : Fault) (source label : String) : Diagnostic :=
  Diagnostic.locate f.stage f.offset f.message source label

end Fault

def Program.ofTokens (tokens : List Token) : Except Fault Program :=
  match Tree.parse tokens with
  | .error e => .error (.parse e)
  | .ok root => .ok (.ofTree root)

def compile (source : String) : Except Fault Program :=
  match Token.scan source with
  | .error e => .error (.lex e)
  | .ok tokens => Program.ofTokens tokens

/-- All that a run leaves behind. `last` is the offset of the statement started last, or that of the
fault if there was no program to run. -/
structure Execution where
  output : Transcript
  globals : List (String × Value)
  fault : Option Fault
  last : Nat

namespace Execution

def outputText (e : Execution) : List String := e.output.toList.map (·.text)

def ofMachine (m : Machine) (fault : Option Fault) : Execution :=
  { output := m.transcript, globals := m.bindings, fault, last := m.location }

end Execution

/-- Compiles a source text and runs it with a limit on the call depth. -/
def execute (source : String) (limit : Nat) : Execution :=
  match compile source with
  | .error f => { output := #[], globals := [], fault := some f, last := f.offset }
  | .ok program =>
    match Setup.run { program, limit } {} with
    | .ok _ m => .ofMachine m none
    | .error h m => .ofMachine m (some (.run h))

end ScopeScript
