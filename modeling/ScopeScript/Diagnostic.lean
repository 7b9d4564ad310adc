import ScopeScript.Number.Decimal
import ScopeScript.Text.Blank
import ScopeScript.Text.Bytes

/-!
# Fault reports

A diagnostic pins a fault to a line of its source: the number and text of the line, the column in
characters, and a caret line that keeps tabs so that the caret stands under the fault. An offset
that is past the end or inside a character goes back to the last character boundary before it.
-/

namespace ScopeScript

inductive Stage where
  | lexing
  | parsing
  | running
  deriving DecidableEq, Repr

def Stage.header : Stage → String
  | .lexing => "Lexing Error"
  | .parsing => "Parse Error"
  | .running => "Runtime Error"

namespace Text

/-- What stands after the last newline. -/
def lastLine (cs : List Char) : List Char := (cs.reverse.takeWhile (· != '\n')).reverse

/-- The byte offset at which the last line starts, behind the last newline. -/
def lineStart (cs : List Char) : Nat := byteLength (dropEndWhile (· != '\n') cs)

/-- The number of the line in which the text ends. -/
def lineNumber (cs : List Char) : Nat := cs.count '\n' + 1

end Text

structure Diagnostic where
  stage : Stage
  label : String
  line : Nat
  column : Nat
  lineText : String
  caret : String
  message : String
  deriving DecidableEq, Repr

namespace Diagnostic

/-- The number of the line that holds a byte offset. -/
def lineNumber (source : String) (offset : Nat) : Nat :=
  Text.lineNumber (Text.splitAtByte offset source.toList).1

def locate (stage : Stage) (offset : Nat) (message source label : String) : Diagnostic :=
  let (before, after) := Text.splitAtByte offset source.toList
  let lead := Text.lastLine before
  let line := lead ++ after.takeWhile (· != '\n')
  { stage, label, message
    line := lineNumber source (Text.lineStart before)
    column := lead.length + 1
    lineText := String.ofList (Text.dropEndWhile (· == '\r') line)
    caret := String.ofList (lead.map (fun c => if c = '\t' then '\t' else ' ') ++ ['^']) }

def place (d : Diagnostic) : String :=
  d.label ++ ": Line " ++ String.ofList (Decimal.digits d.line)

def display (d : Diagnostic) : String :=
  "\n".intercalate [d.stage.header, d.place, d.lineText, d.caret, d.message]

end Diagnostic

end ScopeScript
