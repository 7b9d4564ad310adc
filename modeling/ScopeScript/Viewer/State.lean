import ScopeScript.Execution
import ScopeScript.Text.Lines

/-!
# The state of the viewer

What is shown, which pane has the focus, and how far each pane is scrolled. Keys move the focus or
the focused pane; drawing pulls a scroll offset back so that the last page stays full, except
in a list that has nothing to show.
-/

namespace ScopeScript.Viewer

/-- A finished run with its source and the name of its file. -/
structure Subject where
  execution : Execution
  source : String
  label : String

namespace Subject

def diagnostic? (s : Subject) : Option Diagnostic :=
  s.execution.fault.map (·.diagnostic s.source s.label)

/-- The line of the fault, or that of the statement started last. -/
def markedLine (s : Subject) : Nat :=
  match s.diagnostic? with
  | some d => d.line
  | none => Diagnostic.lineNumber s.source s.execution.last

/-- The outcome of the run in one line. -/
def status (s : Subject) : String :=
  match s.diagnostic? with
  | some d =>
    d.stage.header ++ " on line " ++ String.ofList (Decimal.digits d.line) ++ ": " ++ d.message
  | none =>
    "Finished: " ++ String.ofList (Decimal.digits s.execution.output.size) ++
      " line(s) printed, " ++ String.ofList (Decimal.digits s.execution.globals.length) ++
      " global(s)"

def sourceLines (s : Subject) : List (List Char) := Text.lines s.source.toList

end Subject

inductive Pane where
  | source
  | output
  | globals
  deriving DecidableEq, Repr

namespace Pane

def next : Pane → Pane
  | .source => .output
  | .output => .globals
  | .globals => .source

def previous : Pane → Pane
  | .source => .globals
  | .output => .source
  | .globals => .output

end Pane

/-- The keys that mean something; every other key is `other`. -/
inductive Key where
  | quit | tab | backTab | up | down | pageUp | pageDown | other
  deriving DecidableEq, Repr

def Key.ofChar (c : Char) : Key := if c = 'q' ∨ c = 'Q' then .quit else .other

structure State where
  focus : Pane
  sourceScroll : Nat
  outputScroll : Nat
  globalsScroll : Nat
  quit : Bool
  deriving DecidableEq, Repr

def largestScroll : Nat := twoPow 64 - 1

/-- An offset moved down, held at the largest one. -/
def scrollDown (n offset : Nat) : Nat := min (offset + n) largestScroll

/-- An offset that keeps the last page full. -/
def clamp (offset total visible : Nat) : Nat :=
  if visible < total then min offset (total - visible) else 0

/-- A settled offset leaves a full page. -/
theorem clamp_le (offset total visible : Nat) : clamp offset total visible ≤ total - visible := by
  unfold clamp
  split <;> omega

/-- Settling only moves an offset back. -/
theorem clamp_le_offset (offset total visible : Nat) : clamp offset total visible ≤ offset := by
  unfold clamp
  split <;> omega

/-- Settling twice is settling once. -/
@[simp] theorem clamp_clamp (offset total visible : Nat) :
    clamp (clamp offset total visible) total visible = clamp offset total visible := by
  unfold clamp
  split <;> omega

namespace State

/-- At the start the marked line is a few lines below the top, and the output is at its end. -/
def start (s : Subject) : State :=
  { focus := .source
    sourceScroll := s.markedLine - 4
    outputScroll := largestScroll
    globalsScroll := 0
    quit := false }

def scroll (s : State) (f : Nat → Nat) : State :=
  match s.focus with
  | .source => { s with sourceScroll := f s.sourceScroll }
  | .output => { s with outputScroll := f s.outputScroll }
  | .globals => { s with globalsScroll := f s.globalsScroll }

def press (s : State) : Key → State
  | .quit => { s with quit := true }
  | .tab => { s with focus := s.focus.next }
  | .backTab => { s with focus := s.focus.previous }
  | .up => s.scroll (· - 1)
  | .down => s.scroll (scrollDown 1)
  | .pageUp => s.scroll (· - 10)
  | .pageDown => s.scroll (scrollDown 10)
  | .other => s

end State

structure Size where
  width : Nat
  height : Nat
  deriving DecidableEq, Repr

/-- The rows of each pane, its border included. -/
structure Heights where
  source : Nat
  output : Nat
  globals : Nat
  deriving DecidableEq, Repr

/-- The rows inside the border of a pane, but at least one. -/
def visibleRows (rows : Nat) : Nat := max (rows - 2) 1

/-- The scroll offsets after drawing panes of these heights. -/
def settle (h : Heights) (s : Subject) (st : State) : State :=
  { st with
    sourceScroll := clamp st.sourceScroll s.sourceLines.length (visibleRows h.source)
    outputScroll :=
      if s.execution.output.isEmpty then st.outputScroll
      else clamp st.outputScroll s.execution.output.size (visibleRows h.output)
    globalsScroll :=
      if s.execution.globals.isEmpty then st.globalsScroll
      else clamp st.globalsScroll s.execution.globals.length (visibleRows h.globals) }

end ScopeScript.Viewer
