import ScopeScript.Viewer.Highlight
import ScopeScript.Viewer.State

/-!
# The screen of the viewer

Each draw hands the terminal three panels and a status bar. A panel is a border with a title around
lines of text, the items of a list, or a notice that there are none. How a panel comes out in cells
is up to the terminal.
-/

namespace ScopeScript.Viewer

/-- What is inside the border of a panel. -/
inductive Content where
  | lines (ls : List (List Span))
  /-- The items of a list, each a plain text in the style. -/
  | texts (style : Style) (ts : List (List Char))
  /-- The items of a list, each one line. -/
  | entries (es : List (List Span))
  | notice (style : Style) (text : List Char)
  deriving DecidableEq, Repr

/-- A panel; `padding` is the number of columns left free behind its left border. -/
structure Panel where
  title : List Char
  border : Style
  padding : Nat := 0
  content : Content
  deriving DecidableEq, Repr

/-- A line of two halves, the second of them set to the right. -/
structure StatusBar where
  style : Style
  left : List Span
  right : List Span
  deriving DecidableEq, Repr

structure Screen where
  source : Panel
  output : Panel
  globals : Panel
  status : StatusBar
  deriving DecidableEq, Repr

/-- The number of a line, right-aligned in four columns. -/
def numberText (n : Nat) : List Char :=
  let ds := Decimal.digits n
  List.replicate (4 - ds.length) ' ' ++ ds ++ [' ']

/-- A numbered line of source. A fault replaces all styles of its line; the line of the statement
started last only gets another background. -/
def sourceLine (marked faulty : Bool) (number : Nat) (line : List Char) : List Span :=
  let spans := highlight line
  if marked && faulty then
    ⟨numberText number, { fg := some Palette.fault, bold := true }⟩ ::
      spans.map fun s =>
        { s with style := { fg := some .white, bg := some Palette.fault, bold := true } }
  else if marked then
    ⟨numberText number, { fg := some Palette.ok, bold := true }⟩ ::
      spans.map fun s => { s with style := s.style.patch { bg := some Palette.band } }
  else ⟨numberText number, .ofFg Palette.muted⟩ :: spans

def visibleSource (rows : Nat) (s : Subject) (st : State) : List (List Span) :=
  ((s.sourceLines.zipIdx 1).drop st.sourceScroll |>.take (visibleRows rows)).map fun (line, n) =>
    sourceLine (n == s.markedLine) s.execution.fault.isSome n line

def sourcePanel (rows : Nat) (s : Subject) (st : State) : Panel :=
  { title := " Source Code ".toList
    border := .border (st.focus == .source)
    content := .lines (visibleSource rows s st) }

def outputPanel (rows : Nat) (s : Subject) (st : State) : Panel :=
  let lines := s.execution.output.toList
  let title := " Output ".toList
  let border := Style.border (st.focus == .output)
  if lines.isEmpty then
    { title, border, content := .notice (.ofFg Palette.muted) "(no output)".toList }
  else
    let visible := (lines.drop st.outputScroll).take (visibleRows rows)
    { title, border
      padding := 1
      content := .texts (.ofFg Palette.text) (visible.map (·.text.toList)) }

def valueStyle (v : Value) : Style :=
  .ofFg (match v with
    | .number _ | .bool _ => Palette.literal
    | .text _ => Palette.string
    | .function _ | .native _ => Palette.callable
    | .error _ => Palette.fault
    | .nil => Palette.muted)

def bindingLine (name : String) (v : Value) : List Span :=
  [⟨name.toList, .ofFg Palette.binding⟩, ⟨" = ".toList, .ofFg Palette.muted⟩,
    ⟨v.display.toList, valueStyle v⟩]

def globalsPanel (rows : Nat) (s : Subject) (st : State) : Panel :=
  let bindings := s.execution.globals
  let title := " Global Memory ".toList
  let border := Style.border (st.focus == .globals)
  if bindings.isEmpty then
    { title, border, content := .notice (.ofFg Palette.muted) "(no bindings)".toList }
  else
    let visible := (bindings.drop st.globalsScroll).take (visibleRows rows)
    { title, border
      padding := 1
      content := .entries (visible.map fun b => bindingLine b.1 b.2) }

/-- The left half of the status bar: the outcome of the run. -/
def statusLeft (s : Subject) : List Span :=
  let faulty := s.execution.fault.isSome
  let band := some Palette.band
  let badge := if faulty then Palette.fault else Palette.ok
  [⟨(if faulty then " FAULT " else " OK ").toList,
      { fg := some .black, bg := some badge, bold := true }⟩,
    ⟨(" " ++ s.label ++ " ").toList, { fg := some Palette.keyword, bg := band }⟩,
    ⟨" | ".toList, { fg := some Palette.muted, bg := band }⟩,
    ⟨(" " ++ s.status ++ " ").toList,
      { fg := some (if faulty then Palette.fault else Palette.text), bg := band }⟩]

/-- The right half of the status bar: the keys. -/
def statusRight : List Span :=
  let key : Style := { fg := some .black, bg := some Palette.muted }
  let words : Style := { fg := some Palette.text, bg := some Palette.band }
  let bar : Style := { fg := some Palette.muted, bg := some Palette.band }
  [⟨" ⇥ ".toList, key⟩, ⟨" focus ".toList, words⟩, ⟨"│".toList, bar⟩, ⟨" ".toList, words⟩,
    ⟨" ↑/↓ ".toList, key⟩, ⟨" scroll ".toList, words⟩, ⟨"│".toList, bar⟩, ⟨" ".toList, words⟩,
    ⟨"q".toList, key⟩, ⟨" quit ".toList, words⟩]

/-- The screen of a state whose scroll offsets are settled. -/
def screen (h : Heights) (s : Subject) (st : State) : Screen :=
  { source := sourcePanel h.source s st
    output := outputPanel h.output s st
    globals := globalsPanel h.globals s st
    status := { style := { bg := some Palette.band }, left := statusLeft s, right := statusRight } }

end ScopeScript.Viewer
