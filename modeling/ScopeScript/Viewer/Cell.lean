import ScopeScript.Text.Cluster
import ScopeScript.Text.Width
import ScopeScript.Viewer.Screen

/-!
# Cells and boxes

A terminal whose screen is rows of cells. Text is cut into clusters; each is shown in one cell and
covers as many cells as it has columns, so the cells after a wide one stay blank. A row is cut or
filled up to a width, and a pane is a box with a title around rows. A cell that holds no text keeps
the style of the rectangle it is in.

Prose and list entries treat a cluster without columns in their own ways: prose drops it, and a list
entry shows it in the cell before it.
-/

namespace ScopeScript.Viewer

structure Cell where
  symbol : List Char
  style : Style
  deriving DecidableEq, Repr

namespace Cell

def blank (style : Style) : Cell := ⟨[' '], style⟩

def columns (c : Cell) : Nat := Text.width c.symbol

/-- The cell on top of a style. -/
def onTopOf (c : Cell) (below : Style) : Cell := { c with style := below.patch c.style }

/-- Shows one more cluster in a cell. -/
def append (c d : Cell) : Cell := ⟨c.symbol ++ d.symbol, c.style.patch d.style⟩

end Cell

abbrev Row := List Cell

def Span.columns (s : Span) : Nat := Text.width s.text

/-- The clusters of a span, each with its style, as far as a row of `width` columns can show them. A
newline takes no cell. -/
def Span.cells (width : Nat) (s : Span) : List Cell :=
  ((Text.clusters width s.text).filter (· != ['\n'])).map (⟨·, s.style⟩)

/-- Cuts a row, or fills it up with blanks. -/
def fit (width : Nat) (below : Style) (row : Row) : Row :=
  let cut := row.take width
  cut ++ List.replicate (width - cut.length) (.blank below)

/-- Fills a row up on its left, or cuts it on its right. -/
def fitRight (width : Nat) (below : Style) (row : Row) : Row :=
  let cut := row.take width
  List.replicate (width - cut.length) (.blank below) ++ cut

/-- The clusters that fit into `room` columns. One that is wider than the whole `width` is left
out. -/
def fitting (width room : Nat) : List Cell → List Cell
  | [] => []
  | c :: cs =>
    if width < c.columns then fitting width room cs
    else if room < c.columns then []
    else c :: fitting width (room - c.columns) cs

def covered (below : Style) (c : Cell) : Row :=
  match c.columns with
  | 0 => []
  | n + 1 => c.onTopOf below :: List.replicate n (.blank below)

def proseCells (width : Nat) (below : Style) (spans : List Span) : Row :=
  (fitting width width (spans.flatMap (Span.cells width))).flatMap (covered below)

/-- Draws clusters one after the other while there is room, after `row` (in reverse), which has
`used` columns. One without columns goes into the cell before it, and what comes after those that a
span starts with goes into their cell. A cell behind a wide one loses its style. -/
def drawEntry (room : Nat) (below : Style) (used : Nat) (row : Row) : List Cell → Row
  | [] => row
  | c :: cs =>
    if room < used + c.columns then row
    else
      let drawn :=
        match row with
        | [] => [c.onTopOf below]
        | last :: rest =>
          if used = 0 ∨ c.columns = 0 then last.append c :: rest
          else c.onTopOf below :: last :: rest
      drawEntry room below (used + c.columns)
        (List.replicate (c.columns - 1) (.blank {}) ++ drawn) cs

/-- The cells of a line of a list entry. A span without columns is not drawn. -/
def entryCells (below : Style) (room : Nat) : List Span → Row
  | [] => []
  | s :: ss =>
    if s.columns = 0 then entryCells below room ss
    else if room = 0 then []
    else
      (drawEntry room below 0 [] (s.cells room)).reverse ++ entryCells below (room - s.columns) ss

/-! ## Boxes -/

/-- Cuts a list of rows, or fills it up with blank ones. -/
def fitRows (height width : Nat) (below : Style) (rows : List Row) : List Row :=
  let cut := rows.take height
  cut ++ List.replicate (height - cut.length) (List.replicate width (.blank below))

/-- A box with a title around rows. Where there is no room for it, its lower edge is left out. -/
def box (height width : Nat) (style : Style) (title : List Char) (inside : List Row) : List Row :=
  let edge (left fill right : Char) (text : List Char) : Row :=
    (left :: (text ++ List.replicate (width - 2) fill).take (width - 2) ++ [right]).map
      (⟨[·], style⟩)
  let side : Cell := ⟨['│'], style⟩
  match height with
  | 0 => []
  | 1 => [edge '┌' '─' '┐' title]
  | rows + 2 =>
    edge '┌' '─' '┐' title ::
      (fitRows rows (width - 2) {} inside).map (fun row => side :: row ++ [side]) ++
      [edge '└' '─' '┘' []]

/-! ## Panels -/

/-- What a pane shows that has nothing to list: its whole inside has one colour. -/
def placeholder (rows columns : Nat) (style : Style) (text : List Char) : List Row :=
  fitRows (rows - 2) (columns - 2) style
    [fit (columns - 2) style (proseCells (columns - 2) style [⟨text, {}⟩])]

/-- The lines of list items that fit, each item shown whole or not at all. -/
def stack (room : Nat) : List (List (List Span)) → List (List Span)
  | [] => []
  | item :: items =>
    if item.length ≤ room then item ++ stack (room - item.length) items else []

/-- The rows of a list, some cells away from the border; `style` colours the rows of the items. -/
def listRows (rows columns padding : Nat) (style : Style) (items : List (List (List Span))) :
    List Row :=
  let room := columns - 2 - padding
  (stack (rows - 2) items).map fun spans =>
    List.replicate padding (.blank {}) ++ fit room style (entryCells style room spans)

/-- The lines of a printed text; an empty text is one empty line. -/
def printedLines (text : List Char) : List (List Char) :=
  if text.isEmpty then [[]] else Text.lines text

def Panel.cells (rows columns : Nat) (p : Panel) : List Row :=
  box rows columns p.border p.title
    (match p.content with
      | .lines ls =>
        ls.map fun spans => fit (columns - 2) {} (proseCells (columns - 2) {} spans)
      | .texts style ts =>
        listRows rows columns p.padding style
          (ts.map fun t => (printedLines t).map fun line => [⟨line, {}⟩])
      | .entries es => listRows rows columns p.padding {} (es.map ([·]))
      | .notice style text => placeholder rows columns style text)

def StatusBar.cells (left right : Nat) (b : StatusBar) : Row :=
  fit left b.style (proseCells left b.style b.left) ++
    fitRight right b.style (proseCells right b.style b.right)

structure StyleRun where
  cells : Nat
  style : Style
  deriving DecidableEq, Repr

/-- The styles of a row, equal neighbours taken together. -/
def styleRuns : Row → List StyleRun
  | [] => []
  | c :: row =>
    match styleRuns row with
    | r :: runs => if r.style = c.style then ⟨r.cells + 1, r.style⟩ :: runs
      else ⟨1, c.style⟩ :: r :: runs
    | [] => [⟨1, c.style⟩]

def rowText (row : Row) : String := String.ofList (row.flatMap (·.symbol))

end ScopeScript.Viewer
