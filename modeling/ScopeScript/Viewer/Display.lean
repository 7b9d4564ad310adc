import ScopeScript.Viewer.Cell
import ScopeScript.Viewer.Session

/-!
# What the terminal shows

Only the cells that change are sent to the terminal. A cell behind a wide one is covered by it and
is not sent, so the terminal keeps what it had there before; a cell that a wide one no longer covers
is sent even if it did not change. `Display.draw` says what the terminal shows after a screen.
-/

namespace ScopeScript.Viewer

namespace Size

def paneRows (z : Size) : Nat := z.height - 1

/-- The rows of the output pane. -/
def outputRows (z : Size) : Nat := z.paneRows / 2

/-- The rows of the globals pane, below the output pane. -/
def globalsRows (z : Size) : Nat := z.paneRows - z.outputRows

/-- The columns of the source pane and of the left half of the status bar. -/
def leftColumns (z : Size) : Nat := z.width * 6 / 10

/-- The columns of the lists and of the right half of the status bar. -/
def rightColumns (z : Size) : Nat := z.width - z.leftColumns

end Size

def Screen.cells (z : Size) (s : Screen) : List Row :=
  let lists := s.output.cells z.outputRows z.rightColumns ++
    s.globals.cells z.globalsRows z.rightColumns
  List.zipWith (· ++ ·) (s.source.cells z.paneRows z.leftColumns) lists ++
    [s.status.cells z.leftColumns z.rightColumns]

/-- What a row shows after the screen's row went from `before` to `next`. The next `covered` cells
are behind a wide one, the next `stale` ones are or were. -/
def refreshRow (covered stale : Nat) : (before next shown : Row) → Row
  | b :: before, n :: next, s :: shown =>
    (if covered = 0 ∧ (n ≠ b ∨ 0 < stale) then n else s) ::
      refreshRow (n.columns - 1) (max (max n.columns b.columns) stale - 1) before next shown
  | _, _, shown => shown

/-- The last screen that was drawn, and what the terminal shows. -/
structure Display where
  screen : List Row
  shown : List Row
  deriving DecidableEq, Repr

namespace Display

def blank (z : Size) : Display :=
  let rows := List.replicate z.height (List.replicate z.width (.blank {}))
  ⟨rows, rows⟩

def draw (screen : List Row) (d : Display) : Display :=
  let rows := (d.screen.zip screen).zip d.shown
  ⟨screen, rows.map fun ((before, next), shown) => refreshRow 0 0 before next shown⟩

end Display

def Terminal.ofCells : Terminal Display where
  heights z := ⟨z.paneRows, z.outputRows, z.globalsRows⟩
  blank := .blank
  draw z s := .draw (s.cells z)

namespace Session

def start (z : Size) (s : Subject) : Session Display := Terminal.ofCells.start z s

def press (z : Size) (s : Subject) (v : Session Display) (key : Key) : Session Display :=
  Terminal.ofCells.press z s v key

end Session

end ScopeScript.Viewer
