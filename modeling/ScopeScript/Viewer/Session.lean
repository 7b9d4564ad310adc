import ScopeScript.Viewer.Screen

/-!
# The viewer at work

The viewer settles the scroll offsets, has its screen drawn and handles a key, over and over. A
`Terminal` is all that it takes from the library that draws: how many rows each pane gets, and what
is on display after a screen was drawn.
-/

namespace ScopeScript.Viewer

/-- A terminal with displays of type `δ`: the rows of the panes on a screen of some size, the
display before the first screen, and that after one more screen. -/
structure Terminal (δ : Type) where
  heights : Size → Heights
  blank : Size → δ
  draw : Size → Screen → δ → δ

structure Session (δ : Type) where
  state : State
  display : δ

variable {δ : Type}

/-- Goes on after a key that quits. -/
def Session.resume (v : Session δ) : Session δ := { v with state := { v.state with quit := false } }

namespace Terminal

variable (t : Terminal δ)

def redraw (z : Size) (s : Subject) (v : Session δ) : Session δ :=
  let h := t.heights z
  let state := settle h s v.state
  ⟨state, t.draw z (screen h s state) v.display⟩

def start (z : Size) (s : Subject) : Session δ := t.redraw z s ⟨.start s, t.blank z⟩

/-- The viewer after a key and the screen that follows it. -/
def press (z : Size) (s : Subject) (v : Session δ) (key : Key) : Session δ :=
  t.redraw z s { v with state := v.state.press key }

end Terminal

end ScopeScript.Viewer
