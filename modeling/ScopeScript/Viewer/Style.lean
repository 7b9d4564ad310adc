/-!
# Styles and spans

The colours of the viewer and the styled pieces of text that its lines are made of.
-/

namespace ScopeScript.Viewer

inductive Colour where
  | rgb (red green blue : UInt8)
  | white
  | black
  deriving DecidableEq, Repr

namespace Palette

def text : Colour := .rgb 205 214 244
/-- Line numbers, comments, separators, placeholders and idle borders. -/
def muted : Colour := .rgb 108 112 134
/-- Keywords, brackets and the file label. -/
def keyword : Colour := .rgb 137 180 250
/-- Numbers and truth values. -/
def literal : Colour := .rgb 250 179 135
def string : Colour := .rgb 166 227 161
/-- Called names and function values. -/
def callable : Colour := .rgb 249 226 175
def binding : Colour := .rgb 148 226 213
def fault : Colour := .rgb 243 139 168
def ok : Colour := .rgb 166 227 161
/-- The background of the marked line and of the status bar. -/
def band : Colour := .rgb 50 50 70
def focusBorder : Colour := .rgb 249 226 175

end Palette

/-- A style; what is unset keeps what was there before. -/
structure Style where
  fg : Option Colour := none
  bg : Option Colour := none
  bold : Bool := false
  deriving DecidableEq, Repr

namespace Style

def ofFg (c : Colour) : Style := { fg := some c }

def patch (below above : Style) : Style :=
  { fg := above.fg.or below.fg
    bg := above.bg.or below.bg
    bold := below.bold || above.bold }

def border (focused : Bool) : Style :=
  if focused then { fg := some Palette.focusBorder, bold := true } else ofFg Palette.muted

end Style

structure Span where
  text : List Char
  style : Style
  deriving DecidableEq, Repr

end ScopeScript.Viewer
