import ScopeScript.Execution

/-!
# Reports on a terminal

How a fault and the global bindings are written, plainly or in colour.
-/

namespace ScopeScript.Report

inductive Ink where
  | red | yellow | cyan | white | darkGrey
  deriving DecidableEq, Repr

/-- What a terminal library makes of a text in a colour, plain or bold. -/
structure Stylist where
  paint : Ink → String → String
  paintBold : Ink → String → String

def Ink.code : Ink → String
  | .red => "9"
  | .yellow => "11"
  | .cyan => "14"
  | .white => "15"
  | .darkGrey => "8"

/-- The escape codes that the command is run with. -/
def Stylist.ansi : Stylist where
  paint ink s := "\x1b[38;5;" ++ ink.code ++ "m" ++ s ++ "\x1b[39m"
  paintBold ink s := "\x1b[38;5;" ++ ink.code ++ "m\x1b[1m" ++ s ++ "\x1b[0m"

variable (t : Stylist) (colour : Bool)

def diagnostic (d : Diagnostic) : String :=
  if colour then
    "\n".intercalate
      [t.paintBold .red d.stage.header, t.paint .darkGrey d.place, d.lineText,
        t.paintBold .red d.caret, t.paint .red d.message] ++ "\n"
  else d.display ++ "\n"

def binding (b : String × Value) : String :=
  if colour then t.paint .cyan b.1 ++ " = " ++ t.paint .white b.2.display ++ "\n"
  else b.1 ++ " = " ++ b.2.display ++ "\n"

def globalsHeading : String := "GLOBAL MEMORY:"

/-- The global bindings under their heading, between empty lines. -/
def globals (bs : List (String × Value)) : String :=
  "\n" ++ (if colour then t.paint .yellow globalsHeading else globalsHeading) ++ "\n" ++
    String.join (bs.map (binding t colour)) ++ "\n"

def output (e : Execution) : String := String.join (e.outputText.map (· ++ "\n"))

end ScopeScript.Report
