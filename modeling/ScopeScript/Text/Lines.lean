/-!
# Lines of a text

A text is cut after each newline. A carriage return in front of the newline belongs to the line end;
a last line without a newline counts only if it is not empty.
-/

namespace ScopeScript.Text

/-- A line, given in reverse, without a carriage return at its end. -/
def endLine : List Char → List Char
  | '\r' :: line => line.reverse
  | line => line.reverse

/-- The lines of a text; `line` holds what stands before it on its first line, in reverse. -/
def linesFrom (line : List Char) : List Char → List (List Char)
  | [] => if line.isEmpty then [] else [line.reverse]
  | '\n' :: cs => endLine line :: linesFrom [] cs
  | c :: cs => linesFrom (c :: line) cs

def lines (cs : List Char) : List (List Char) := linesFrom [] cs

end ScopeScript.Text
