import ScopeScript.Text.Printable
import ScopeScript.Text.Extender

/-!
# Escaped text

Two ways to show text on one line. `escaped` is used inside a description: it escapes both
quotes, and a combining character only where it would join the opening quote. `quoted` writes
a double-quoted text of its own: the single quote stands for itself and every combining
character is escaped. A character without a form of its own is `\u` and its code point in
hexadecimal.
-/

namespace ScopeScript.Text

/-- The hexadecimal digits of a number, in lower case. -/
def hexadecimal (n : Nat) : List Char := Nat.toDigits 16 n

/-- A character by its code point. -/
def byCode (c : Char) : List Char :=
  '\\' :: 'u' :: '{' :: hexadecimal c.toNat ++ ['}']

/-- The escapes that both forms share. -/
def shortEscape (c : Char) : Option (List Char) :=
  if c.toNat = 0 then some ['\\', '0']
  else match c with
    | '\t' => some ['\\', 't']
    | '\r' => some ['\\', 'r']
    | '\n' => some ['\\', 'n']
    | '\\' => some ['\\', '\\']
    | '"' => some ['\\', '"']
    | _ => none

/-- A character inside a description; `joins` when nothing of the text stands before it. -/
def describe (joins : Bool) (c : Char) : List Char :=
  match shortEscape c with
  | some cs => cs
  | none =>
    if c = '\'' then ['\\', '\'']
    else if (joins && isExtender c) || !isPrintable c then byCode c
    else [c]

def escaped : List Char → List Char
  | [] => []
  | c :: cs => describe true c ++ cs.flatMap (describe false)

/-- A character inside double quotes. -/
def quotedChar (c : Char) : List Char :=
  match shortEscape c with
  | some cs => cs
  | none => if isExtender c || !isPrintable c then byCode c else [c]

def quoted (cs : List Char) : List Char :=
  '"' :: cs.flatMap quotedChar ++ ['"']

end ScopeScript.Text
