import ScopeScript.Token.Basic
import ScopeScript.Number.Decimal
import ScopeScript.Text.Blank
import ScopeScript.Text.Escaped

/-!
# Tokens as text

`source` writes a token so that it reads back as itself; `describe` names it in a message.
Inside a text literal a control character is written by its decimal code. Such a code runs up to
the first character that is no digit, so a digit right after one is written by its code as well.
-/

namespace ScopeScript.Token

def decimalEscape (c : Char) : List Char := '\\' :: Decimal.digits c.toNat

/-- The inside of a text literal; `afterCode` when a decimal code stands right before it. -/
def literalBody : Bool → List Char → List Char
  | _, [] => []
  | afterCode, c :: cs =>
    match c with
    | '\n' => '\\' :: 'n' :: literalBody false cs
    | '\t' => '\\' :: 't' :: literalBody false cs
    | '\\' => '\\' :: '\\' :: literalBody false cs
    | '"' => '\\' :: '"' :: literalBody false cs
    | c =>
      if Text.isControl c || (afterCode && c.isDigit) then decimalEscape c ++ literalBody true cs
      else c :: literalBody false cs

def literal (s : String) : String :=
  String.ofList ('"' :: literalBody false s.toList ++ ['"'])

namespace Kind

/-- Source text that reads back as this kind; none for the end of the input. -/
def source : Kind → String
  | .number x => Decimal.plain x
  | .text s => literal s
  | .name s => s
  | .keyword k => k.spelling
  | .sign g => g.spelling
  | .finish => ""

def describe : Kind → String
  | .number x => "number " ++ Decimal.plain x
  | .text s => "string \"" ++ String.ofList (Text.escaped s.toList) ++ "\""
  | .name s => "identifier '" ++ s ++ "'"
  | .keyword k => "'" ++ k.spelling ++ "'"
  | .sign g => "'" ++ g.spelling ++ "'"
  | .finish => "end of file"

end Kind

end ScopeScript.Token
