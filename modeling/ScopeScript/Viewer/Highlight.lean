import ScopeScript.Text.Alphanumeric
import ScopeScript.Viewer.Style

/-!
# Highlighting a line of source

`highlight` colours a line without reading its tokens, so that it also works on source that has
none. It goes through the line one character at a time, either between texts, with the current word,
or inside a text.
-/

namespace ScopeScript.Viewer

namespace Highlight

/-- The words that start a statement or a function. -/
def leadingWords : List String := ["let", "pub", "fn", "if", "return", "print"]

def isNumeral : List Char → Bool
  | c :: _ => c.isDigit || c == '.'
  | [] => false

/-- The style of a word; `called` when a parenthesis opens right after it. -/
def wordStyle (word : List Char) (called : Bool) : Style :=
  let spelling := String.ofList word
  if leadingWords.contains spelling then { fg := some Palette.keyword, bold := true }
  else if ["and", "or", "not"].contains spelling then .ofFg Palette.keyword
  else if ["true", "false"].contains spelling then .ofFg Palette.literal
  else if isNumeral word then .ofFg Palette.literal
  else if called then .ofFg Palette.callable
  else .ofFg Palette.text

def isWordPart (c : Char) : Bool := Text.isAlphanumeric c || c == '_' || c == '.'

def signStyle (c : Char) : Style :=
  match c with
  | '{' | '}' | '(' | ')' => .ofFg Palette.keyword
  | _ => .ofFg Palette.text

/-- Between texts, with the current word in reverse; or inside a text that `quote` opened, with its
characters in reverse, where `escaped` is set after a backslash. -/
inductive State where
  | word (read : List Char)
  | text (quote : Char) (escaped : Bool) (read : List Char)
  deriving DecidableEq, Repr

/-- Adds the word that ends here, if there is one, to the spans (in reverse). -/
def flush (read : List Char) (called : Bool) (spans : List Span) : List Span :=
  if read.isEmpty then spans else ⟨read.reverse, wordStyle read.reverse called⟩ :: spans

def flushText (read : List Char) (spans : List Span) : List Span :=
  ⟨read.reverse, .ofFg Palette.string⟩ :: spans

/-- The spans of the rest of a line, after those already made (in reverse). -/
def spansFrom : State → List Char → List Span → List Span
  | .word read, [], spans => (flush read false spans).reverse
  | .text _ _ read, [], spans => (flushText read spans).reverse
  | .word read, c :: cs, spans =>
    if c = '#' then (⟨c :: cs, .ofFg Palette.muted⟩ :: flush read false spans).reverse
    else if c = '"' ∨ c = '\'' then spansFrom (.text c false [c]) cs (flush read false spans)
    else if isWordPart c then spansFrom (.word (c :: read)) cs spans
    else spansFrom (.word []) cs (⟨[c], signStyle c⟩ :: flush read (c == '(') spans)
  | .text quote true read, c :: cs, spans => spansFrom (.text quote false (c :: read)) cs spans
  | .text quote false read, c :: cs, spans =>
    if c = quote then spansFrom (.word []) cs (flushText (c :: read) spans)
    else spansFrom (.text quote (c == '\\') (c :: read)) cs spans

end Highlight

def highlight (line : List Char) : List Span := Highlight.spansFrom (.word []) line []

end ScopeScript.Viewer
