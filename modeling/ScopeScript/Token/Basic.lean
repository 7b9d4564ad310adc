/-!
# Tokens

A token is a kind and the byte offset where it starts. Keywords and signs have one spelling
each; numbers, texts and names carry what they denote.
-/

namespace ScopeScript

inductive Keyword where
  | true | false | print | let | pub | return | fn | if | and | or | not
  deriving DecidableEq, Repr

inductive Sign where
  | plus | minus | star | slash | slashSlash | caret | percent
  | equal | equalEqual | bang | bangEqual | less | lessEqual | greater | greaterEqual
  | semicolon | comma | openParen | closeParen | openBrace | closeBrace
  deriving DecidableEq, Repr

namespace Keyword

def all : List Keyword := [.true, .false, .print, .let, .pub, .return, .fn, .if, .and, .or, .not]

def spelling : Keyword → String
  | .true => "true"
  | .false => "false"
  | .print => "print"
  | .let => "let"
  | .pub => "pub"
  | .return => "return"
  | .fn => "fn"
  | .if => "if"
  | .and => "and"
  | .or => "or"
  | .not => "not"

def ofSpelling? (s : String) : Option Keyword := all.find? (·.spelling == s)

@[simp] theorem ofSpelling?_spelling (k : Keyword) : ofSpelling? k.spelling = some k := by
  cases k <;> decide

end Keyword

namespace Sign

def spelling : Sign → String
  | .plus => "+"
  | .minus => "-"
  | .star => "*"
  | .slash => "/"
  | .slashSlash => "//"
  | .caret => "^"
  | .percent => "%"
  | .equal => "="
  | .equalEqual => "=="
  | .bang => "!"
  | .bangEqual => "!="
  | .less => "<"
  | .lessEqual => "<="
  | .greater => ">"
  | .greaterEqual => ">="
  | .semicolon => ";"
  | .comma => ","
  | .openParen => "("
  | .closeParen => ")"
  | .openBrace => "\x7b"
  | .closeBrace => "\x7d"

/-- The sign of one character. -/
def ofChar? : Char → Option Sign
  | '+' => some .plus
  | '-' => some .minus
  | '*' => some .star
  | '/' => some .slash
  | '^' => some .caret
  | '%' => some .percent
  | '=' => some .equal
  | '<' => some .less
  | '>' => some .greater
  | '!' => some .bang
  | ';' => some .semicolon
  | ',' => some .comma
  | '(' => some .openParen
  | ')' => some .closeParen
  | '{' => some .openBrace
  | '}' => some .closeBrace
  | _ => none

/-- The sign that a following character turns this one into. -/
def extend? : Sign → Char → Option Sign
  | .bang, '=' => some .bangEqual
  | .equal, '=' => some .equalEqual
  | .less, '=' => some .lessEqual
  | .greater, '=' => some .greaterEqual
  | .slash, '/' => some .slashSlash
  | _, _ => none

end Sign

namespace Token

/-- What a token is. `finish` marks the end of the input. -/
inductive Kind where
  | number (value : Float)
  | text (value : String)
  | name (value : String)
  | keyword (word : Keyword)
  | sign (sign : Sign)
  | finish
  deriving DecidableEq

end Token

/-- A token and the byte offset where it starts. -/
structure Token where
  kind : Token.Kind
  offset : Nat
  deriving DecidableEq

end ScopeScript
