import ScopeScript.Token.Basic
import ScopeScript.Number.Decimal
import ScopeScript.Text.Blank
import ScopeScript.Text.Bytes

/-!
# Reading tokens

`Token.scan` reads a whole source text. Its tokens stand between an opening brace at offset 0
and a closing brace at the end, followed by `finish`: the source is the body of one outer scope.
`lexeme` reads one token or one piece of blank space or comment, and always consumes at least one
character; `readText` reads a text literal with a state of its own, one character at a time.
-/

namespace ScopeScript

inductive LexCause where
  | strayCharacter (c : Char)
  | secondPoint
  | lonePoint
  | unterminatedText
  | badCode (code : Nat)
  | unknownEscape (c : Char)
  deriving DecidableEq, Repr

/-- A lexical fault and the byte offset it is reported at. -/
structure LexFault where
  cause : LexCause
  offset : Nat
  deriving DecidableEq, Repr

def LexCause.message : LexCause → String
  | .strayCharacter c => "Invalid character: '" ++ String.singleton c ++ "'"
  | .secondPoint => "Invalid number literal: more than one decimal point"
  | .lonePoint => "Invalid number literal: '.'"
  | .unterminatedText => "Unterminated string literal"
  | .badCode code => "Invalid character code in escape: \\" ++ String.ofList (Decimal.digits code)
  | .unknownEscape c => "Unknown escape sequence: \\" ++ String.singleton c

namespace Token

/-- What reading one piece gives: a token kind unless the piece is skipped, the offset after it
and the characters after it. -/
structure Step where
  kind : Option Kind
  offset : Nat
  rest : List Char

def isNumeric (c : Char) : Bool := c.isDigit || c == '.'

def isNameStart (c : Char) : Bool := c.isAlpha || c == '_'

def isNamePart (c : Char) : Bool := c.isAlphanum || c == '_'

def readNumber (offset : Nat) (cs : List Char) : Except LexFault Step :=
  let lexeme := cs.takeWhile isNumeric
  let whole := lexeme.takeWhile (· != '.')
  let fraction := (lexeme.drop (whole.length + 1)).takeWhile (· != '.')
  if whole.length + 1 + fraction.length < lexeme.length then
    .error ⟨.secondPoint, offset + whole.length + 1 + fraction.length⟩
  else match Decimal.numeral lexeme with
    | none => .error ⟨.lonePoint, offset⟩
    | some x => .ok ⟨some (.number x), offset + lexeme.length, cs.dropWhile isNumeric⟩

def readName (offset : Nat) (cs : List Char) : Step :=
  let lexeme := cs.takeWhile isNamePart
  let spelling := String.ofList lexeme
  let kind := match Keyword.ofSpelling? spelling with
    | some k => .keyword k
    | none => .name spelling
  ⟨some kind, offset + lexeme.length, cs.dropWhile isNamePart⟩

/-- Where the reader of a text literal stands: between characters, after the backslash at `start`,
or inside the decimal code that this backslash began. -/
inductive TextState where
  | plain
  | escape (start : Nat)
  | code (value : Nat) (start : Nat)
  deriving DecidableEq, Repr

/-- The largest code that is told apart from larger ones. -/
def codeLimit : Nat := 0xFFFFFFFF

/-- A decimal code with one more digit, held at the limit once it is reached. -/
def extendCode (value : Nat) (digit : Char) : Nat :=
  min (10 * value + (digit.toNat - '0'.toNat)) codeLimit

/-- The character with this code, unless it is out of range or a surrogate. -/
def ofCode? (code : Nat) : Option Char :=
  if h : code.isValidChar then some (Char.ofNatAux code h) else none

/-- Adds the character of a finished code to the text read so far (in reverse). -/
def settle (state : TextState) (read : List Char) : Except LexFault (List Char) :=
  match state with
  | .code value start =>
    match ofCode? value with
    | some c => .ok (c :: read)
    | none => .error ⟨.badCode value, start⟩
  | _ => .ok read

/-- The character that a letter or sign after a backslash stands for. -/
def namedEscape? : Char → Option Char
  | 'n' => some '\n'
  | 't' => some '\t'
  | '\\' => some '\\'
  | '"' => some '"'
  | '\'' => some '\''
  | _ => none

/-- Reads the rest of the text literal that `quote` opened at `start`. -/
def readText (quote : Char) (start : Nat) :
    TextState → Nat → List Char → List Char → Except LexFault Step
  | state, _, [], read =>
    match settle state read with
    | .error e => .error e
    | .ok _ => .error ⟨.unterminatedText, start⟩
  | state, offset, c :: cs, read =>
    let next := offset + c.utf8Size
    match state, c.isDigit with
    | .code value at_, true => readText quote start (.code (extendCode value c) at_) next cs read
    | .escape at_, true => readText quote start (.code (extendCode 0 c) at_) next cs read
    | .escape _, false =>
      match namedEscape? c with
      | some d => readText quote start .plain next cs (d :: read)
      | none => .error ⟨.unknownEscape c, offset⟩
    | state, _ =>
      match settle state read with
      | .error e => .error e
      | .ok read =>
        if c = quote then .ok ⟨some (.text (String.ofList read.reverse)), next, cs⟩
        else if c = '\\' then readText quote start (.escape offset) next cs read
        else readText quote start .plain next cs (c :: read)

/-- Reads a sign of one character or two. -/
def readSign (g : Sign) (offset : Nat) : List Char → Step
  | [] => ⟨some (.sign g), offset, []⟩
  | c :: cs =>
    match g.extend? c with
    | some g' => ⟨some (.sign g'), offset + 1, cs⟩
    | none => ⟨some (.sign g), offset, c :: cs⟩

def lexeme (offset : Nat) (c : Char) (cs : List Char) : Except LexFault Step :=
  if isNumeric c then readNumber offset (c :: cs)
  else if isNameStart c then .ok (readName offset (c :: cs))
  else if c = '"' ∨ c = '\'' then readText c offset .plain (offset + 1) cs []
  else if c = '#' then
    let comment := (c :: cs).takeWhile (· != '\n')
    .ok ⟨none, offset + Text.byteLength comment, (c :: cs).dropWhile (· != '\n')⟩
  else if Text.isBlank c then .ok ⟨none, offset + c.utf8Size, cs⟩
  else match Sign.ofChar? c with
    | some g => .ok (readSign g (offset + 1) cs)
    | none => .error ⟨.strayCharacter c, offset⟩

/-- The tokens of `cs`, which stands at `offset`, after those already read (in reverse). Each step
consumes a character, so as many steps as characters suffice. -/
def scanFrom : Nat → Nat → List Char → List Token → Except LexFault (List Token)
  | 0, _, _, read => .ok read.reverse
  | _ + 1, _, [], read => .ok read.reverse
  | fuel + 1, offset, c :: cs, read =>
    match lexeme offset c cs with
    | .error e => .error e
    | .ok step =>
      let read := match step.kind with
        | some kind => ⟨kind, offset⟩ :: read
        | none => read
      scanFrom fuel step.offset step.rest read

/-- The tokens of a source text without the outer scope. -/
def lexemes (cs : List Char) : Except LexFault (List Token) := scanFrom cs.length 0 cs []

/-- The tokens as the body of one outer scope that ends at `size`. -/
def wrap (size : Nat) (tokens : List Token) : List Token :=
  ⟨.sign .openBrace, 0⟩ :: tokens ++ [⟨.sign .closeBrace, size⟩, ⟨.finish, size⟩]

def scan (source : String) : Except LexFault (List Token) :=
  match lexemes source.toList with
  | .error e => .error e
  | .ok tokens => .ok (wrap source.utf8ByteSize tokens)

end Token

end ScopeScript
