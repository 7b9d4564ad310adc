import ScopeScript.Report

/-!
# The interactive prompt

The prompt reads one program at a time. A line is a whole program; a line that starts with `>` opens
a program of several lines, which a line `exit` or the end of the input closes. A blank line or the
end of the input leaves the prompt. Every program runs from a clean state.

The conversation is a machine that is fed one line at a time: `opening` is what it shows before it
reads a line, and `feed` what a line makes it do. `readProgram` and `converse` run it over the
lines of a whole input.
-/

namespace ScopeScript.Prompt

/-- Between programs, or inside one of several lines: its text so far and their number. -/
inductive State where
  | ready
  | gathering (source : List Char) (lines : Nat)
  deriving DecidableEq, Repr

inductive Response where
  | quit
  | run (source : List Char)
  | gather (shown : List Char) (next : State)
  deriving DecidableEq, Repr

def closing : List Char := ['e', 'x', 'i', 't']

def opening : State → String
  | .ready => ">"
  | .gathering _ lines => " " ++ String.ofList (Decimal.digits (lines + 1)) ++ "   "

/-- What is shown when a program of several lines is opened. -/
def instructions (first : List Char) : List Char :=
  "\nTYPE 'exit' TO END\n 1   ".toList ++ first.dropWhile Text.isBlank ++ ['\n']

/-- Takes a line without its line end, or the end of the input. -/
def feed : State → Option (List Char) → Response
  | .ready, none => .quit
  | .ready, some entry =>
    match entry.dropWhile Text.isBlank with
    | [] => .quit
    | '>' :: first => .gather (instructions first) (.gathering first 1)
    | _ => .run entry
  | .gathering source _, none => .run source
  | .gathering source lines, some entry =>
    if entry = closing then .run source
    else .gather [] (.gathering (source ++ '\n' :: entry) (lines + 1))

/-- A line of input: its length in bytes, and its text without the line end unless its bytes are
no text. -/
structure Entry where
  size : Nat
  text : Option (List Char)
  deriving DecidableEq, Repr

namespace Entry

def strip (cs : List Char) : List Char := Text.dropEndWhile (fun c => c == '\n' || c == '\r') cs

def ofBytes (bytes : List UInt8) : Entry :=
  { size := bytes.length
    text := (String.fromUTF8? ⟨bytes.toArray⟩).map (strip ·.toList) }

/-- Cuts bytes after each newline; `line` holds the bytes of the current line in reverse. -/
def split (line : List UInt8) : List UInt8 → List Entry
  | [] => if line.isEmpty then [] else [ofBytes line.reverse]
  | b :: bs => if b = 10 then ofBytes (b :: line).reverse :: split [] bs else split (b :: line) bs

def ofInput (bytes : ByteArray) : List Entry := split [] bytes.toList

end Entry

inductive InputFault where
  | notText
  deriving DecidableEq, Repr

def InputFault.message : InputFault → String
  | .notText => "stream did not contain valid UTF-8"

/-- What reading one program gives: the program unless the user quits, what was shown, and the
lines that are left. -/
structure Reading where
  result : Except InputFault (Option (List Char))
  shown : String
  rest : List Entry

def readProgram (state : State) (shown : String) : List Entry → Reading
  | [] =>
    let shown := shown ++ opening state
    match feed state none with
    | .run source => ⟨.ok (some source), shown, []⟩
    | _ => ⟨.ok none, shown, []⟩
  | entry :: rest =>
    let shown := shown ++ opening state
    match entry.text with
    | none => ⟨.error .notText, shown, rest⟩
    | some line =>
      match feed state (some line) with
      | .quit => ⟨.ok none, shown, rest⟩
      | .run source => ⟨.ok (some source), shown, rest⟩
      | .gather more next => readProgram next (shown ++ String.ofList more) rest

structure Settings where
  limit : Nat := 2000
  showGlobals : Bool := true
  colour : Bool := false
  stylist : Report.Stylist := .ansi

def label : String := "stdin"

def respond (s : Settings) (source : String) : String :=
  let e := execute source s.limit
  let fault := match e.fault with
    | some f => Report.diagnostic s.stylist s.colour (f.diagnostic source label)
    | none => ""
  let globals := if s.showGlobals then Report.globals s.stylist s.colour e.globals else ""
  "\n" ++ Report.output e ++ fault ++ globals

/-- What a conversation shows, and why it stopped short if it did. -/
structure Shown where
  text : String
  fault : Option InputFault

/-- Runs the programs of the lines one after the other until the user quits; `shown` holds what was
shown before. -/
def converse (s : Settings) (state : State) (shown : String) : List Entry → Shown
  | [] =>
    let shown := shown ++ opening state
    match feed state none with
    | .run source => ⟨shown ++ respond s (String.ofList source) ++ opening .ready, none⟩
    | _ => ⟨shown, none⟩
  | entry :: rest =>
    let shown := shown ++ opening state
    match entry.text with
    | none => ⟨shown, some .notText⟩
    | some line =>
      match feed state (some line) with
      | .quit => ⟨shown, none⟩
      | .run source => converse s .ready (shown ++ respond s (String.ofList source)) rest
      | .gather more next => converse s next (shown ++ String.ofList more) rest

def session (s : Settings) (input : ByteArray) : Shown :=
  converse s .ready "" (Entry.ofInput input)

end ScopeScript.Prompt
