import ScopeScript.CommandLine.Options
import ScopeScript.Prompt

/-!
# The command

What the command writes and the status it exits with, given the contents of the file it names or
of the standard input. Only what goes to a terminal is in colour.
-/

namespace ScopeScript.CommandLine

structure Outcome where
  status : Nat
  stdout : String := ""
  stderr : String := ""
  deriving DecidableEq, Repr

/-- Which of the standard streams are terminals, and how text is marked up for them. -/
structure Terminals where
  stdout : Bool := false
  stderr : Bool := false
  stylist : Report.Stylist := .ansi

inductive FileFault where
  | missing
  | denied
  | directory
  | notText
  | other (reason : String)
  deriving DecidableEq, Repr

def FileFault.message : FileFault → String
  | .missing => "No such file or directory (os error 2)"
  | .denied => "Permission denied (os error 13)"
  | .directory => "Is a directory (os error 21)"
  | .notText => Prompt.InputFault.notText.message
  | .other reason => reason

def refuse (fault : UsageFault) : Outcome :=
  { status := 2, stderr := "Error: " ++ fault.message ++ "\n\n" ++ usage ++ "\n" }

def unreadable (path reason : String) : Outcome :=
  { status := 1, stderr := "Error: cannot read '" ++ path ++ "': " ++ reason ++ "\n" }

def decode (bytes : ByteArray) : Except FileFault String :=
  match String.fromUTF8? bytes with
  | some s => .ok s
  | none => .error .notText

/-- Runs the text of a file. Printed lines and bindings go to the standard output, a fault to the
standard error. -/
def runFile (o : Options) (t : Terminals) (path source : String) : Outcome :=
  let e := execute source o.limit
  let globals := if o.showGlobals then Report.globals t.stylist t.stdout e.globals else ""
  let stdout := Report.output e ++ globals
  match e.fault with
  | none => { status := 0, stdout }
  | some f =>
    let report := Report.diagnostic t.stylist t.stderr (f.diagnostic source path)
    { status := 1, stdout, stderr := report }

def promptSettings (o : Options) (t : Terminals) : Prompt.Settings :=
  { limit := o.limit
    showGlobals := o.showGlobals
    colour := t.stdout
    stylist := t.stylist }

def talk (o : Options) (t : Terminals) (stdin : ByteArray) : Outcome :=
  let shown := Prompt.session (promptSettings o t) stdin
  match shown.fault with
  | none => { status := 0, stdout := shown.text }
  | some f => { status := 1, stdout := shown.text, stderr := "Error: " ++ f.message ++ "\n" }

/-- Performs the command with these arguments; `read` gives the bytes of a file. -/
def perform (args : List String) (environment : Option String) (t : Terminals)
    (read : String → Except FileFault ByteArray) (stdin : ByteArray) : Outcome :=
  match parse args environment with
  | .error fault => refuse fault
  | .ok .help => { status := 0, stdout := usage ++ "\n" }
  | .ok (.run o none) => talk o t stdin
  | .ok (.run o (some path)) =>
    match read path >>= decode with
    | .error f => unreadable path f.message
    | .ok source => runFile o t path source

end ScopeScript.CommandLine
