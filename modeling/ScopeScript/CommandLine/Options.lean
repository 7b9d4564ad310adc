import ScopeScript.Number.Decimal
import ScopeScript.Text.Blank

/-!
# Command-line options

`parse` reads the arguments of the command. A help flag counts as soon as it is reached, so an error
before it wins and one after it is never seen. The last depth setting wins; without one the
environment's value counts, and without that the default.
-/

namespace ScopeScript.CommandLine

def usage : String :=
  "Usage: lt [OPTIONS] [FILE]\n\n" ++
  "Runs FILE, or starts an interactive prompt when no FILE is given.\n" ++
  "At the prompt, start a line with '>' to enter several lines; type 'exit' to run them.\n\n" ++
  "Options:\n" ++
  "  --max-depth N   Maximum nested function calls (default 2000, env LT_MAX_DEPTH)\n" ++
  "  --no-globals    Do not print GLOBAL MEMORY after a run\n" ++
  "  --tui           Inspect the finished run in a terminal viewer (requires FILE)\n" ++
  "  -h, --help      Show this help"

def depthVariable : String := "LT_MAX_DEPTH"

def defaultDepth : Nat := 2000

def largestNumber : Nat := twoPow 64 - 1

/-- How a program is run and reported. With `echo` its output is written as it is printed. -/
structure Options where
  limit : Nat := defaultDepth
  echo : Bool := true
  showGlobals : Bool := true
  viewer : Bool := false
  deriving DecidableEq, Repr

/-- What the command is asked to do: a run without a file is a conversation. -/
inductive Action where
  | help
  | run (options : Options) (file : Option String)
  deriving DecidableEq, Repr

inductive UsageFault where
  | missingValue (flag : String)
  | invalidNumber (flag value : String)
  | unknownOption (flag : String)
  | unexpectedArgument (arg : String)
  | viewerWithoutFile
  deriving DecidableEq, Repr

def UsageFault.message : UsageFault → String
  | .missingValue flag => "missing value for " ++ flag
  | .invalidNumber flag value =>
    "invalid value for " ++ flag ++ ": '" ++ value ++ "' (expected a positive integer)"
  | .unknownOption flag => "unknown option '" ++ flag ++ "'"
  | .unexpectedArgument arg => "unexpected argument '" ++ arg ++ "'"
  | .viewerWithoutFile => "--tui requires a FILE"

/-- A positive number of at most 64 bits: digits with blanks around them and perhaps a plus. -/
def positive? (cs : List Char) : Option Nat :=
  let trimmed := Text.trim cs
  let ds := match trimmed with
    | '+' :: rest => rest
    | _ => trimmed
  let n := Decimal.ofDigits ds
  if !ds.isEmpty && ds.all Char.isDigit && 0 < n && n ≤ largestNumber then some n else none

def depth (flag : String) (value : List Char) : Except UsageFault Nat :=
  match positive? value with
  | some n => .ok n
  | none => .error (.invalidNumber flag (String.ofList value))

/-- What the arguments set, before defaults are filled in. -/
structure Settings where
  depth : Option Nat := none
  showGlobals : Bool := true
  viewer : Bool := false
  file : Option String := none
  deriving DecidableEq, Repr

def depthFlag : String := "--max-depth"

/-- What follows `--max-depth=`. -/
def depthValue? (arg : List Char) : Option (List Char) :=
  let flag := (depthFlag ++ "=").toList
  if flag.isPrefixOf arg then some (arg.drop flag.length) else none

/-- Whether an argument is an option; a lone hyphen is not. -/
def isOption (arg : String) : Bool :=
  match arg.toList with
  | '-' :: _ :: _ => true
  | _ => false

/-- Reads the arguments from left to right; none when help is asked for. -/
def scan (s : Settings) : List String → Except UsageFault (Option Settings)
  | [] => .ok (some s)
  | arg :: rest =>
    if arg = "-h" ∨ arg = "--help" then .ok none
    else if arg = "--no-globals" then scan { s with showGlobals := false } rest
    else if arg = "--tui" then scan { s with viewer := true } rest
    else if arg = depthFlag then
      match rest with
      | [] => .error (.missingValue arg)
      | value :: rest =>
        match depth arg value.toList with
        | .ok n => scan { s with depth := some n } rest
        | .error e => .error e
    else match depthValue? arg.toList with
      | some value =>
        match depth depthFlag value with
        | .ok n => scan { s with depth := some n } rest
        | .error e => .error e
      | none =>
        if isOption arg then .error (.unknownOption arg)
        else if s.file.isSome then .error (.unexpectedArgument arg)
        else scan { s with file := some arg } rest

/-- The depth limit: that of the arguments, else that of the environment, else the default. -/
def effectiveDepth (flag : Option Nat) (environment : Option String) : Except UsageFault Nat :=
  match flag, environment with
  | some n, _ => .ok n
  | none, some value => depth depthVariable value.toList
  | none, none => .ok defaultDepth

/-- Fills in what the arguments left open. -/
def complete (s : Settings) (environment : Option String) : Except UsageFault Action :=
  match effectiveDepth s.depth environment with
  | .error e => .error e
  | .ok limit =>
    let o : Options := { limit, showGlobals := s.showGlobals, viewer := s.viewer }
    if s.viewer then
      -- the viewer shows the output in a pane of its own
      if s.file.isNone then .error .viewerWithoutFile
      else .ok (.run { o with echo := false } s.file)
    else .ok (.run o s.file)

def parse (args : List String) (environment : Option String) : Except UsageFault Action :=
  match scan {} args with
  | .error e => .error e
  | .ok none => .ok .help
  | .ok (some s) => complete s environment

end ScopeScript.CommandLine
