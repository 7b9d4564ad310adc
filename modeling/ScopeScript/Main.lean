import ScopeScript.CommandLine.Command
import ScopeScript.Viewer.Display

/-!
# The executable

Reads arguments, files and lines, and writes what the library makes of them.
-/

namespace ScopeScript.Main

open CommandLine

/-- Reads the bytes of a line with its line end; no bytes at the end of the input. -/
partial def readLine (input : IO.FS.Stream) (read : ByteArray) : IO ByteArray := do
  let next ← input.read 1
  if next.isEmpty then return read
  let read := read ++ next
  if next.toList == [10] then return read else readLine input read

/-- Talks to the user line by line until the user quits. -/
partial def talk (settings : Prompt.Settings) (state : Prompt.State) : IO UInt32 := do
  let output ← IO.getStdout
  output.putStr (Prompt.opening state)
  output.flush
  let bytes ← readLine (← IO.getStdin) ByteArray.empty
  let entry := Prompt.Entry.ofBytes bytes.toList
  match entry.text with
  | none => do
    IO.eprintln ("Error: " ++ Prompt.InputFault.notText.message)
    return 1
  | some line =>
    match Prompt.feed state (if bytes.isEmpty then none else some line) with
    | .quit => return 0
    | .run source => do
      output.putStr (Prompt.respond settings (String.ofList source))
      talk settings .ready
    | .gather shown next => do
      output.putStr (String.ofList shown)
      talk settings next

def readFile (path : String) : IO (Except FileFault ByteArray) := do
  try
    return .ok (← IO.FS.readBinFile path)
  catch e =>
    match e with
    | .noFileOrDirectory .. => return .error .missing
    | .permissionDenied .. => return .error .denied
    | .inappropriateType .. => return .error .directory
    | e => return .error (.other (toString e))

def deliver (o : Outcome) : IO UInt32 := do
  IO.print o.stdout
  (← IO.getStdout).flush
  IO.eprint o.stderr
  return UInt32.ofNat o.status

/-- Shows the first screen of the viewer. -/
def view (o : Options) (path source : String) : IO UInt32 := do
  let subject : Viewer.Subject := { execution := execute source o.limit, source, label := path }
  let size : Viewer.Size := { width := 100, height := 25 }
  for row in (Viewer.Session.start size subject).display.shown do
    IO.println (Viewer.rowText row)
  return if subject.execution.fault.isSome then 1 else 0

def run (args : List String) : IO UInt32 := do
  let environment ← IO.getEnv depthVariable
  let t : Terminals :=
    { stdout := ← (← IO.getStdout).isTty, stderr := ← (← IO.getStderr).isTty }
  match parse args environment with
  | .ok (.run o none) => talk (promptSettings o t) .ready
  | .ok (.run o (some path)) => do
    let contents ← readFile path
    match contents >>= decode with
    | .ok source =>
      if o.viewer then view o path source else deliver (runFile o t path source)
    | .error f => deliver (unreadable path f.message)
  | _ => deliver (perform args environment t (fun _ => .error .missing) ByteArray.empty)

end ScopeScript.Main

def main (args : List String) : IO UInt32 := ScopeScript.Main.run args
