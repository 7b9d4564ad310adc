import ScopeScript.Machine.Basic

/-!
# Evaluation

`exec` runs a statement and `eval` computes an expression. Both recurse on fuel: every nested node
takes one unit, and a run that does not finish for want of it says so. `Setup.run` runs a whole
program with fuel that a program laid out from a tree cannot use up: along any chain of nested
evaluations the calls are at most as many as the limit, and between two calls each scope is
entered at most once.
-/

namespace ScopeScript

/-- How a statement ends: by going on to the next one, or by leaving its scope with a value. -/
inductive Flow where
  | next
  | leave (v : Value)
  deriving DecidableEq

/-- The value of a scope that ended this way. -/
def Flow.value : Flow → Value
  | .next => .nil
  | .leave v => v

namespace Eval

/-- Runs statements in order until one leaves the scope. -/
@[specialize] def runAll (run : Node → Eval Flow) : List Node → Eval Flow
  | [] => return .next
  | n :: ns => do
    match ← run n with
    | .next => runAll run ns
    | .leave v => return .leave v

/-- Computes expressions in order; `done` holds the values so far, in reverse. -/
@[specialize] def computeAll (compute : Node → Eval Value) :
    List Node → List Value → Eval (List Value)
  | [], done => return done.reverse
  | n :: ns, done => do
    let v ← compute n
    computeAll compute ns (v :: done)

/-- Runs the statements of a scope in a frame of their own. -/
@[inline] def runScope (run : Node → Eval Flow) (p : Program) (id : ScopeId) (offset : Nat) :
    Eval Flow := do
  let s ← scope p id offset
  let source := (← get).memory.current?.map (·.store)
  let store ← capture s.capture source
  withFrame ⟨s.id, store⟩ (runAll run s.statements)

/-- Calls a function value: its body runs in a store captured from the closure's, with the
parameters bound in it. -/
@[inline] def callFunction (run : Node → Eval Flow) (setup : Setup) (c : Closure)
    (args : List Value) (offset : Nat) : Eval Value := do
  if args.length < c.params.length then
    fault (.missingArguments c.params.length args.length) offset
  else
    let s ← scope setup.program c.body offset
    let store ← capture s.capture (some c.env)
    writeAll store (c.params.zip args)
    let flow ← withCall setup.limit offset (withFrame ⟨s.id, store⟩ (runAll run s.statements))
    return flow.value

def ofReply (name : String) (offset : Nat) : Reply → Eval Value
  | .number x => return .number x
  | .text s => return .text s
  | .bool b => return .bool b
  | .nil => return .nil
  | .error message => return .error message
  | .unsupported kind => fault (.operation ⟨name, [kind]⟩) offset

/-- The snippets that a native function was called with, in order. -/
def snippetsOf (name : String) (calls : Array NativeCall) : List String :=
  (calls.toList.filter (·.native == name)).map (·.snippet)

/-- Calls a native function with the text of its first argument. -/
def callNative (setup : Setup) (name : String) (args : List Value) (offset : Nat) :
    Eval Value := do
  match args with
  | [] => fault (.missingArguments 1 0) offset
  | .text snippet :: _ =>
    match setup.native? name with
    | none => fault (.nativeUnavailable name) offset
    | some native => do
      let earlier := snippetsOf name (← get).calls
      modify fun m => { m with calls := m.calls.push ⟨name, snippet⟩ }
      ofReply name offset (native.answer earlier snippet)
  | other :: _ => fault (.operation ⟨name, [other.kindName]⟩) offset

/-- Binds a name in the outermost store too, if the binding is public. -/
@[inline] def publish (isPublic : Bool) (name : String) (v : Value) (offset : Nat) : Eval Unit :=
  if isPublic then do
    let g ← globalStore offset
    write g name v
  else return ()

/-- The value that a reassignment gives to a name: a compound operator is applied to the name's
old value. -/
@[inline] def reassigned (op : BinaryOp) (h : Handle) (name : String) (v : Value) (offset : Nat) :
    Eval Value :=
  if op = .assign then return v
  else do
    let old ← read h name offset
    operate (op.apply old v) offset

@[inline] def call (run : Node → Eval Flow) (setup : Setup) (f : Value) (args : List Value)
    (offset : Nat) : Eval Value :=
  match f with
  | .function c => callFunction run setup c args offset
  | .native name => callNative setup name args offset
  | other => fault (.notCallable other.kindName) offset

mutual

def exec (setup : Setup) : Nat → Node → Eval Flow
  | 0, n => throw (.outOfFuel n.offset)
  | fuel + 1, n => do
    startAt n.offset
    match n with
    | .bind name value isPublic offset => do
      let v ← eval setup fuel value
      publish isPublic name v offset
      let h ← currentStore offset
      write h name v
      return .next
    | .set name op value offset => do
      let v ← eval setup fuel value
      let h ← currentStore offset
      let new ← reassigned op h name v offset
      write h name new
      return .next
    | .branch condition body offset => do
      let v ← eval setup fuel condition
      if v.isTruthy then runScope (exec setup fuel) setup.program body offset
      else return .next
    | .print value offset => do
      let v ← eval setup fuel value
      print v.display offset
      return .next
    | .result value _ => do
      let v ← eval setup fuel value
      return .leave v
    | .scope id offset => runScope (exec setup fuel) setup.program id offset
    | .empty _ => return .next
    | expr => do
      let _ ← eval setup fuel expr
      return .next

def eval (setup : Setup) : Nat → Node → Eval Value
  | 0, n => throw (.outOfFuel n.offset)
  | fuel + 1, n => do
    match n with
    | .number x _ => return .number x
    | .text s _ => return .text s
    | .bool b _ => return .bool b
    | .nil _ => return .nil
    | .var name offset => do
      let h ← currentStore offset
      read h name offset
    | .unary op operand offset => do
      let v ← eval setup fuel operand
      operate (op.apply v) offset
    | .binary op left right offset => do
      let a ← eval setup fuel left
      let b ← eval setup fuel right
      operate (op.apply a b) offset
    | .function params body offset => do
      let h ← currentStore offset
      makeFunction params body h
    | .scope id offset => do
      let flow ← runScope (exec setup fuel) setup.program id offset
      return flow.value
    | .call callee args offset => do
      let f ← eval setup fuel callee
      let vs ← computeAll (eval setup fuel) args []
      call (exec setup fuel) setup f vs offset
    | .bind _ _ _ offset | .set _ _ _ offset | .branch _ _ offset | .print _ offset
    | .result _ offset | .empty offset => fault (.unsupported .statementAsValue) offset

end

end Eval

def Machine.reset (m : Machine) : Machine :=
  { m with memory := m.memory.clear, transcript := #[], depth := 0 }

namespace Setup

/-- Fuel for a run. The first part suffices for a program laid out from a tree; the reserve lets a
program whose scopes contain each other go on for as long as anyone waits. -/
def fuel (s : Setup) : Nat := (s.limit + 1) * (4 * s.program.size + 4) + twoPow 60

/-- The machine on which the outermost scope is entered. Its store is a new one, with the natives
bound in it; stores of earlier runs stay where they are. -/
def start (s : Setup) (root : Scope) (m : Machine) : Machine :=
  let (h, memory) := m.memory.capture root.capture none
  { m with
    memory := memory.writeAll h (s.natives.map fun n => (n.name, .native n.name))
    globals := h }

/-- Runs the program once, from any state that an earlier run left. -/
def runWith (s : Setup) (fuel : Nat) : Eval Unit := do
  modify Machine.reset
  match s.program.scope? s.program.root with
  | none => Eval.fault (.unsupported .noRootScope) 0
  | some root => do
    modify (s.start root)
    let store := (← get).globals
    let _ ← Eval.clearing
      (Eval.withFrame ⟨root.id, store⟩ (Eval.runAll (Eval.exec s fuel) root.statements))

def run (s : Setup) : Eval Unit := s.runWith s.fuel

end Setup

/-- The bindings of the outermost scope, in the order of their names. -/
def Machine.bindings (m : Machine) : List (String × Value) := (m.memory.store m.globals).bindings

end ScopeScript
