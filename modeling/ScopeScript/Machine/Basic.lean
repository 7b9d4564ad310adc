import ScopeScript.Memory
import ScopeScript.Value.Arithmetic

/-!
# The machine

The state of a run, the faults that end it, and the primitives that the evaluator is made of. The
state survives a fault, so what was printed and bound up to there stays visible. `withFrame`,
`withCall` and `clearing` leave in the same way whether their body succeeds or not.
-/

namespace ScopeScript

/-- A printed line and the offset of the statement that printed it. -/
structure Line where
  text : String
  offset : Nat
  deriving DecidableEq, Repr

abbrev Transcript := Array Line

/-- What a well-formed program never asks for. -/
inductive Gap where
  | noRootScope
  | unknownScope (id : ScopeId)
  | noActiveScope
  | noGlobalScope
  | statementAsValue
  deriving DecidableEq, Repr

def Gap.message : Gap → String
  | .noRootScope => "program has no root scope"
  | .unknownScope id => "unknown scope " ++ String.ofList (Decimal.digits id)
  | .noActiveScope => "no active scope"
  | .noGlobalScope => "no global scope"
  | .statementAsValue => "statement used as a value"

inductive Cause where
  | undefined (name : String)
  | operation (mismatch : Mismatch)
  | missingArguments (expected got : Nat)
  | notCallable (kind : String)
  | stackExhausted (limit : Nat)
  | nativeUnavailable (name : String)
  | unsupported (gap : Gap)
  deriving DecidableEq, Repr

namespace Cause

def message : Cause → String
  | .undefined name => "Invalid Variable: " ++ name
  | .operation m => m.message
  | .missingArguments expected got =>
    "Not enough parameters: expected " ++ String.ofList (Decimal.digits expected) ++ ", got " ++
      String.ofList (Decimal.digits got)
  | .notCallable kind => kind ++ " value is not callable"
  | .stackExhausted limit =>
    "stack exhausted: call depth exceeded " ++ String.ofList (Decimal.digits limit)
  | .nativeUnavailable name => "Native function '" ++ name ++ "' is not available"
  | .unsupported gap => "Unsupported: " ++ gap.message

end Cause

/-- How a run stops before its end: at a fault, or because the evaluator was given too little
fuel to get past a node. -/
inductive Halt where
  | fault (cause : Cause) (offset : Nat)
  | outOfFuel (offset : Nat)
  deriving DecidableEq, Repr

namespace Halt

def offset : Halt → Nat
  | .fault _ o | .outOfFuel o => o

def message : Halt → String
  | .fault cause _ => cause.message
  | .outOfFuel _ => "Run was not finished"

end Halt

inductive Reply where
  | number (x : Float)
  | text (s : String)
  | bool (b : Bool)
  | nil
  | error (message : String)
  | unsupported (kind : String)

/-- A function supplied by the host. Its answer may depend on the snippets that it was called
with before, in order. -/
structure Native where
  name : String
  answer : List String → String → Reply

structure NativeCall where
  native : String
  snippet : String
  deriving DecidableEq, Repr

structure Setup where
  program : Program
  limit : Nat := 2000
  natives : List Native := []

namespace Setup

/-- Adds a native function; one of the same name is replaced. -/
def register (s : Setup) (n : Native) : Setup :=
  { s with natives := s.natives.filter (·.name != n.name) ++ [n] }

def native? (s : Setup) (name : String) : Option Native := s.natives.find? (·.name == name)

end Setup

/-- The state of a run. `globals` is the store of the outermost scope, `location` the offset of the
statement started last, `depth` the number of active calls, `functions` the number of function
values made so far. -/
structure Machine where
  memory : Memory := {}
  globals : Handle := 0
  transcript : Transcript := #[]
  location : Nat := 0
  depth : Nat := 0
  calls : Array NativeCall := #[]
  functions : Nat := 0

/-- A computation on the machine that may halt. -/
abbrev Eval := EStateM Halt Machine

namespace Eval

@[inline] def fault {α : Type} (cause : Cause) (offset : Nat) : Eval α :=
  throw (.fault cause offset)

/-- The store of the innermost frame. -/
@[inline] def currentStore (offset : Nat) : Eval Handle := do
  match (← get).memory.current? with
  | some f => return f.store
  | none => fault (.unsupported .noActiveScope) offset

@[inline] def globalStore (offset : Nat) : Eval Handle := do
  match (← get).memory.global? with
  | some f => return f.store
  | none => fault (.unsupported .noGlobalScope) offset

@[inline] def read (h : Handle) (name : String) (offset : Nat) : Eval Value := do
  match (← get).memory.read h name with
  | some v => return v
  | none => fault (.undefined name) offset

@[inline] def write (h : Handle) (name : String) (v : Value) : Eval Unit :=
  modify fun m => { m with memory := m.memory.write h name v }

@[inline] def writeAll (h : Handle) (bindings : List (String × Value)) : Eval Unit :=
  modify fun m => { m with memory := m.memory.writeAll h bindings }

/-- The store of a new scope. -/
@[inline] def capture (mode : Capture) (source : Option Handle) : Eval Handle :=
  modifyGet fun m =>
    let (h, memory) := m.memory.capture mode source
    (h, { m with memory })

/-- Notes the statement that is started. -/
@[inline] def startAt (offset : Nat) : Eval Unit :=
  modify fun m => { m with location := offset }

@[inline] def print (text : String) (offset : Nat) : Eval Unit :=
  modify fun m => { m with transcript := m.transcript.push ⟨text, offset⟩ }

@[inline] def makeFunction (params : List String) (body : ScopeId) (env : Handle) : Eval Value :=
  modifyGet fun m =>
    (.function ⟨params, body, env, m.functions⟩, { m with functions := m.functions + 1 })

@[inline] def scope (p : Program) (id : ScopeId) (offset : Nat) : Eval Scope :=
  match p.scope? id with
  | some s => return s
  | none => fault (.unsupported (.unknownScope id)) offset

@[inline] def withFrame {α : Type} (f : Frame) (act : Eval α) : Eval α := fun m =>
  match act { m with memory := m.memory.push f } with
  | .ok a m => .ok a { m with memory := m.memory.pop }
  | .error e m => .error e { m with memory := m.memory.pop }

/-- Runs a computation and drops all frames. -/
@[inline] def clearing {α : Type} (act : Eval α) : Eval α := fun m =>
  match act m with
  | .ok a m => .ok a { m with memory := m.memory.clear }
  | .error e m => .error e { m with memory := m.memory.clear }

/-- Runs a computation one call deeper, unless the limit is reached. -/
@[inline] def withCall {α : Type} (limit offset : Nat) (act : Eval α) : Eval α := fun m =>
  if limit ≤ m.depth then .error (.fault (.stackExhausted limit) offset) m
  else match act { m with depth := m.depth + 1 } with
    | .ok a m => .ok a { m with depth := m.depth - 1 }
    | .error e m => .error e { m with depth := m.depth - 1 }

/-- The result of an operator, or a fault. -/
@[inline] def operate (result : Except Mismatch Value) (offset : Nat) : Eval Value :=
  match result with
  | .ok v => return v
  | .error m => fault (.operation m) offset

end Eval

end ScopeScript
