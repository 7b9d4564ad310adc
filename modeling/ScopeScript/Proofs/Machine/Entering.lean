import ScopeScript.Machine.Eval

/-!
# Entering and leaving

What runs in a frame of its own, or one call deeper, is a computation between two changes of the
machine: one that enters and one that leaves, whichever way the computation ends (`Eval.leaving`).
Scopes, calls and whole runs are stated so, for the modules that follow to start from.
-/

namespace ScopeScript

namespace Machine

/-- The machine inside a scope that was just entered, with some names bound in its store. -/
def enter (m : Machine) (sc : Scope) (source : Option Handle) (bs : List (String × Value)) :
    Machine :=
  let (h, memory) := m.memory.capture sc.capture source
  { m with memory := (memory.writeAll h bs).push ⟨sc.id, h⟩ }

def leave (m : Machine) : Machine := { m with memory := m.memory.pop }

/-- The machine inside the body of a function that was just called. -/
def enterCall (m : Machine) (sc : Scope) (c : Closure) (args : List Value) : Machine :=
  { m.enter sc (some c.env) (c.params.zip args) with depth := m.depth + 1 }

def leaveCall (m : Machine) : Machine := { m.leave with depth := m.depth - 1 }

def clear (m : Machine) : Machine := { m with memory := m.memory.clear }

end Machine

namespace Eval

variable {α β : Type} {m : Machine}

/-- The machine that a computation leaves behind. -/
def after : EStateM.Result Halt Machine α → Machine
  | .ok _ m | .error _ m => m

def halt? : EStateM.Result Halt Machine α → Option Halt
  | .ok _ _ => none
  | .error e _ => some e

def value? : EStateM.Result Halt Machine α → Option α
  | .ok a _ => some a
  | .error _ _ => none

theorem eq_ok_of_value? {r : EStateM.Result Halt Machine α} {a : α} (h : value? r = some a) :
    r = .ok a (after r) := by
  cases r with
  | ok a' m =>
    cases h
    rfl
  | error e m => cases h

/-- The result of a computation inside a scope, seen from outside. -/
def leaving (f : α → β) (depart : Machine → Machine) :
    EStateM.Result Halt Machine α → EStateM.Result Halt Machine β
  | .ok a m => .ok (f a) (depart m)
  | .error e m => .error e (depart m)

theorem leaving_leaving {γ : Type} {f : α → β} {g : β → γ} {depart depart' : Machine → Machine}
    (r : EStateM.Result Halt Machine α) :
    leaving g depart' (leaving f depart r) = leaving (g ∘ f) (depart' ∘ depart) r := by
  cases r <;> rfl

theorem bind_pure_eq (x : Eval α) (f : α → β) (m : Machine) :
    (x >>= fun a => pure (f a)) m = leaving f id (x m) := by
  change EStateM.bind x _ m = _
  unfold EStateM.bind
  cases x m <;> rfl

theorem withFrame_eq (f : Frame) (x : Eval α) (m : Machine) :
    withFrame f x m = leaving id Machine.leave (x { m with memory := m.memory.push f }) := rfl

theorem clearing_eq (x : Eval α) (m : Machine) :
    clearing x m = leaving id Machine.clear (x m) := rfl

theorem withCall_eq {limit : Nat} (hm : m.depth < limit) (o : Nat) (x : Eval α) :
    withCall limit o x m = leaving id (fun m => { m with depth := m.depth - 1 })
      (x { m with depth := m.depth + 1 }) := by
  unfold withCall
  rw [if_neg (Nat.not_le.2 hm)]
  rfl

section

variable {s : Setup} {run : Node → Eval Flow} {sc : Scope}

/-- A scope in the place it stands in runs between entering and leaving it. -/
theorem runScope_eq {i : ScopeId} (hsc : s.program.scope? i = some sc) (o : Nat) (m : Machine) :
    runScope run s.program i o m = leaving id Machine.leave
      (runAll run sc.statements (m.enter sc (m.memory.current?.map (·.store)) [])) := by
  unfold runScope scope
  rw [hsc]
  rfl

section

variable {c : Closure} {args : List Value} (hargs : c.params.length ≤ args.length)
  (hsc : s.program.scope? c.body = some sc) (o : Nat)
include hargs hsc

/-- A call that the limit refuses leaves nothing but a store behind. -/
theorem callFunction_of_le (hm : s.limit ≤ m.depth) :
    callFunction run s c args o m =
      .error (.fault (.stackExhausted s.limit) o) (m.enterCall sc c args).leaveCall := by
  unfold callFunction scope
  rw [if_neg (Nat.not_lt.2 hargs), hsc]
  change (withCall s.limit o (withFrame _ (runAll run sc.statements)) >>= fun flow =>
    pure flow.value) _ = _
  rw [bind_pure_eq, withCall, if_pos hm]
  rfl

/-- Any other call runs its body one call deeper. -/
theorem callFunction_of_lt (hm : m.depth < s.limit) :
    callFunction run s c args o m =
      leaving Flow.value Machine.leaveCall (runAll run sc.statements (m.enterCall sc c args)) := by
  unfold callFunction scope
  rw [if_neg (Nat.not_lt.2 hargs), hsc]
  change (withCall s.limit o (withFrame _ (runAll run sc.statements)) >>= fun flow =>
    pure flow.value) _ = _
  rw [bind_pure_eq, withCall_eq, withFrame_eq, leaving_leaving, leaving_leaving]
  · rfl
  · exact hm

end

end

end Eval

namespace Setup

/-- The machine inside the outermost scope. -/
def inside (s : Setup) (root : Scope) (m : Machine) : Machine :=
  let m := s.start root m.reset
  { m with memory := m.memory.push ⟨root.id, m.globals⟩ }

/-- A run is that of the outermost scope between entering it and dropping all frames. -/
theorem runWith_eq (s : Setup) {root : Scope} (h : s.program.scope? s.program.root = some root)
    (fuel : Nat) (m : Machine) :
    s.runWith fuel m = Eval.leaving (fun _ => ()) Machine.clear
      (Eval.runAll (Eval.exec s fuel) root.statements (s.inside root m)) := by
  let start := s.start root m.reset
  let body := Eval.runAll (Eval.exec s fuel) root.statements
  have hrun : s.runWith fuel m =
      (Eval.clearing (Eval.withFrame ⟨root.id, start.globals⟩ body) >>= fun _ => pure ())
        start := by
    unfold runWith
    rw [h]
    rfl
  rw [hrun, Eval.bind_pure_eq, Eval.clearing_eq, Eval.withFrame_eq, Eval.leaving_leaving,
    Eval.leaving_leaving]
  rfl

end Setup

end ScopeScript
