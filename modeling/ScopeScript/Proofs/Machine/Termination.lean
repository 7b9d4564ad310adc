import Mathlib
import ScopeScript.Proofs.Machine.Fuel
import ScopeScript.Proofs.Program.WellFormed

/-!
# Runs come to an end

`Finishes limit k x`: from a machine that is at most `k` calls away from the limit, `x` ends with a
value or at a fault, and has left every call it entered. The fuel that a node needs is `k` times the
size of the program, for the calls still possible, plus its own size and that of the scopes that
open after its own: a nested scope is among those, and a call gives up one `k`.
-/

namespace ScopeScript

namespace Eval

variable {α β : Type} {limit k : Nat}

/-- A value with the call depth as given, or a fault. -/
def EndsAt (depth : Nat) : EStateM.Result Halt Machine α → Prop
  | .ok _ m => m.depth = depth
  | .error (.fault _ _) _ => True
  | .error (.outOfFuel _) _ => False

/-- With at most `k` calls to the limit, the computation ends in the call it was started in. -/
def Finishes (limit k : Nat) (x : Eval α) : Prop :=
  ∀ m, limit ≤ m.depth + k → EndsAt m.depth (x m)

namespace Finishes

theorem finished {x : Eval α} (h : Finishes limit k x) {m : Machine} (hm : limit ≤ m.depth + k) :
    Finished (x m) := by
  have hend := h m hm
  generalize x m = r at hend
  rcases r with _ | ⟨_ | _, _⟩
  · trivial
  · trivial
  · exact hend

/-- A computation that always succeeds and stays at its depth. -/
theorem of_ok {x : Eval α} (h : ∀ m, ∃ a m', x m = .ok a m' ∧ m'.depth = m.depth) :
    Finishes limit k x := by
  intro m _
  obtain ⟨a, m', hx, hd⟩ := h m
  rw [hx]
  exact hd

theorem pure (a : α) : Finishes limit k (pure a) := of_ok fun m => ⟨a, m, rfl, rfl⟩

theorem fault (cause : Cause) (o : Nat) : Finishes limit k (fault cause o : Eval α) :=
  fun _ _ => trivial

theorem bind {x : Eval α} {f : α → Eval β} (hx : Finishes limit k x)
    (hf : ∀ a, Finishes limit k (f a)) : Finishes limit k (x >>= f) := by
  intro m hm
  change EndsAt m.depth (EStateM.bind x f m)
  have hx := hx m hm
  unfold EStateM.bind
  cases h : x m with
  | ok a m' =>
    rw [h] at hx
    have hd : m'.depth = m.depth := hx
    have := hf a m' (by rwa [hd])
    rwa [hd] at this
  | error e m' =>
    rw [h] at hx
    cases e <;> exact hx

theorem get : Finishes limit k (get : Eval Machine) := of_ok fun m => ⟨m, m, rfl, rfl⟩

theorem currentStore (o : Nat) : Finishes limit k (currentStore o) := by
  refine bind get fun m => ?_
  split
  · exact pure _
  · exact fault _ _

theorem globalStore (o : Nat) : Finishes limit k (globalStore o) := by
  refine bind get fun m => ?_
  split
  · exact pure _
  · exact fault _ _

theorem read (h : Handle) (name : String) (o : Nat) : Finishes limit k (read h name o) := by
  refine bind get fun m => ?_
  split
  · exact pure _
  · exact fault _ _

theorem write (h : Handle) (name : String) (v : Value) : Finishes limit k (write h name v) :=
  of_ok fun _ => ⟨_, _, rfl, rfl⟩

theorem operate (r : Except Mismatch Value) (o : Nat) : Finishes limit k (operate r o) := by
  cases r with
  | ok v => exact pure v
  | error e => exact fault _ _

theorem publish (isPublic : Bool) (name : String) (v : Value) (o : Nat) :
    Finishes limit k (publish isPublic name v o) := by
  unfold Eval.publish
  split
  · exact bind (globalStore o) fun h => write h name v
  · exact pure _

theorem reassigned (op : BinaryOp) (h : Handle) (name : String) (v : Value) (o : Nat) :
    Finishes limit k (reassigned op h name v o) := by
  unfold Eval.reassigned
  split
  · exact pure _
  · exact bind (read h name o) fun _ => operate _ o

theorem callNative (s : Setup) (name : String) (args : List Value) (o : Nat) :
    Finishes limit k (callNative s name args o) := by
  unfold Eval.callNative
  split
  · exact fault _ _
  · split
    · exact fault _ _
    · refine bind get fun m => bind (of_ok fun _ => ⟨_, _, rfl, rfl⟩) fun _ => ?_
      unfold ofReply
      split
      case h_6 => exact fault _ _
      all_goals exact pure _
  · exact fault _ _

/-! ## Frames and calls -/

theorem withFrame (f : Frame) {x : Eval α} (h : Finishes limit k x) :
    Finishes limit k (withFrame f x) := by
  intro m hm
  have := h { m with memory := m.memory.push f } hm
  unfold Eval.withFrame
  generalize x _ = r at this
  rcases r with _ | ⟨_ | _, _⟩ <;> exact this

/-- At the limit a call is refused. -/
theorem withCall_zero (o : Nat) (x : Eval α) : Finishes limit 0 (withCall limit o x) := by
  intro m hm
  unfold Eval.withCall
  rw [if_pos (by simpa using hm)]
  trivial

theorem withCall_succ (o : Nat) {x : Eval α} (h : Finishes limit k x) :
    Finishes limit (k + 1) (withCall limit o x) := by
  intro m hm
  unfold Eval.withCall
  split
  · trivial
  · have := h { m with depth := m.depth + 1 } (by dsimp only; omega)
    generalize x _ = r at this
    rcases r with ⟨a, m'⟩ | ⟨_ | _, _⟩
    · exact Nat.sub_eq_of_eq_add this
    · trivial
    · exact this

section

variable {run : Node → Eval Flow}

theorem runAll : ∀ {ns : List Node}, (∀ n ∈ ns, Finishes limit k (run n)) →
    Finishes limit k (runAll run ns)
  | [], _ => pure _
  | n :: ns, h => by
    refine bind (h n (by simp)) fun flow => ?_
    cases flow with
    | next => exact runAll fun n' hn' => h n' (by simp [hn'])
    | leave v => exact pure _

theorem computeAll {compute : Node → Eval Value} :
    ∀ {ns : List Node} {done : List Value}, (∀ n ∈ ns, Finishes limit k (compute n)) →
      Finishes limit k (computeAll compute ns done)
  | [], _, _ => pure _
  | n :: ns, _, h => bind (h n (by simp)) fun _ => computeAll fun n' hn' => h n' (by simp [hn'])

theorem scope_bind {p : Program} {id : ScopeId} {o : Nat} {f : Scope → Eval α}
    (h : ∀ sc, p.scope? id = some sc → Finishes limit k (f sc)) :
    Finishes limit k (Eval.scope p id o >>= f) := by
  unfold Eval.scope
  cases hsc : p.scope? id with
  | none => exact fault _ _
  | some sc => exact h sc hsc

theorem runScope {p : Program} {id : ScopeId} {o : Nat}
    (h : ∀ n, p.States id n → Finishes limit k (run n)) :
    Finishes limit k (runScope run p id o) := by
  refine scope_bind fun sc hsc => bind get fun m => ?_
  refine bind (of_ok fun _ => ⟨_, _, rfl, rfl⟩) fun store => ?_
  exact withFrame _ (runAll fun n hn => h n ⟨sc, hsc, hn⟩)

/-- A call gives up one of the calls that are left. -/
theorem callFunction {s : Setup} {c : Closure} {args : List Value} {o : Nat}
    (h : ∀ k', k = k' + 1 → ∀ i n, s.program.States i n → Finishes s.limit k' (run n)) :
    Finishes s.limit k (callFunction run s c args o) := by
  unfold Eval.callFunction
  split
  · exact fault _ _
  · refine scope_bind fun sc hsc => ?_
    refine bind (of_ok fun _ => ⟨_, _, rfl, rfl⟩) fun store => ?_
    refine bind (of_ok fun _ => ⟨_, _, rfl, rfl⟩) fun _ => ?_
    refine bind ?_ fun _ => pure _
    cases k with
    | zero => exact withCall_zero _ _
    | succ k' =>
      exact withCall_succ _ (withFrame _ (runAll fun n hn => h k' rfl _ n ⟨sc, hsc, hn⟩))

theorem call {s : Setup} {f : Value} {args : List Value} {o : Nat}
    (h : ∀ k', k = k' + 1 → ∀ i n, s.program.States i n → Finishes s.limit k' (run n)) :
    Finishes s.limit k (call run s f args o) := by
  cases f with
  | function c => exact callFunction h
  | native name => exact callNative s name args o
  | _ => exact fault _ _

end

end Finishes

/-! ## The evaluator -/

/-- What a node of scope `i` needs when `k` calls are left: its own size, that of the scopes that
open after scope `i`, and the whole program for each call. -/
def demand (p : Program) (k : Nat) (i : ScopeId) (n : Node) : Nat :=
  k * p.size + n.size + p.sizeFrom (i + 1)

/-- With this much fuel every statement and every expression finishes. -/
structure Suffices (s : Setup) (fuel : Nat) : Prop where
  exec : ∀ {k i n}, s.program.States i n → demand s.program k i n < fuel →
    Finishes s.limit k (exec s fuel n)
  eval : ∀ {k i ex n}, s.program.DepictsExpr i ex n → demand s.program k i n ≤ fuel →
    Finishes s.limit k (eval s fuel n)

namespace Suffices

variable {s : Setup} {fuel i : Nat}

/-- A nested scope opens after the scope it stands in. -/
theorem runScope (h : Suffices s fuel) {id : ScopeId} {o : Nat} (hlt : i < id)
    (hf : k * s.program.size + s.program.sizeFrom (i + 1) ≤ fuel) :
    Finishes s.limit k (runScope (Eval.exec s fuel) s.program id o) := by
  refine .runScope fun n hn => h.exec hn ?_
  have hsize := hn.size_lt
  have hle : s.program.sizeFrom id ≤ s.program.sizeFrom (i + 1) := s.program.sizeFrom_le_of_le hlt
  unfold demand
  omega

/-- A body may be any scope, so a call takes the whole program. -/
theorem call (h : Suffices s fuel) {f : Value} {args : List Value} {o : Nat}
    (hf : k * s.program.size ≤ fuel) :
    Finishes s.limit k (call (Eval.exec s fuel) s f args o) := by
  refine .call ?_
  rintro k' rfl j n hn
  refine h.exec hn ?_
  have hsize := hn.size_lt
  have hle := s.program.sizeFrom_le_size j
  rw [Nat.succ_mul] at hf
  unfold demand
  omega

theorem exec_succ (hp : s.program.WellFormed) (h : Suffices s fuel) {n : Node}
    (hn : s.program.States i n) (hf : demand s.program k i n < fuel + 1) :
    Finishes s.limit k (Eval.exec s (fuel + 1) n) := by
  have heval {e : Node} (he : n.subject? = some e) : Finishes s.limit k (Eval.eval s fuel e) := by
    obtain ⟨ex, hex⟩ := hp.subject hn he
    have hle := Node.size_subject_le he
    refine h.eval hex ?_
    unfold demand at hf ⊢
    omega
  have hbody {id : ScopeId} {o : Nat} (hid : n.body? = some id) :
      Finishes s.limit k (Eval.runScope (Eval.exec s fuel) s.program id o) := by
    refine h.runScope (hp.body hn hid).1 ?_
    have hpos := n.size_pos
    unfold demand at hf
    omega
  cases n <;> simp only [Eval.exec] <;>
    refine .bind (.of_ok fun _ => ⟨_, _, rfl, rfl⟩) fun _ => ?_
  case bind name value isPublic o _ =>
    refine .bind (heval rfl) fun v => .bind (.publish isPublic name v o) fun _ => ?_
    exact .bind (.currentStore o) fun h => .bind (.write h name v) fun _ => .pure _
  case set name op value o _ =>
    refine .bind (heval rfl) fun v => .bind (.currentStore o) fun h => ?_
    exact .bind (.reassigned op h name v o) fun w => .bind (.write h name w) fun _ => .pure _
  case branch condition body o _ =>
    refine .bind (heval rfl) fun v => ?_
    split
    · exact hbody rfl
    · exact .pure _
  case print value o _ =>
    exact .bind (heval rfl) fun v => .bind (.of_ok fun _ => ⟨_, _, rfl, rfl⟩) fun _ => .pure _
  case scope id o _ => exact hbody rfl
  case empty o _ => exact .pure _
  all_goals exact .bind (heval rfl) fun _ => .pure _

theorem eval_succ (h : Suffices s fuel) {ex : Tree.Expr} {n : Node}
    (hn : s.program.DepictsExpr i ex n) (hf : demand s.program k i n ≤ fuel + 1) :
    Finishes s.limit k (Eval.eval s (fuel + 1) n) := by
  have heval {ex : Tree.Expr} {e : Node} (he : s.program.DepictsExpr i ex e)
      (hlt : e.size < n.size) : Finishes s.limit k (Eval.eval s fuel e) := by
    refine h.eval he ?_
    unfold demand at hf ⊢
    omega
  have hpos := n.size_pos
  unfold demand at hf
  cases hn with
  | var _ name o =>
    simp only [Eval.eval]
    exact .bind (.currentStore o) fun h => .read h name o
  | unary op o he =>
    simp only [Eval.eval]
    exact .bind (heval he (by simp [Node.size])) fun v => .operate _ o
  | binary op o hl hr =>
    simp only [Eval.eval]
    refine .bind (heval hl (by simp only [Node.size]; omega)) fun a => ?_
    exact .bind (heval hr (by simp only [Node.size]; omega)) fun b => .operate _ o
  | call o hc has =>
    simp only [Eval.eval]
    refine .bind (heval hc (by simp only [Node.size]; omega)) fun f => ?_
    refine .bind (.computeAll fun a ha => ?_) fun vs => h.call (by omega)
    obtain ⟨_, hd⟩ := has.of_mem ha
    have hle := Node.size_le_sizeAll ha
    exact heval hd (by simp only [Node.size]; omega)
  | function params o =>
    simp only [Eval.eval]
    exact .bind (.currentStore o) fun h => .of_ok fun _ => ⟨_, _, rfl, rfl⟩
  | scope o hlt hb =>
    simp only [Eval.eval]
    exact .bind (h.runScope hlt (by omega)) fun _ => .pure _
  | _ =>
    simp only [Eval.eval]
    exact .pure _

end Suffices

/-- The fuel that the demand of a node asks for is enough. -/
theorem suffices_of_wellFormed {s : Setup} (hp : s.program.WellFormed) : ∀ fuel, Suffices s fuel
  | 0 => by
    constructor
    · exact fun _ h => absurd h (Nat.not_lt_zero _)
    · intro k i ex n _ h
      have := n.size_pos
      unfold demand at h
      omega
  | fuel + 1 =>
    have ih := suffices_of_wellFormed hp fuel
    ⟨ih.exec_succ hp, ih.eval_succ⟩

end Eval

namespace Setup

/-- The program once for the outermost scope and once for each call. -/
def bound (p : Program) (limit : Nat) : Nat := (limit + 1) * p.size

/-- The outermost scope finishes with all calls still to go. -/
theorem runWith_finished {s : Setup} (hp : s.program.WellFormed) {fuel : Nat}
    (h : bound s.program s.limit ≤ fuel) (m : Machine) : Eval.Finished (s.runWith fuel m) := by
  obtain ⟨root, hroot⟩ := hp.root
  have hall : Eval.Finishes s.limit s.limit (Eval.runAll (Eval.exec s fuel) root.statements) := by
    refine .runAll fun n hn => ?_
    have hst : s.program.States s.program.root n := ⟨root, hroot, hn⟩
    refine (Eval.suffices_of_wellFormed hp fuel).exec hst ?_
    have hsize := hst.size_lt
    have hle := s.program.sizeFrom_le_size s.program.root
    rw [bound, Nat.succ_mul] at h
    unfold Eval.demand
    omega
  rw [runWith_eq s hroot, Eval.finished_leaving]
  exact hall.finished (Nat.le_add_left _ _)

theorem bound_le_fuel (s : Setup) : bound s.program s.limit ≤ s.fuel := by
  have hle : (s.limit + 1) * s.program.size ≤ (s.limit + 1) * (4 * s.program.size + 4) :=
    Nat.mul_le_mul_left _ (by omega)
  exact Nat.le_trans hle (Nat.le_add_right _ _)

/-- A run of a compiled program comes to an end, with a value or at a fault. How much fuel it takes
is bounded by the program and the limit alone, and more fuel than a finished run had changes
nothing. -/
theorem run_terminates {source : String} {s : Setup} (h : compile source = .ok s.program)
    (m : Machine) :
    ((∃ m', s.run m = .ok () m') ∨ ∃ cause o m', s.run m = .error (.fault cause o) m') ∧
    (∀ fuel, bound s.program s.limit ≤ fuel →
      Eval.Finished (s.runWith fuel m) ∧ s.runWith fuel m = s.run m) ∧
    ∀ fuel fuel', fuel ≤ fuel' → Eval.Finished (s.runWith fuel m) →
      s.runWith fuel' m = s.runWith fuel m := by
  have hp := Program.wellFormed_of_compile h
  have hmono (fuel fuel' : Nat) (hle : fuel ≤ fuel') (hfin : Eval.Finished (s.runWith fuel m)) :
      s.runWith fuel' m = s.runWith fuel m := s.runWith_of_finished hle hfin
  refine ⟨?_, fun fuel hf => ?_, hmono⟩
  · rcases Eval.finished_iff.1 (runWith_finished hp s.bound_le_fuel m) with ⟨_, m', hm⟩ | hm
    · exact .inl ⟨m', hm⟩
    · exact .inr hm
  · have hfin := runWith_finished hp hf m
    refine ⟨hfin, ?_⟩
    rcases Nat.le_total fuel s.fuel with hle | hle
    · exact (hmono _ _ hle hfin).symm
    · exact hmono _ _ hle (runWith_finished hp s.bound_le_fuel m)

/-- A function that calls itself without end is stopped. -/
theorem run_terminates_recursion :
    ∃ p, compile "fn f() { f() }; f()" = .ok p ∧
      ((∃ m', run { program := p, limit := 3 } {} = .ok () m') ∨
        ∃ cause o m', run { program := p, limit := 3 } {} = .error (.fault cause o) m') := by
  have h : compile "fn f() { f() }; f()" = .ok
      { scopes := #[
          ⟨0, none, .fresh,
            [.bind "f" (.function [] 1 0) false 0, .result (.call (.var "f" 16) [] 17) 17], 0⟩,
          ⟨1, some 0, .copied, [.result (.call (.var "f" 9) [] 10) 10], 7⟩],
        root := 0 } := by cbv
  exact ⟨_, h, (run_terminates (s := { program := _, limit := 3 }) h {}).1⟩

end Setup

end ScopeScript
