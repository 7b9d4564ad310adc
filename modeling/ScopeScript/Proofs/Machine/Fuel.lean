import ScopeScript.Proofs.Machine.Entering

/-!
# More fuel, same answer

`Refines x y`: where `x` finishes, `y` gives the same answer. All that the evaluator is built with
keeps the relation, so a run that finishes is not changed by more fuel
(`Setup.runWith_of_finished`).
-/

namespace ScopeScript

namespace Eval

variable {α β : Type}

/-- The computation came to an end, with a value or at a fault. -/
def Finished : EStateM.Result Halt Machine α → Prop
  | .ok _ _ | .error (.fault _ _) _ => True
  | .error (.outOfFuel _) _ => False

theorem finished_iff {r : EStateM.Result Halt Machine α} :
    Finished r ↔ (∃ a m, r = .ok a m) ∨ ∃ cause o m, r = .error (.fault cause o) m := by
  rcases r with _ | ⟨_ | _, _⟩ <;> simp [Finished]

theorem finished_leaving {f : α → β} {depart : Machine → Machine}
    {r : EStateM.Result Halt Machine α} : Finished (leaving f depart r) ↔ Finished r := by
  rcases r with _ | ⟨_ | _, _⟩ <;> exact Iff.rfl

/-- Where `x` finishes, `y` gives the same answer. -/
def Refines (x y : Eval α) : Prop := ∀ m, Finished (x m) → y m = x m

namespace Refines

theorem refl (x : Eval α) : Refines x x := fun _ _ => rfl

theorem outOfFuel (o : Nat) (y : Eval α) : Refines (throw (.outOfFuel o)) y := fun _ h => h.elim

theorem bind {x y : Eval α} {f g : α → Eval β} (hx : Refines x y) (hf : ∀ a, Refines (f a) (g a)) :
    Refines (x >>= f) (y >>= g) := by
  intro m
  change Finished (EStateM.bind x f m) → EStateM.bind y g m = EStateM.bind x f m
  have hm := hx m
  unfold EStateM.bind
  cases h : x m with
  | ok a m₁ =>
    rw [h] at hm
    intro hfin
    rw [hm trivial]
    exact hf a m₁ hfin
  | error e m₁ =>
    rw [h] at hm
    intro hfin
    rw [hm (by cases e <;> trivial)]

theorem withFrame (f : Frame) {x y : Eval α} (h : Refines x y) :
    Refines (withFrame f x) (withFrame f y) := by
  intro m
  have hm := h { m with memory := m.memory.push f }
  unfold Eval.withFrame
  generalize x _ = r at hm
  intro hfin
  rw [hm (by rcases r with _ | ⟨_ | _, _⟩ <;> trivial)]

theorem withCall (limit offset : Nat) {x y : Eval α} (h : Refines x y) :
    Refines (withCall limit offset x) (withCall limit offset y) := by
  intro m
  have hm := h { m with depth := m.depth + 1 }
  unfold Eval.withCall
  split
  · exact fun _ => rfl
  · generalize x _ = r at hm
    intro hfin
    rw [hm (by rcases r with _ | ⟨_ | _, _⟩ <;> trivial)]

section

variable {run run' : Node → Eval Flow} (hr : ∀ n, Refines (run n) (run' n))
include hr

theorem runAll (ns : List Node) : Refines (runAll run ns) (runAll run' ns) := by
  induction ns with
  | nil => exact refl _
  | cons n ns ih =>
    refine bind (hr n) fun flow => ?_
    cases flow with
    | next => exact ih
    | leave v => exact refl _

theorem runScope (p : Program) (id : ScopeId) (offset : Nat) :
    Refines (runScope run p id offset) (runScope run' p id offset) := by
  refine bind (refl _) fun s => bind (refl _) fun m => bind (refl _) fun store => ?_
  exact withFrame _ (runAll hr _)

theorem callFunction (setup : Setup) (c : Closure) (args : List Value) (offset : Nat) :
    Refines (callFunction run setup c args offset) (callFunction run' setup c args offset) := by
  unfold Eval.callFunction
  split
  · exact refl _
  · refine bind (refl _) fun s => bind (refl _) fun store => bind (refl _) fun _ => ?_
    exact bind (withCall _ _ (withFrame _ (runAll hr _))) fun _ => refl _

theorem call (setup : Setup) (f : Value) (args : List Value) (offset : Nat) :
    Refines (call run setup f args offset) (call run' setup f args offset) := by
  cases f with
  | function c => exact callFunction hr setup c args offset
  | _ => exact refl _

end

theorem computeAll {compute compute' : Node → Eval Value}
    (hc : ∀ n, Refines (compute n) (compute' n)) (ns : List Node) (done : List Value) :
    Refines (computeAll compute ns done) (computeAll compute' ns done) := by
  induction ns generalizing done with
  | nil => exact refl _
  | cons n ns ih => exact bind (hc n) fun v => ih (v :: done)

end Refines

/-- More fuel changes no finished answer. -/
theorem refines_of_le (s : Setup) : ∀ {fuel fuel' : Nat}, fuel ≤ fuel' →
    (∀ n, Refines (exec s fuel n) (exec s fuel' n)) ∧
      ∀ n, Refines (eval s fuel n) (eval s fuel' n)
  | 0, _, _ => ⟨fun _ => .outOfFuel _ _, fun _ => .outOfFuel _ _⟩
  | fuel + 1, fuel' + 1, h => by
    -- the larger fuel stays free, so that both sides unfold once and no further
    obtain ⟨hexec, heval⟩ := refines_of_le s (Nat.le_of_succ_le_succ h)
    constructor
    · intro n
      cases n <;> simp only [exec] <;> refine .bind (.refl _) fun _ => ?_
      case branch condition body offset _ =>
        refine .bind (heval condition) fun v => ?_
        split
        · exact .runScope hexec _ body offset
        · exact .refl _
      case scope id offset _ => exact .runScope hexec _ id offset
      case empty offset => exact .refl _
      all_goals exact .bind (heval _) fun _ => .refl _
    · intro n
      cases n <;> simp only [eval]
      case unary op operand offset => exact .bind (heval operand) fun _ => .refl _
      case binary op left right offset =>
        exact .bind (heval left) fun _ => .bind (heval right) fun _ => .refl _
      case scope id offset => exact .bind (.runScope hexec _ id offset) fun _ => .refl _
      case call callee args offset =>
        exact .bind (heval callee) fun f => .bind (.computeAll heval args []) fun vs =>
          .call hexec s f vs offset
      all_goals exact .refl _

end Eval

namespace Setup

theorem runWith_of_finished (s : Setup) {fuel fuel' : Nat} (h : fuel ≤ fuel') {m : Machine}
    (hm : Eval.Finished (s.runWith fuel m)) : s.runWith fuel' m = s.runWith fuel m := by
  cases hroot : s.program.scope? s.program.root with
  | none =>
    unfold runWith
    rw [hroot]
  | some root =>
    rw [runWith_eq s hroot, Eval.finished_leaving] at hm
    rw [runWith_eq s hroot, runWith_eq s hroot]
    exact congrArg _ (Eval.Refines.runAll (Eval.refines_of_le s h).1 root.statements _ hm)

end Setup

end ScopeScript
