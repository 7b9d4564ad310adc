import ScopeScript.Proofs.Machine.Safety

/-!
# Calls are isolated

`s.Reaches start fuel t m`: in the run of the program from `start`, the evaluator comes to the task
`t` on the machine `m`. Every machine reached is sound, so a call leaves every store that it finds
as it is, but for published names in the outermost one (`Setup.call_isolated`).
-/

namespace ScopeScript

/-- What the evaluator sets out to do: statements of a scope, one statement, an expression, the
arguments of a call that are left, a call of a function value. -/
inductive Task where
  | run (ns : List Node)
  | exec (n : Node)
  | eval (n : Node)
  | compute (ns : List Node)
  | call (c : Closure) (args : List Value) (offset : Nat)

namespace Setup

/-- A task that comes up in the run from `start`, with the fuel and on the machine that it comes up
with. There is a rule for each place at which the evaluator goes into a part of what it is at. -/
inductive Reaches (s : Setup) (start : Machine) : Nat → Task → Machine → Prop where
  | root {fuel : Nat} {sc : Scope} : s.program.scope? s.program.root = some sc →
      Reaches s start fuel (.run sc.statements) (s.inside sc start)
  | head {fuel : Nat} {n : Node} {ns : List Node} {m : Machine} :
      Reaches s start fuel (.run (n :: ns)) m → Reaches s start fuel (.exec n) m
  | tail {fuel : Nat} {n : Node} {ns : List Node} {m m' : Machine} :
      Reaches s start fuel (.run (n :: ns)) m → Eval.exec s fuel n m = .ok .next m' →
      Reaches s start fuel (.run ns) m'
  | subject {fuel : Nat} {n e : Node} {m : Machine} :
      Reaches s start (fuel + 1) (.exec n) m → n.subject? = some e →
      Reaches s start fuel (.eval e) { m with location := n.offset }
  | block {fuel : Nat} {id : ScopeId} {o : Nat} {sc : Scope} {m : Machine} :
      Reaches s start (fuel + 1) (.exec (.scope id o)) m → s.program.scope? id = some sc →
      Reaches s start fuel (.run sc.statements)
        (Machine.enter { m with location := o } sc (m.memory.current?.map (·.store)) [])
  | branch {fuel : Nat} {e : Node} {id : ScopeId} {o : Nat} {v : Value} {sc : Scope}
      {m m' : Machine} :
      Reaches s start (fuel + 1) (.exec (.branch e id o)) m →
      Eval.eval s fuel e { m with location := o } = .ok v m' → v.isTruthy →
      s.program.scope? id = some sc →
      Reaches s start fuel (.run sc.statements)
        (m'.enter sc (m'.memory.current?.map (·.store)) [])
  | operand {fuel : Nat} {op : UnaryOp} {e : Node} {o : Nat} {m : Machine} :
      Reaches s start (fuel + 1) (.eval (.unary op e o)) m → Reaches s start fuel (.eval e) m
  | left {fuel : Nat} {op : BinaryOp} {e e' : Node} {o : Nat} {m : Machine} :
      Reaches s start (fuel + 1) (.eval (.binary op e e' o)) m → Reaches s start fuel (.eval e) m
  | right {fuel : Nat} {op : BinaryOp} {e e' : Node} {o : Nat} {v : Value} {m m' : Machine} :
      Reaches s start (fuel + 1) (.eval (.binary op e e' o)) m → Eval.eval s fuel e m = .ok v m' →
      Reaches s start fuel (.eval e') m'
  | scope {fuel : Nat} {id : ScopeId} {o : Nat} {sc : Scope} {m : Machine} :
      Reaches s start (fuel + 1) (.eval (.scope id o)) m → s.program.scope? id = some sc →
      Reaches s start fuel (.run sc.statements)
        (m.enter sc (m.memory.current?.map (·.store)) [])
  | callee {fuel : Nat} {e : Node} {ns : List Node} {o : Nat} {m : Machine} :
      Reaches s start (fuel + 1) (.eval (.call e ns o)) m → Reaches s start fuel (.eval e) m
  | arguments {fuel : Nat} {e : Node} {ns : List Node} {o : Nat} {f : Value} {m m' : Machine} :
      Reaches s start (fuel + 1) (.eval (.call e ns o)) m → Eval.eval s fuel e m = .ok f m' →
      Reaches s start fuel (.compute ns) m'
  | first {fuel : Nat} {n : Node} {ns : List Node} {m : Machine} :
      Reaches s start fuel (.compute (n :: ns)) m → Reaches s start fuel (.eval n) m
  | others {fuel : Nat} {n : Node} {ns : List Node} {v : Value} {m m' : Machine} :
      Reaches s start fuel (.compute (n :: ns)) m → Eval.eval s fuel n m = .ok v m' →
      Reaches s start fuel (.compute ns) m'
  | call {fuel : Nat} {e : Node} {ns : List Node} {o : Nat} {c : Closure} {args : List Value}
      {m m' m'' : Machine} :
      Reaches s start (fuel + 1) (.eval (.call e ns o)) m →
      Eval.eval s fuel e m = .ok (.function c) m' →
      Eval.computeAll (Eval.eval s fuel) ns [] m' = .ok args m'' →
      Reaches s start fuel (.call c args o) m''
  | body {fuel : Nat} {c : Closure} {args : List Value} {o : Nat} {sc : Scope} {m : Machine} :
      Reaches s start fuel (.call c args o) m → c.params.length ≤ args.length →
      s.program.scope? c.body = some sc → m.depth < s.limit →
      Reaches s start fuel (.run sc.statements) (m.enterCall sc c args)

end Setup

/-- The task is made of parts of the program and of values that can be used. -/
def Task.Fits (s : Setup) (base size : Nat) : Task → Prop
  | .run ns => ∃ i, ∀ n ∈ ns, s.program.States i n
  | .exec n => ∃ i, s.program.States i n
  | .eval n => ∃ i ex, s.program.DepictsExpr i ex n
  | .compute ns => ∀ n ∈ ns, ∃ i ex, s.program.DepictsExpr i ex n
  | .call c args _ => (Value.function c).Sound s base size ∧ ∀ v ∈ args, v.Sound s base size

namespace Machine

/-- Between `m` and `m'` no store of `m` has changed, except for published names in the outermost
one. -/
structure Isolates (p : Program) (m m' : Machine) : Prop where
  frames : m'.memory.frames = m.memory.frames
  stores : ∀ h < m.memory.stores.size, h ≠ m.globals → m'.memory.store h = m.memory.store h
  globals : ∀ name, ¬p.Publishes name →
    m'.memory.read m.globals name = m.memory.read m.globals name

theorem Isolates.of_keeps {s : Setup} {base : Handle} {fs : List Frame} {m m' : Machine}
    (hm : m.Sound s base fs) (hm' : m'.Sound s base fs) (h : m.Keeps s.program none m') :
    m.Isolates s.program m' where
  frames := hm'.frames.trans hm.frames.symm
  stores i hi hg := Std.ExtTreeMap.ext_getElem? fun name =>
    h.read hi (by simp) fun e => absurd e hg
  globals _ hname := h.read hm.globals_mem.2 (by simp) fun _ => hname

/-- The machine is sound, whatever its frames, and the task fits it. -/
def Ready (s : Setup) (base : Handle) (t : Task) (m : Machine) : Prop :=
  (∃ fs, m.Sound s base fs) ∧ t.Fits s base m.memory.stores.size

variable {s : Setup} {base : Handle} {fs : List Frame} {m m' : Machine}

theorem Sound.locate (hm : m.Sound s base fs) (o : Nat) :
    Sound s base fs { m with location := o } :=
  hm.of_memory_eq rfl rfl

/-- A scope can be entered in the place it stands in. -/
theorem Sound.ready_enter (hm : m.Sound s base fs) {i : ScopeId} {sc : Scope}
    (hsc : s.program.scope? i = some sc) :
    (m.enter sc (m.memory.current?.map (·.store)) []).Ready s base (.run sc.statements) := by
  refine ⟨⟨_, hm.enter sc (fun h hh => ?_) (List.forall_mem_nil _)⟩, i, fun n hn => ⟨sc, hsc, hn⟩⟩
  rw [Memory.current?, hm.frames] at hh
  exact Eval.ownStore_mem hm hh

theorem Sound.ready_enterCall (hm : m.Sound s base fs) {c : Closure} {args : List Value}
    {sc : Scope} (hc : (Value.function c).Sound s base m.memory.stores.size)
    (hargs : ∀ v ∈ args, v.Sound s base m.memory.stores.size)
    (hsc : s.program.scope? c.body = some sc) :
    (m.enterCall sc c args).Ready s base (.run sc.statements) := by
  exact ⟨⟨_, hm.enterCall sc hc.1 hargs⟩, c.body, fun n hn => ⟨sc, hsc, hn⟩⟩

end Machine

namespace Eval

variable {s : Setup} {base : Handle} {fuel i : Nat} {m m' : Machine}

theorem sound_of_exec (hp : s.program.WellFormed) {n : Node} (hn : s.program.States i n)
    {fs : List Frame} (hm : m.Sound s base fs) {flow : Flow} (h : exec s fuel n m = .ok flow m') :
    m'.Sound s base fs := by
  have hl := (safe hp fuel).exec hn 0 m hm (Nat.zero_le _)
  rw [h] at hl
  exact hl.sound

theorem sound_of_eval (hp : s.program.WellFormed) {ex : Tree.Expr} {n : Node}
    (hn : s.program.DepictsExpr i ex n) {fs : List Frame} (hm : m.Sound s base fs) {v : Value}
    (h : eval s fuel n m = .ok v m') :
    m'.Sound s base fs ∧ m.memory.stores.size ≤ m'.memory.stores.size ∧
      v.Sound s base m'.memory.stores.size := by
  have hl := (safe hp fuel).eval hn 0 m hm (Nat.zero_le _)
  rw [h] at hl
  exact ⟨hl.sound, hl.keeps.size, hl.yields⟩

theorem sound_of_computeAll (hp : s.program.WellFormed) {ns : List Node}
    (hns : ∀ n ∈ ns, ∃ i ex, s.program.DepictsExpr i ex n) {fs : List Frame}
    (hm : m.Sound s base fs) {vs : List Value} (h : computeAll (eval s fuel) ns [] m = .ok vs m') :
    m'.Sound s base fs ∧ m.memory.stores.size ≤ m'.memory.stores.size ∧
      ∀ v ∈ vs, v.Sound s base m'.memory.stores.size := by
  have hl : Leaves s base fs (ownStore fs) m (fun size vs => ∀ v ∈ vs, v.Sound s base size)
      (computeAll (eval s fuel) ns [] m) := by
    refine Safe.computeAll (fun n hn lo => ?_) (List.forall_mem_nil _) m hm (Nat.zero_le _)
    obtain ⟨_, _, hd⟩ := hns n hn
    exact (safe hp fuel).eval hd lo
  rw [h] at hl
  exact ⟨hl.sound, hl.keeps.size, hl.yields⟩

end Eval

namespace Setup

/-- Every machine that is reached is sound, and its task fits it. -/
theorem Reaches.ready {s : Setup} (hp : s.program.WellFormed) {start m : Machine} {fuel : Nat}
    {t : Task} (h : s.Reaches start fuel t m) : m.Ready s start.memory.stores.size t := by
  induction h with
  | @root _ sc hsc =>
    exact ⟨⟨_, s.sound_inside sc start⟩, s.program.root, fun n hn => ⟨sc, hsc, hn⟩⟩
  | head _ ih =>
    obtain ⟨hm, i, hns⟩ := ih
    exact ⟨hm, i, hns _ (by simp)⟩
  | tail _ hexec ih =>
    obtain ⟨⟨fs, hm⟩, i, hns⟩ := ih
    have hm' := Eval.sound_of_exec hp (hns _ List.mem_cons_self) hm hexec
    exact ⟨⟨fs, hm'⟩, i, fun n hn => hns n (List.mem_cons_of_mem _ hn)⟩
  | subject _ he ih =>
    obtain ⟨⟨fs, hm⟩, i, hn⟩ := ih
    exact ⟨⟨fs, hm.locate _⟩, i, hp.subject hn he⟩
  | block _ hsc ih =>
    obtain ⟨⟨fs, hm⟩, -⟩ := ih
    exact (hm.locate _).ready_enter hsc
  | branch _ hv _ hsc ih =>
    obtain ⟨⟨fs, hm⟩, i, hn⟩ := ih
    obtain ⟨ex, hd⟩ := hp.subject hn rfl
    exact (Eval.sound_of_eval hp hd (hm.locate _) hv).1.ready_enter hsc
  | operand _ ih =>
    obtain ⟨hm, i, ex, hd⟩ := ih
    cases hd with
    | unary _ _ he => exact ⟨hm, i, _, he⟩
  | left _ ih =>
    obtain ⟨hm, i, ex, hd⟩ := ih
    cases hd with
    | binary _ _ hl _ => exact ⟨hm, i, _, hl⟩
  | right _ hv ih =>
    obtain ⟨⟨fs, hm⟩, i, ex, hd⟩ := ih
    cases hd with
    | binary _ _ hl hr => exact ⟨⟨fs, (Eval.sound_of_eval hp hl hm hv).1⟩, i, _, hr⟩
  | scope _ hsc ih =>
    obtain ⟨⟨fs, hm⟩, -⟩ := ih
    exact hm.ready_enter hsc
  | callee _ ih =>
    obtain ⟨hm, i, ex, hd⟩ := ih
    cases hd with
    | call _ hf _ => exact ⟨hm, i, _, hf⟩
  | arguments _ hf ih =>
    obtain ⟨⟨fs, hm⟩, i, ex, hd⟩ := ih
    cases hd with
    | call _ he hes =>
      exact ⟨⟨fs, (Eval.sound_of_eval hp he hm hf).1⟩, fun n hn => ⟨i, hes.of_mem hn⟩⟩
  | first _ ih =>
    obtain ⟨hm, hns⟩ := ih
    exact ⟨hm, hns _ (by simp)⟩
  | others _ hv ih =>
    obtain ⟨⟨fs, hm⟩, hns⟩ := ih
    obtain ⟨i, ex, hd⟩ := hns _ List.mem_cons_self
    exact ⟨⟨fs, (Eval.sound_of_eval hp hd hm hv).1⟩, fun n hn => hns n (by simp [hn])⟩
  | call _ hf hargs ih =>
    obtain ⟨⟨fs, hm⟩, i, ex, hd⟩ := ih
    cases hd with
    | call _ he hes =>
      obtain ⟨hm', -, hc⟩ := Eval.sound_of_eval hp he hm hf
      obtain ⟨hm'', hle, hvs⟩ :=
        Eval.sound_of_computeAll hp (fun n hn => ⟨i, hes.of_mem hn⟩) hm' hargs
      exact ⟨⟨fs, hm''⟩, hc.mono hle, hvs⟩
  | body _ _ hsc _ ih =>
    obtain ⟨⟨fs, hm⟩, hc, hargs⟩ := ih
    exact hm.ready_enterCall hc hargs hsc

/-- A call, whether it returns or faults, leaves every store that it finds as it is, but for the
names that the program publishes in the outermost one. The closure's store and those of the active
scopes are among the stores it finds. -/
theorem call_isolated {source : String} {s : Setup} (h : compile source = .ok s.program)
    {start m : Machine} {fuel o : Nat} {c : Closure} {args : List Value}
    (hr : s.Reaches start fuel (.call c args o) m) :
    m.Isolates s.program (Eval.after (Eval.callFunction (Eval.exec s fuel) s c args o m)) ∧
      m.memory.global?.map (·.store) = some m.globals ∧ c.env < m.memory.stores.size ∧
      ∀ f ∈ m.memory.frames, f.store < m.memory.stores.size := by
  have hp := Program.wellFormed_of_compile h
  obtain ⟨⟨fs, hm⟩, hc, hargs⟩ := hr.ready hp
  have hcall := Eval.callFunction_leaves hm hc hargs (fun _ _ => (Eval.safe hp fuel).exec) o
  refine ⟨.of_keeps hm hcall.sound hcall.keeps, ?_, hc.1.2, fun f hf => ?_⟩
  · rw [Memory.global?, hm.frames]
    exact hm.globals
  · rw [hm.frames] at hf
    exact (hm.active f hf).2

/-- A function that publishes its argument, called where it is made. -/
theorem call_isolated_publishing :
    ∃ s m c, compile "fn(x) { pub let y = x }(true)" = .ok s.program ∧
      Reaches s {} 2 (.call c [.bool true] 23) m ∧
      m.Isolates s.program
        (Eval.after (Eval.callFunction (Eval.exec s 2) s c [.bool true] 23 m)) := by
  let root : Scope :=
    ⟨0, none, .fresh, [.result (.call (.function ["x"] 1 0) [.bool true 24] 23) 23], 0⟩
  let body : Scope := ⟨1, some 0, .copied, [.bind "y" (.var "x" 20) true 8], 6⟩
  let s : Setup := { program := { scopes := #[root, body], root := 0 } }
  have h : compile "fn(x) { pub let y = x }(true)" = .ok s.program := by cbv
  have hroot : s.Reaches {} 4 (.run root.statements) (s.inside root {}) := .root rfl
  have hr : s.Reaches {} 2 (.call ⟨["x"], 1, 0, 0⟩ [.bool true] 23) _ :=
    .call (.subject (.head hroot) rfl) rfl rfl
  exact ⟨s, _, _, h, hr, (call_isolated h hr).1⟩

end Setup

end ScopeScript
