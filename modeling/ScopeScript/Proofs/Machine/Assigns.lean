import ScopeScript.Proofs.Machine.Ends
import ScopeScript.Proofs.Machine.Isolation
import ScopeScript.Proofs.Parser.Steps

/-!
# What an expression can assign

`p.Assigns x n`: running the node `n` may assign `x` in the store that it runs in. A scope shares
that store, so its statements count; the body of a function runs on a copy, so it does not. A node
of the program that does not assign `x` leaves `x` as it was in the store that it runs in
(`Eval.spares`). If that store is the outermost one, `x` must not be published either: a call may
do that.
-/

namespace ScopeScript

/-- The expressions right below a node. -/
def Node.parts : Node → List Node
  | .unary _ e _ | .bind _ e _ _ | .set _ _ e _ | .branch e _ _ | .print e _ | .result e _ => [e]
  | .binary _ l r _ => [l, r]
  | .call f args _ => f :: args
  | _ => []

/-- Running the node may assign the name in the store that it runs in. -/
inductive Program.Assigns (p : Program) (x : String) : Node → Prop where
  | bind (e : Node) (isPublic : Bool) (o : Nat) : Assigns p x (.bind x e isPublic o)
  | set (op : BinaryOp) (e : Node) (o : Nat) : Assigns p x (.set x op e o)
  | part {n e : Node} : e ∈ n.parts → Assigns p x e → Assigns p x n
  | body {n n' : Node} {id : ScopeId} : n.body? = some id → p.States id n' → Assigns p x n' →
      Assigns p x n

/-- What a statement computes first, it runs in its own store. -/
theorem Program.Assigns.of_subject {p : Program} {x : String} {n e : Node} (ha : p.Assigns x e)
    (he : n.subject? = some e) : p.Assigns x n := by
  cases n <;> cases he
  case bind | set | branch | print | result => exact .part (by simp [Node.parts]) ha
  all_goals exact ha

namespace Eval

variable {α β : Type} {s : Setup} {base : Handle} {fs : List Frame} {h : Handle} {x : String}
  {fuel i : Nat}

/-- If it succeeds on a machine with `P`, the computation leaves the name in the store as it was. -/
def Spares (P : Machine → Prop) (h : Handle) (x : String) (c : Eval α) : Prop :=
  ∀ ⦃m a m'⦄, P m → c m = .ok a m' → m'.memory.read h x = m.memory.read h x

namespace Spares

variable {P : Machine → Prop}

theorem of_memory_eq {c : Eval α} (hc : ∀ m a m', c m = .ok a m' → m'.memory = m.memory) :
    Spares P h x c :=
  fun _ _ _ _ hrun => by rw [hc _ _ _ hrun]

theorem pure (a : α) : Spares P h x (pure a) :=
  of_memory_eq fun _ _ _ hrun => by cases hrun; rfl

theorem fault (cause : Cause) (o : Nat) : Spares P h x (fault cause o : Eval α) :=
  of_memory_eq fun _ _ _ hrun => nomatch hrun

theorem bind {Q : α → Machine → Prop} {c : Eval α} {f : α → Eval β} (hc : Spares P h x c)
    (hQ : ∀ {m a m'}, P m → c m = .ok a m' → Q a m') (hf : ∀ a, Spares (Q a) h x (f a)) :
    Spares P h x (c >>= f) := by
  intro m b m' hm hrun
  obtain ⟨a, m₁, hfirst, hrest⟩ := bind_ok.1 hrun
  exact (hf a (hQ hm hfirst) hrest).trans (hc hm hfirst)

/-- What follows may not need anything of the machine. -/
theorem andThen {c : Eval α} {f : α → Eval β} (hc : Spares P h x c)
    (hf : ∀ a, Spares (fun _ => True) h x (f a)) : Spares P h x (c >>= f) :=
  hc.bind (fun _ _ => trivial) hf

/-! ## The primitives -/

theorem startAt {c : Eval α} (hc : Spares (Machine.Sound s base fs) h x c) (o : Nat) :
    Spares (Machine.Sound s base fs) h x (startAt o >>= fun _ => c) := by
  intro m a m' hm hrun
  have hrest : c { m with location := o } = .ok a m' := hrun
  have hread := hc (hm.locate o) hrest
  exact hread

/-- What only looks something up leaves the machine as it is. -/
theorem of_look {c : Eval α} {look : Machine → Option α} {e : Machine → Halt}
    (hc : ∀ m, c m = (look m).elim (.error (e m) m) fun a => .ok a m) : Spares P h x c := by
  refine of_memory_eq fun m a m' hrun => ?_
  rw [hc] at hrun
  cases hlook : look m with
  | none =>
    rw [hlook] at hrun
    cases hrun
  | some b =>
    rw [hlook] at hrun
    cases hrun
    rfl

theorem currentStore (o : Nat) : Spares P h x (currentStore o) := of_look (currentStore_eq o)

theorem globalStore (o : Nat) : Spares P h x (globalStore o) := of_look (globalStore_eq o)

theorem read (h' : Handle) (y : String) (o : Nat) : Spares P h x (read h' y o) :=
  of_look (read_eq h' y o)

theorem operate (r : Except Mismatch Value) (o : Nat) : Spares P h x (operate r o) := by
  cases r with
  | ok v => exact pure v
  | error mismatch => exact fault _ o

theorem write {y : String} (hne : y ≠ x) (h' : Handle) (v : Value) :
    Spares P h x (write h' y v) := by
  intro m _ m' _ hrun
  cases hrun
  exact Memory.read_write_of_ne hne v h

theorem publish {y : String} (hne : y ≠ x) (isPublic : Bool) (v : Value) (o : Nat) :
    Spares P h x (publish isPublic y v o) := by
  unfold Eval.publish
  split
  · exact (globalStore o).andThen fun g => write hne g v
  · exact pure ()

theorem reassigned (op : BinaryOp) (h' : Handle) (y : String) (v : Value) (o : Nat) :
    Spares P h x (reassigned op h' y v o) := by
  unfold Eval.reassigned
  split
  · exact pure v
  · exact (read h' y o).andThen fun old => operate _ o

theorem callNative (s : Setup) (name : String) (args : List Value) (o : Nat) :
    Spares P h x (callNative s name args o) := by
  have hreply (r : Reply) : Spares (fun _ => True) h x (ofReply name o r) := by
    cases r with
    | unsupported kind => exact fault _ o
    | _ => exact pure _
  match args with
  | [] => exact fault _ o
  | .text snippet :: args =>
    rw [callNative_text]
    cases s.native? name with
    | none => exact fault _ o
    | some native =>
      refine andThen (of_memory_eq fun _ _ _ hrun => ?_) fun _ => hreply _
      cases hrun
      rfl
  | .number _ :: _ | .bool _ :: _ | .nil :: _ | .function _ :: _ | .native _ :: _ | .error _ :: _ =>
    exact fault _ o

end Spares

/-- The frames are those of a computation in this store, which gets the name from no other. -/
structure Owns (s : Setup) (fs : List Frame) (h : Handle) (x : String) : Prop where
  innermost : ownStore fs = some h
  unpublished : fs.getLast?.map (·.store) = some h → ¬s.program.Publishes x

section

variable (hp : s.program.WellFormed)
include hp

theorem spares_runAll {ns : List Node} (hns : ∀ n ∈ ns, s.program.States i n)
    (hspares : ∀ n ∈ ns, Spares (Machine.Sound s base fs) h x (exec s fuel n)) :
    Spares (Machine.Sound s base fs) h x (runAll (exec s fuel) ns) := by
  induction ns with
  | nil => exact .pure _
  | cons n ns ih =>
    rw [List.forall_mem_cons] at hns hspares
    refine hspares.1.bind (fun hm hv => sound_of_exec hp hns.1 hm hv) fun flow => ?_
    cases flow with
    | next => exact ih hns.2 hspares.2
    | leave v => exact .pure _

theorem spares_computeAll {ns : List Node} {done : List Value}
    (hns : ∀ n ∈ ns, ∃ ex, s.program.DepictsExpr i ex n)
    (hspares : ∀ n ∈ ns, Spares (Machine.Sound s base fs) h x (eval s fuel n)) :
    Spares (Machine.Sound s base fs) h x (computeAll (eval s fuel) ns done) := by
  induction ns generalizing done with
  | nil => exact .pure _
  | cons n ns ih =>
    rw [List.forall_mem_cons] at hns hspares
    obtain ⟨ex, hd⟩ := hns.1
    exact hspares.1.bind (fun hm hv => (sound_of_eval hp hd hm hv).1) fun _ => ih hns.2 hspares.2

/-- A scope that shares the store is its statements. -/
theorem spares_runScope {id : ScopeId} {o : Nat}
    (hsc : ∃ sc, s.program.scope? id = some sc ∧ sc.capture = .shared)
    (hspares : ∀ n, s.program.States id n → Spares (Machine.Sound s base fs) h x (exec s fuel n)) :
    Spares (Machine.Sound s base fs) h x (runScope (exec s fuel) s.program id o) := by
  intro m flow m' hm hrun
  obtain ⟨sc, hsc, hcap⟩ := hsc
  have hne : m.memory.frames ≠ [] := hm.frames ▸ hm.frames_ne_nil
  rw [runScope_shared hsc hcap hne] at hrun
  exact spares_runAll hp (fun n hn => ⟨sc, hsc, hn⟩) (fun n hn => hspares n ⟨sc, hsc, hn⟩) hm hrun

/-- A call leaves the stores that it finds, but for what it publishes. -/
theorem spares_call (hown : Owns s fs h x) (f : Value) (args : List Value) (o : Nat) :
    Spares (fun m => m.Sound s base fs ∧ f.Sound s base m.memory.stores.size ∧
      ∀ v ∈ args, v.Sound s base m.memory.stores.size) h x (call (exec s fuel) s f args o) := by
  cases f with
  | function c =>
    rintro m v m' ⟨hm, hf, hargs⟩ hrun
    have hcall := callFunction_leaves hm hf hargs (fun _ _ => (safe hp fuel).exec) o
    rw [show callFunction (exec s fuel) s c args o m = .ok v m' from hrun] at hcall
    refine hcall.keeps.read (ownStore_mem hm hown.innermost).2 nofun fun hglobals => ?_
    refine hown.unpublished ?_
    rw [hm.globals, hglobals]
  | native name => exact .callNative s name args o
  | _ => exact .fault _ o

end

/-! ## The evaluator -/

/-- With this fuel, every statement and every expression that does not assign the name spares it. -/
structure SparesAt (s : Setup) (base : Handle) (fs : List Frame) (h : Handle) (x : String)
    (fuel : Nat) : Prop where
  exec : ∀ {i n}, s.program.States i n → ¬s.program.Assigns x n →
    Spares (Machine.Sound s base fs) h x (exec s fuel n)
  eval : ∀ {i ex n}, s.program.DepictsExpr i ex n → ¬s.program.Assigns x n →
    Spares (Machine.Sound s base fs) h x (eval s fuel n)

namespace SparesAt

variable (hp : s.program.WellFormed) (hs : SparesAt s base fs h x fuel)
include hp hs

theorem runScope {n : Node} (hfree : ¬s.program.Assigns x n) {id : ScopeId}
    (hid : n.body? = some id) {o : Nat}
    (hsc : ∃ sc, s.program.scope? id = some sc ∧ sc.capture = .shared) :
    Spares (Machine.Sound s base fs) h x (runScope (Eval.exec s fuel) s.program id o) :=
  spares_runScope hp hsc fun _ hn => hs.exec hn fun ha => hfree (.body hid hn ha)

theorem exec_succ {n : Node} (hn : s.program.States i n) (hfree : ¬s.program.Assigns x n) :
    Spares (Machine.Sound s base fs) h x (Eval.exec s (fuel + 1) n) := by
  have heval {e : Node} (he : n.subject? = some e) :
      Spares (Machine.Sound s base fs) h x (Eval.eval s fuel e) := by
    obtain ⟨ex, hd⟩ := hp.subject hn he
    exact hs.eval hd fun ha => hfree (ha.of_subject he)
  have hbody {id : ScopeId} {o : Nat} (hid : n.body? = some id) :
      Spares (Machine.Sound s base fs) h x (Eval.runScope (Eval.exec s fuel) s.program id o) :=
    hs.runScope hp hfree hid (hp.body hn hid).2
  cases n <;> simp only [Eval.exec] <;> refine .startAt ?_ _
  case bind name value isPublic o =>
    have hne : name ≠ x := by
      rintro rfl
      exact hfree (.bind value isPublic o)
    refine (heval rfl).andThen fun v => ?_
    refine Spares.andThen (.publish hne isPublic v o) fun _ => ?_
    refine Spares.andThen (.currentStore o) fun h' => ?_
    exact Spares.andThen (.write hne h' v) fun _ => .pure _
  case set name op value o =>
    have hne : name ≠ x := by
      rintro rfl
      exact hfree (.set op value o)
    refine (heval rfl).andThen fun v => ?_
    refine Spares.andThen (.currentStore o) fun h' => ?_
    refine Spares.andThen (.reassigned op h' name v o) fun new => ?_
    exact Spares.andThen (.write hne h' new) fun _ => .pure _
  case branch condition body o =>
    obtain ⟨ex, hd⟩ := hp.subject hn rfl
    refine (heval rfl).bind (fun hm hv => (sound_of_eval hp hd hm hv).1) fun v => ?_
    split
    · exact hbody rfl
    · exact .pure _
  case print value o =>
    refine (heval rfl).andThen fun v => ?_
    refine Spares.andThen (.of_memory_eq fun _ _ _ hrun => ?_) fun _ => .pure _
    cases hrun
    rfl
  case result value o => exact (heval rfl).andThen fun v => .pure _
  case scope id o => exact hbody rfl
  case empty o => exact .pure _
  all_goals exact (heval rfl).andThen fun _ => .pure _

theorem eval_succ (hown : Owns s fs h x) {ex : Tree.Expr} {n : Node}
    (hd : s.program.DepictsExpr i ex n) (hfree : ¬s.program.Assigns x n) :
    Spares (Machine.Sound s base fs) h x (Eval.eval s (fuel + 1) n) := by
  have hpart {i : ScopeId} {ex : Tree.Expr} {e : Node} (he : e ∈ n.parts)
      (hd : s.program.DepictsExpr i ex e) :
      Spares (Machine.Sound s base fs) h x (Eval.eval s fuel e) :=
    hs.eval hd fun ha => hfree (.part he ha)
  cases hd with
  | var _ name o =>
    simp only [Eval.eval]
    exact Spares.andThen (.currentStore o) fun h => .read h name o
  | unary op o he =>
    simp only [Eval.eval]
    exact Spares.andThen (hpart (by simp [Node.parts]) he) fun v => .operate _ o
  | binary op o hl hr =>
    simp only [Eval.eval]
    refine Spares.bind (hpart (by simp [Node.parts]) hl)
      (fun hm hv => (sound_of_eval hp hl hm hv).1) fun a => ?_
    exact Spares.andThen (hpart (by simp [Node.parts]) hr) fun b => .operate _ o
  | @call _ _ _ callee ns o hf has =>
    simp only [Eval.eval]
    intro m v m' hm hrun
    obtain ⟨f, m₁, hcallee, hrest⟩ := bind_ok.1 hrun
    obtain ⟨args, m₂, hargs, hcall⟩ := bind_ok.1 hrest
    obtain ⟨hm₁, -, hfsound⟩ := sound_of_eval hp hf hm hcallee
    obtain ⟨hm₂, hle, hvs⟩ := sound_of_computeAll hp (fun n hn => ⟨_, has.of_mem hn⟩) hm₁ hargs
    have hspares : Spares (Machine.Sound s base fs) h x (computeAll (Eval.eval s fuel) ns []) := by
      refine spares_computeAll hp (fun n hn => has.of_mem hn) fun n hn => ?_
      obtain ⟨_, hd⟩ := has.of_mem hn
      exact hpart (List.mem_cons_of_mem _ hn) hd
    calc m'.memory.read h x = m₂.memory.read h x :=
          spares_call hp hown f args o ⟨hm₂, hfsound.mono hle, hvs⟩ hcall
      _ = m₁.memory.read h x := hspares hm₁ hargs
      _ = m.memory.read h x := hpart List.mem_cons_self hf hm hcallee
  | function params o hlt hb =>
    simp only [Eval.eval]
    refine Spares.andThen (.currentStore o) fun h' => .of_memory_eq fun _ _ _ hrun => ?_
    cases hrun
    rfl
  | scope o hlt hb =>
    simp only [Eval.eval]
    exact (hs.runScope hp hfree rfl hb.exists_scope).andThen fun _ => .pure _
  | _ =>
    simp only [Eval.eval]
    exact .pure _

end SparesAt

/-- What does not assign a name leaves it as it was. -/
theorem spares (hp : s.program.WellFormed) (hown : Owns s fs h x) :
    ∀ fuel, SparesAt s base fs h x fuel
  | 0 => ⟨fun _ _ _ _ _ _ => nofun, fun _ _ _ _ _ _ => nofun⟩
  | fuel + 1 =>
    have ih := spares hp hown fuel
    ⟨ih.exec_succ hp, ih.eval_succ hp hown⟩

end Eval

end ScopeScript
