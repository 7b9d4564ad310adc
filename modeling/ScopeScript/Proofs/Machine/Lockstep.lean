import ScopeScript.Proofs.Machine.Congruence
import ScopeScript.Proofs.Machine.Safety

/-!
# Runs in lockstep

Two machines that run one program need not be equal to do the same: a relation between them is
enough, if the machines look alike wherever the program can look and every change that the program
makes to both keeps the relation. What the program can look at is a name that it mentions, or that
comes with a value at hand, in a store that it has a handle of. It cannot see which handle that is,
nor what number a function value was given, only whether two of them are the same. A `Renaming` says
which names these are, and which handles and which function values stand for each other.

`Lockstep` lists what the relation has to satisfy, machine by machine. It then holds throughout: the
evaluator comes to the same values, up to the renaming, and to the same halts on related machines
(`Lockstep.exec_eval`), and a whole run to the same halt (`Lockstep.runWith`).
-/

namespace ScopeScript

namespace Node

mutual

/-- The names that a node reads, binds, reassigns or has as parameters. -/
def names : Node → List String
  | .var name _ => [name]
  | .function params _ _ => params
  | .bind name e _ _ | .set name _ e _ => name :: e.names
  | .unary _ e _ | .branch e _ _ | .print e _ | .result e _ => e.names
  | .binary _ l r _ => l.names ++ r.names
  | .call f args _ => f.names ++ namesAll args
  | .number _ _ | .text _ _ | .bool _ _ | .nil _ | .scope _ _ | .empty _ => []

def namesAll : List Node → List String
  | [] => []
  | n :: ns => n.names ++ namesAll ns

end

def Within (P : String → Prop) (n : Node) : Prop := ∀ x ∈ n.names, P x

theorem mem_namesAll {x : String} {n : Node} (hx : x ∈ n.names) :
    ∀ {ns : List Node}, n ∈ ns → x ∈ namesAll ns
  | n' :: ns, h => by
    rw [namesAll, List.mem_append]
    rcases List.mem_cons.1 h with rfl | h
    · exact .inl hx
    · exact .inr (mem_namesAll hx h)

end Node

/-- The names that a program mentions, in any of its scopes. -/
def Program.names (p : Program) : List String :=
  p.scopes.toList.flatMap fun sc => Node.namesAll sc.statements

theorem Program.within_of_mem {p : Program} {P : String → Prop} (hp : ∀ x ∈ p.names, P x)
    {id : ScopeId} {sc : Scope} (hsc : p.scope? id = some sc) {n : Node} (hn : n ∈ sc.statements) :
    n.Within P := by
  intro x hx
  have hmem : sc ∈ p.scopes.toList := Array.mem_toList_iff.2 (Array.mem_of_getElem? hsc)
  exact hp x (List.mem_flatMap.2 ⟨sc, hmem, Node.mem_namesAll hx hn⟩)

/-! ## Values that stand for each other -/

/-- The names that may come up, and which handles and which identities of function values on one
machine stand for which on the other. -/
structure Renaming where
  name : String → Prop
  handle : Handle → Handle → Prop
  identity : Nat → Nat → Prop

/-- The values are the same, but for the store and the identity of a function. -/
inductive Value.Renamed (ρ : Renaming) : Value → Value → Prop
  | number (x : Float) : Renamed ρ (.number x) (.number x)
  | text (s : String) : Renamed ρ (.text s) (.text s)
  | bool (b : Bool) : Renamed ρ (.bool b) (.bool b)
  | nil : Renamed ρ .nil .nil
  | error (message : String) : Renamed ρ (.error message) (.error message)
  | native {name : String} : ρ.name name → Renamed ρ (.native name) (.native name)
  | function {params : List String} (body : ScopeId) {env env' : Handle} {i i' : Nat} :
    (∀ x ∈ params, ρ.name x) → ρ.handle env env' → ρ.identity i i' →
      Renamed ρ (.function ⟨params, body, env, i⟩) (.function ⟨params, body, env', i'⟩)

namespace Value.Renamed

variable {ρ : Renaming} {a a' b b' v : Value}

theorem of_isPlain (h : v.IsPlain) : v.Renamed ρ v := by
  cases v with
  | number x => exact .number x
  | text s => exact .text s
  | bool b => exact .bool b
  | nil | function | native | error => exact h.elim

theorem kindName_eq (h : a.Renamed ρ a') : a'.kindName = a.kindName := by
  cases h <;> rfl

theorem isTruthy_eq (h : a.Renamed ρ a') : a'.isTruthy = a.isTruthy := by
  cases h <;> rfl

theorem display_eq (h : a.Renamed ρ a') : a'.display = a.display := by
  cases h <;> rfl

/-- Function values are told apart on both sides. -/
theorem same_eq (hk : ∀ {i i' j j'}, ρ.identity i i' → ρ.identity j j' → (i = j ↔ i' = j'))
    (ha : a.Renamed ρ a') (hb : b.Renamed ρ b') : a'.same b' = a.same b := by
  cases ha with
  | function _ _ _ hi =>
    cases hb with
    | function _ _ _ hj => exact Bool.eq_iff_iff.2 (by simp [same, hk hi hj])
    | _ => rfl
  | _ => cases hb <;> rfl

end Value.Renamed

namespace BinaryOp

variable {ρ : Renaming} {a a' b b' : Value}

theorem onKinds?_eq (op : BinaryOp) (ha : a.Renamed ρ a') (hb : b.Renamed ρ b') :
    op.onKinds? a' b' = op.onKinds? a b := by
  cases ha <;> cases hb <;> rfl

variable (hk : ∀ {i i' j j'}, ρ.identity i i' → ρ.identity j j' → (i = j ↔ i' = j'))
include hk

theorem onValues?_renamed (op : BinaryOp) (ha : a.Renamed ρ a') (hb : b.Renamed ρ b') :
    Option.Rel (Value.Renamed ρ) (op.onValues? a b) (op.onValues? a' b') := by
  have hsame := ha.same_eq hk hb
  have hbool {p p' : Bool} (h : p' = p) :
      Option.Rel (Value.Renamed ρ) (some (.bool p)) (some (.bool p')) := by
    rw [h]
    exact .some (.bool p)
  cases op with
  | assign => exact .some hb
  | eq => exact hbool hsame
  | ne => exact hbool (by rw [hsame])
  | and | or => exact hbool (by rw [ha.isTruthy_eq, hb.isTruthy_eq])
  | _ => exact .none

/-- What an operator gives, if anything, is the same up to the renaming. -/
theorem result_renamed (op : BinaryOp) (ha : a.Renamed ρ a') (hb : b.Renamed ρ b') :
    Option.Rel (Value.Renamed ρ) ((op.onKinds? a b).or (op.onValues? a b))
      ((op.onKinds? a' b').or (op.onValues? a' b')) := by
  rw [op.onKinds?_eq ha hb]
  cases h : op.onKinds? a b with
  | none => exact op.onValues?_renamed hk ha hb
  | some v => exact .some (.of_isPlain (isPlain_of_onKinds? h))

end BinaryOp

theorem UnaryOp.apply_eq {ρ : Renaming} {a a' : Value} (op : UnaryOp) (ha : a.Renamed ρ a') :
    op.apply a' = op.apply a := by
  cases ha <;> cases op <;> rfl

inductive Flow.Renamed (ρ : Renaming) : Flow → Flow → Prop
  | next : Renamed ρ .next .next
  | leave {v v' : Value} : v.Renamed ρ v' → Renamed ρ (.leave v) (.leave v')

theorem Flow.Renamed.value {ρ : Renaming} {flow flow' : Flow} (h : flow.Renamed ρ flow') :
    flow.value.Renamed ρ flow'.value := by
  cases h with
  | next => exact .nil
  | leave h => exact h

inductive Frame.Renamed (ρ : Renaming) : Frame → Frame → Prop
  | mk (scope : ScopeId) {h h' : Handle} : ρ.handle h h' → Renamed ρ ⟨scope, h⟩ ⟨scope, h'⟩

theorem Frame.Renamed.store {ρ : Renaming} {f f' : Frame} (h : f.Renamed ρ f') :
    ρ.handle f.store f'.store := by
  cases h with
  | mk _ h => exact h

theorem Frame.Renamed.head? {ρ : Renaming} {fs fs' : List Frame}
    (h : List.Forall₂ (Frame.Renamed ρ) fs fs') :
    Option.Rel ρ.handle (fs.head?.map (·.store)) (fs'.head?.map (·.store)) := by
  cases h with
  | nil => exact .none
  | cons hf _ => exact .some hf.store

theorem Frame.Renamed.getLast? {ρ : Renaming} {fs fs' : List Frame}
    (h : List.Forall₂ (Frame.Renamed ρ) fs fs') :
    Option.Rel ρ.handle (fs.getLast?.map (·.store)) (fs'.getLast?.map (·.store)) := by
  rw [List.getLast?_eq_head?_reverse, List.getLast?_eq_head?_reverse]
  exact head? (List.forall₂_reverse_iff.2 h)

namespace Eval

/-! ## Computations side by side -/

section

variable {α β : Type} {S : Machine → Machine → Prop} {R : α → α → Prop} {Q : β → β → Prop}

/-- Related values or the same halt, on related machines. -/
abbrev Alike (S : Machine → Machine → Prop) (R : α → α → Prop) :
    EStateM.Result Halt Machine α → EStateM.Result Halt Machine α → Prop :=
  ResultRel Eq S R

theorem Alike.halt?_eq {r r' : EStateM.Result Halt Machine α} (hr : Alike S R r r') :
    halt? r' = halt? r := by
  cases hr with
  | ok _ _ => rfl
  | error he _ => exact congrArg some he.symm

theorem Alike.after {r r' : EStateM.Result Halt Machine α} (hr : Alike S R r r') :
    S (after r) (after r') := by
  cases hr with
  | ok _ hm => exact hm
  | error _ hm => exact hm

/-- From related machines the computations come to related values or to the same halt, and leave
related machines. -/
abbrev Parallel (S : Machine → Machine → Prop) (R : α → α → Prop) (x x' : Eval α) : Prop :=
  Agree Eq S R x x'

namespace Parallel

theorem fault (cause : Cause) (o : Nat) : Parallel S R (fault cause o) (fault cause o) :=
  Agree.throw rfl

/-- A change that keeps the relation. -/
theorem modify {f f' : Machine → Machine} (h : ∀ {m m'}, S m m' → S (f m) (f' m')) :
    Parallel S Eq (modify f : Eval Unit) (modify f' : Eval Unit) :=
  fun _ _ hm => .ok rfl (h hm)

theorem operate {ρ : Renaming} {op : UnaryOp} {v v' : Value} (hv : v.Renamed ρ v') (o : Nat) :
    Parallel S (Value.Renamed ρ) (operate (op.apply v) o) (operate (op.apply v') o) := by
  rw [op.apply_eq hv]
  cases h : op.apply v with
  | ok w => exact .pure (.of_isPlain (UnaryOp.of_apply h))
  | error e => exact fault _ o

theorem ofReply {ρ : Renaming} (name : String) (o : Nat) (r : Reply) :
    Parallel S (Value.Renamed ρ) (ofReply name o r) (ofReply name o r) := by
  cases r with
  | number x => exact .pure (.number x)
  | text s => exact .pure (.text s)
  | bool b => exact .pure (.bool b)
  | nil => exact .pure .nil
  | error message => exact .pure (.error message)
  | unsupported kind => exact fault _ o

end Parallel

end

/-- The relation `S` between machines is one that two runs of a program keep, as far as the renaming
goes. -/
structure Lockstep (ρ : Renaming) (s s' : Setup) (S : Machine → Machine → Prop) : Prop where
  program : s'.program = s.program
  limit : s'.limit = s.limit
  names : ∀ x ∈ s.program.names, ρ.name x
  identities : ∀ {i i' j j'}, ρ.identity i i' → ρ.identity j j' → (i = j ↔ i' = j')
  -- the machines look alike
  frames : ∀ {m m'}, S m m' → List.Forall₂ (Frame.Renamed ρ) m.memory.frames m'.memory.frames
  depth : ∀ {m m'}, S m m' → m'.depth = m.depth
  functions : ∀ {m m'}, S m m' → ρ.identity m.functions m'.functions
  reads : ∀ {m m'}, S m m' → ∀ {h h' name}, ρ.handle h h' → ρ.name name →
    Option.Rel (Value.Renamed ρ) (m.memory.read h name) (m'.memory.read h' name)
  captured : ∀ {m m'}, S m m' → ∀ mode {source source'}, Option.Rel ρ.handle source source' →
    ρ.handle (m.memory.capture mode source).1 (m'.memory.capture mode source').1
  -- what is done to both keeps the relation
  locate : ∀ {m m'}, S m m' → ∀ o, S { m with location := o } { m' with location := o }
  print : ∀ {m m'}, S m m' → ∀ line, S { m with transcript := m.transcript.push line }
    { m' with transcript := m'.transcript.push line }
  count : ∀ {m m'}, S m m' →
    S { m with functions := m.functions + 1 } { m' with functions := m'.functions + 1 }
  nest : ∀ {m m'}, S m m' → ∀ d, S { m with depth := d } { m' with depth := d }
  write : ∀ {m m'}, S m m' → ∀ {h h' name v v'}, ρ.handle h h' → ρ.name name → v.Renamed ρ v' →
    S { m with memory := m.memory.write h name v } { m' with memory := m'.memory.write h' name v' }
  capture : ∀ {m m'}, S m m' → ∀ mode {source source'}, Option.Rel ρ.handle source source' →
    S { m with memory := (m.memory.capture mode source).2 }
      { m' with memory := (m'.memory.capture mode source').2 }
  stack : ∀ {m m'}, S m m' → ∀ {fs fs'}, List.Forall₂ (Frame.Renamed ρ) fs fs' →
    S { m with memory := { m.memory with frames := fs } }
      { m' with memory := { m'.memory with frames := fs' } }
  callNative : ∀ {name}, ρ.name name → ∀ {args args'}, List.Forall₂ (Value.Renamed ρ) args args' →
    ∀ o, Parallel S (Value.Renamed ρ) (callNative s name args o) (callNative s' name args' o)

namespace Lockstep

variable {ρ : Renaming} {s s' : Setup} {S : Machine → Machine → Prop} (hS : Lockstep ρ s s' S)
include hS

/-! ## The primitives -/

theorem startAt (o : Nat) : Parallel S Eq (startAt o) (startAt o) :=
  .modify fun hm => hS.locate hm o

theorem printLine {v v' : Value} (hv : v.Renamed ρ v') (o : Nat) :
    Parallel S Eq (Eval.print v.display o) (Eval.print v'.display o) := by
  rw [hv.display_eq]
  exact .modify fun hm => hS.print hm ⟨v.display, o⟩

theorem currentStore (o : Nat) : Parallel S ρ.handle (currentStore o) (currentStore o) :=
  agree_look rfl (currentStore_eq o) (currentStore_eq o) fun hm =>
    Frame.Renamed.head? (hS.frames hm)

theorem globalStore (o : Nat) : Parallel S ρ.handle (globalStore o) (globalStore o) :=
  agree_look rfl (globalStore_eq o) (globalStore_eq o) fun hm =>
    Frame.Renamed.getLast? (hS.frames hm)

theorem read {h h' : Handle} (hh : ρ.handle h h') {name : String} (hname : ρ.name name) (o : Nat) :
    Parallel S (Value.Renamed ρ) (read h name o) (read h' name o) :=
  agree_look rfl (read_eq h name o) (read_eq h' name o) fun hm => hS.reads hm hh hname

theorem writeName {h h' : Handle} (hh : ρ.handle h h') {name : String} (hname : ρ.name name)
    {v v' : Value} (hv : v.Renamed ρ v') :
    Parallel S Eq (Eval.write h name v) (Eval.write h' name v') :=
  .modify fun hm => hS.write hm hh hname hv

/-- Names are bound one after the other, each as a write of its own. -/
theorem writeAll {h h' : Handle} (hh : ρ.handle h h') {names : List String}
    (hnames : ∀ x ∈ names, ρ.name x) {vs vs' : List Value}
    (hvs : List.Forall₂ (Value.Renamed ρ) vs vs') :
    Parallel S Eq (writeAll h (names.zip vs)) (writeAll h' (names.zip vs')) := by
  refine .modify fun {m m'} hm => ?_
  induction names generalizing m m' vs vs' with
  | nil => exact hm
  | cons x names ih =>
    rw [List.forall_mem_cons] at hnames
    cases hvs with
    | nil => exact hm
    | cons hv hvs => exact ih hnames.2 hvs (hS.write hm hh hnames.1 hv)

theorem captureFrom (mode : Capture) {source source' : Option Handle}
    (hsource : Option.Rel ρ.handle source source') :
    Parallel S ρ.handle (Eval.capture mode source) (Eval.capture mode source') :=
  fun _ _ hm => .ok (hS.captured hm mode hsource) (hS.capture hm mode hsource)

theorem captureHere (mode : Capture) :
    Parallel S ρ.handle (captureHere mode) (captureHere mode) :=
  Agree.get_bind fun hm => hS.captureFrom mode (Frame.Renamed.head? (hS.frames hm)) hm

theorem makeFunction {params : List String} (hparams : ∀ x ∈ params, ρ.name x) (body : ScopeId)
    {h h' : Handle} (hh : ρ.handle h h') :
    Parallel S (Value.Renamed ρ) (makeFunction params body h) (makeFunction params body h') :=
  fun _ _ hm => .ok (.function body hparams hh (hS.functions hm)) (hS.count hm)

theorem operate (op : BinaryOp) {a a' b b' : Value} (ha : a.Renamed ρ a') (hb : b.Renamed ρ b')
    (o : Nat) :
    Parallel S (Value.Renamed ρ) (operate (op.apply a b) o) (operate (op.apply a' b') o) := by
  have hresult := op.result_renamed hS.identities ha hb
  unfold BinaryOp.apply
  rw [ha.kindName_eq, hb.kindName_eq]
  generalize (op.onKinds? a b).or (op.onValues? a b) = r at hresult
  generalize (op.onKinds? a' b').or (op.onValues? a' b') = r' at hresult
  cases hresult with
  | none => exact .fault _ o
  | some hv => exact .pure hv

section

variable {α : Type} {R : α → α → Prop} {x x' : Eval α}

theorem withFrame (scope : ScopeId) {h h' : Handle} (hh : ρ.handle h h') (hx : Parallel S R x x') :
    Parallel S R (withFrame ⟨scope, h⟩ x) (withFrame ⟨scope, h'⟩ x') := by
  refine agree_withFrame (fun hm => hS.stack hm (.cons (.mk scope hh) (hS.frames hm)))
    (fun hm => hS.stack hm ?_) hx
  rw [← List.drop_one, ← List.drop_one]
  exact List.forall₂_drop 1 (hS.frames hm)

theorem withCall (o : Nat) (hx : Parallel S R x x') :
    Parallel S R (withCall s.limit o x) (withCall s'.limit o x') := by
  rw [hS.limit]
  exact agree_withCall s.limit rfl hS.depth (fun d hm => hS.nest hm d) hx

end

theorem publish (isPublic : Bool) {name : String} {v v' : Value} (hname : ρ.name name)
    (hv : v.Renamed ρ v') (o : Nat) :
    Parallel S Eq (publish isPublic name v o) (publish isPublic name v' o) := by
  unfold Eval.publish
  split
  · exact (hS.globalStore o).bind fun hg => hS.writeName hg hname hv
  · exact .pure rfl

theorem reassigned (op : BinaryOp) {h h' : Handle} (hh : ρ.handle h h') {name : String}
    {v v' : Value} (hname : ρ.name name) (hv : v.Renamed ρ v') (o : Nat) :
    Parallel S (Value.Renamed ρ) (reassigned op h name v o) (reassigned op h' name v' o) := by
  unfold Eval.reassigned
  split
  · exact .pure hv
  · exact (hS.read hh hname o).bind fun hold => hS.operate op hold hv o

omit hS in
theorem runAll {run run' : Node → Eval Flow} {ns : List Node}
    (h : ∀ n ∈ ns, Parallel S (Flow.Renamed ρ) (run n) (run' n)) :
    Parallel S (Flow.Renamed ρ) (runAll run ns) (runAll run' ns) := by
  induction ns with
  | nil => exact .pure .next
  | cons n ns ih =>
    rw [List.forall_mem_cons] at h
    refine h.1.bind fun hflow => ?_
    cases hflow with
    | next => exact ih h.2
    | leave hv => exact .pure (.leave hv)

omit hS in
theorem computeAll {compute compute' : Node → Eval Value} {ns : List Node}
    (h : ∀ n ∈ ns, Parallel S (Value.Renamed ρ) (compute n) (compute' n)) {done done' : List Value}
    (hdone : List.Forall₂ (Value.Renamed ρ) done done') :
    Parallel S (List.Forall₂ (Value.Renamed ρ)) (computeAll compute ns done)
      (computeAll compute' ns done') := by
  induction ns generalizing done done' with
  | nil => exact .pure (List.forall₂_reverse_iff.2 hdone)
  | cons n ns ih =>
    rw [List.forall_mem_cons] at h
    exact h.1.bind fun hv => ih h.2 (.cons hv hdone)

/-! ## Scopes and calls -/

/-- A scope that is entered is one of the program, so that its statements are within the names. -/
theorem scope_bind {β : Type} {Q : β → β → Prop} {f f' : Scope → Eval β} (id : ScopeId) (o : Nat)
    (hf : ∀ sc, (∀ n ∈ sc.statements, n.Within ρ.name) → Parallel S Q (f sc) (f' sc)) :
    Parallel S Q (scope s.program id o >>= f) (scope s'.program id o >>= f') := by
  rw [hS.program]
  unfold Eval.scope
  cases hsc : s.program.scope? id with
  | none => exact .fault _ o
  | some sc => exact hf sc fun n hn => Program.within_of_mem hS.names hsc hn

section

variable {run run' : Node → Eval Flow}
  (hrun : ∀ n, n.Within ρ.name → Parallel S (Flow.Renamed ρ) (run n) (run' n))
include hrun

theorem runScope (id : ScopeId) (o : Nat) :
    Parallel S (Flow.Renamed ρ) (runScope run s.program id o) (runScope run' s'.program id o) := by
  rw [runScope_eq_bind, runScope_eq_bind]
  refine hS.scope_bind id o fun sc hsc => ?_
  refine (hS.captureHere sc.capture).bind fun hstore => ?_
  exact hS.withFrame _ hstore (runAll fun n hn => hrun n (hsc n hn))

theorem callFunction {params : List String} (hparams : ∀ x ∈ params, ρ.name x) (body : ScopeId)
    {env env' : Handle} (henv : ρ.handle env env') (i i' : Nat) {args args' : List Value}
    (hargs : List.Forall₂ (Value.Renamed ρ) args args') (o : Nat) :
    Parallel S (Value.Renamed ρ) (callFunction run s ⟨params, body, env, i⟩ args o)
      (callFunction run' s' ⟨params, body, env', i'⟩ args' o) := by
  unfold Eval.callFunction
  rw [← hargs.length_eq]
  split
  · exact .fault _ o
  refine hS.scope_bind body o fun sc hsc => ?_
  refine (hS.captureFrom sc.capture (.some henv)).bind fun hstore => ?_
  refine (hS.writeAll hstore hparams hargs).bind fun _ => ?_
  have hbody := hS.withFrame sc.id hstore (runAll fun n hn => hrun n (hsc n hn))
  exact (hS.withCall o hbody).bind fun hflow => .pure hflow.value

theorem call {f f' : Value} (hf : f.Renamed ρ f') {args args' : List Value}
    (hargs : List.Forall₂ (Value.Renamed ρ) args args') (o : Nat) :
    Parallel S (Value.Renamed ρ) (call run s f args o) (call run' s' f' args' o) := by
  cases hf with
  | function body hparams henv _ => exact hS.callFunction hrun hparams body henv _ _ hargs o
  | native hname => exact hS.callNative hname hargs o
  | _ => exact .fault _ o

end

/-! ## The evaluator -/

section

variable {fuel : Nat}
  (hexec : ∀ n, n.Within ρ.name →
    Parallel S (Flow.Renamed ρ) (Eval.exec s fuel n) (Eval.exec s' fuel n))
  (heval : ∀ n, n.Within ρ.name →
    Parallel S (Value.Renamed ρ) (Eval.eval s fuel n) (Eval.eval s' fuel n))
  {n : Node} (hn : n.Within ρ.name)
include hexec heval hn

theorem exec_succ :
    Parallel S (Flow.Renamed ρ) (Eval.exec s (fuel + 1) n) (Eval.exec s' (fuel + 1) n) := by
  have hstart := hS.startAt n.offset
  have hnext : Parallel S (Flow.Renamed ρ) (pure .next) (pure .next) := .pure .next
  have hvalue := (heval n hn).bind fun _ => hnext
  cases n with
  | bind name value isPublic o =>
    obtain ⟨hname, hvalue⟩ := List.forall_mem_cons.1 hn
    refine hstart.bind fun _ => (heval value hvalue).bind fun hv => ?_
    refine (hS.publish isPublic hname hv o).bind fun _ => ?_
    refine (hS.currentStore o).bind fun hh => ?_
    exact (hS.writeName hh hname hv).bind fun _ => hnext
  | set name op value o =>
    obtain ⟨hname, hvalue⟩ := List.forall_mem_cons.1 hn
    refine hstart.bind fun _ => (heval value hvalue).bind fun hv => ?_
    refine (hS.currentStore o).bind fun hh => ?_
    refine (hS.reassigned op hh hname hv o).bind fun hw => ?_
    exact (hS.writeName hh hname hw).bind fun _ => hnext
  | branch condition body o =>
    refine hstart.bind fun _ => (heval condition hn).bind fun hv => ?_
    rw [hv.isTruthy_eq]
    split
    · exact hS.runScope hexec body o
    · exact hnext
  | print value o =>
    refine hstart.bind fun _ => (heval value hn).bind fun hv => ?_
    exact (hS.printLine hv o).bind fun _ => hnext
  | result value o =>
    exact hstart.bind fun _ => (heval value hn).bind fun hv => .pure (.leave hv)
  | scope id o => exact hstart.bind fun _ => hS.runScope hexec id o
  | empty o => exact hstart.bind fun _ => hnext
  | _ => exact hstart.bind fun _ => hvalue

theorem eval_succ :
    Parallel S (Value.Renamed ρ) (Eval.eval s (fuel + 1) n) (Eval.eval s' (fuel + 1) n) := by
  cases n with
  | number x o => exact .pure (.number x)
  | text s o => exact .pure (.text s)
  | bool b o => exact .pure (.bool b)
  | nil o => exact .pure .nil
  | var name o =>
    exact (hS.currentStore o).bind fun hh => hS.read hh (hn name List.mem_cons_self) o
  | unary op operand o => exact (heval operand hn).bind fun hv => Parallel.operate hv o
  | binary op left right o =>
    obtain ⟨hleft, hright⟩ := List.forall_mem_append.1 hn
    refine (heval left hleft).bind fun ha => (heval right hright).bind fun hb => ?_
    exact hS.operate op ha hb o
  | function params body o =>
    exact (hS.currentStore o).bind fun hh => hS.makeFunction hn body hh
  | scope id o => exact (hS.runScope hexec id o).bind fun hflow => .pure hflow.value
  | call callee args o =>
    obtain ⟨hcallee, hargs⟩ := List.forall_mem_append.1 hn
    have hall (n : Node) (hn : n ∈ args) := heval n fun x hx => hargs x (Node.mem_namesAll hx hn)
    refine (heval callee hcallee).bind fun hf => ?_
    refine (computeAll hall .nil).bind fun hvs => ?_
    exact hS.call hexec hf hvs o
  | bind | set | branch | print | result | empty => exact .fault _ _

end

/-- On related machines, statements and expressions that keep to the names come to the same. -/
theorem exec_eval : ∀ fuel : Nat,
    (∀ n, n.Within ρ.name →
      Parallel S (Flow.Renamed ρ) (Eval.exec s fuel n) (Eval.exec s' fuel n)) ∧
    ∀ n, n.Within ρ.name →
      Parallel S (Value.Renamed ρ) (Eval.eval s fuel n) (Eval.eval s' fuel n)
  | 0 => ⟨fun _ _ => Agree.throw rfl, fun _ _ => Agree.throw rfl⟩
  | fuel + 1 => by
    obtain ⟨hexec, heval⟩ := exec_eval fuel
    exact ⟨fun _ => hS.exec_succ hexec heval, fun _ => hS.eval_succ hexec heval⟩

/-- Runs come to the same if the machines are related once the outermost scope is entered. -/
theorem runWith {root : Scope} (hroot : s.program.scope? s.program.root = some root)
    {m m' : Machine} (hm : S (s.inside root m) (s'.inside root m')) (fuel : Nat) :
    Alike S Eq (s.runWith fuel m) (s'.runWith fuel m') := by
  have hroot' : s'.program.scope? s'.program.root = some root := by
    rw [hS.program]
    exact hroot
  rw [s.runWith_eq hroot, s'.runWith_eq hroot']
  have hall : Parallel S (Flow.Renamed ρ) (Eval.runAll (Eval.exec s fuel) root.statements)
      (Eval.runAll (Eval.exec s' fuel) root.statements) :=
    runAll fun n hn => (hS.exec_eval fuel).1 n (Program.within_of_mem hS.names hroot hn)
  exact resultRel_leaving (hall hm) (fun hm => hS.stack hm .nil) fun _ => rfl

end Lockstep

end Eval

end ScopeScript
