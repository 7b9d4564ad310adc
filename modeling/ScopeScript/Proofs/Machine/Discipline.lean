import ScopeScript.Proofs.Machine.Congruence
import ScopeScript.Proofs.Machine.Isolation

/-!
# Stack discipline

However a statement or an expression ends, it leaves the stack, the call depth and the handle of the
globals as it found them (`Eval.Restores`), in any program. `s.Amid total start calls fuel t m` is
reachability with the active calls kept along the way: in the run from `start` with `total` fuel,
the evaluator comes to the task `t` on `m` inside `calls`, innermost first. So the depth is the
number of active calls all through a run, and a run ends at the limit on the depth just when a call
is made there that has its arguments and its body.
-/

namespace ScopeScript

/-- The machine has the stack, the depth and the globals that `m` has. -/
structure Machine.Restored (m m' : Machine) : Prop where
  frames : m'.memory.frames = m.memory.frames
  depth : m'.depth = m.depth
  globals : m'.globals = m.globals

namespace Machine.Restored

theorem refl (m : Machine) : m.Restored m := ⟨rfl, rfl, rfl⟩

theorem trans {m m' m'' : Machine} (h : m.Restored m') (h' : m'.Restored m'') : m.Restored m'' :=
  ⟨h'.frames.trans h.frames, h'.depth.trans h.depth, h'.globals.trans h.globals⟩

end Machine.Restored

namespace Eval

variable {α β : Type}

/-- However the computation ends, the stack, the depth and the globals are put back. -/
def Restores (x : Eval α) : Prop := ∀ m : Machine, m.Restored (after (x m))

namespace Restores

theorem of_after {x : Eval α} (h : ∀ m, after (x m) = m) : Restores x := fun m => by
  rw [h]
  exact .refl m

theorem bind {x : Eval α} {f : α → Eval β} (hx : Restores x) (hf : ∀ a, Restores (f a)) :
    Restores (x >>= f) := by
  intro m
  have hm := hx m
  change m.Restored (after (EStateM.bind x f m))
  unfold EStateM.bind
  cases h : x m with
  | ok a m₁ =>
    rw [h] at hm
    exact hm.trans (hf a m₁)
  | error e m₁ =>
    rw [h] at hm
    exact hm

/-- The frame that is put on top is what `leave` takes away. -/
theorem withFrame (f : Frame) {x : Eval α} (hx : Restores x) : Restores (withFrame f x) := by
  intro m
  have hm := hx { m with memory := m.memory.push f }
  rw [withFrame_eq]
  generalize x _ = r at hm
  have hout : m.Restored (after r).leave := ⟨congrArg List.tail hm.frames, hm.depth, hm.globals⟩
  cases r <;> exact hout

/-- The body of a call ends one call deeper than the call, so that the depth does not stop at 0. -/
theorem withCall (limit o : Nat) {x : Eval α} (hx : Restores x) :
    Restores (withCall limit o x) := by
  intro m
  by_cases hd : m.depth < limit
  · have hm := hx { m with depth := m.depth + 1 }
    rw [withCall_eq hd]
    generalize x _ = r at hm
    have hout : m.Restored { after r with depth := (after r).depth - 1 } :=
      ⟨hm.frames, by rw [hm.depth]; rfl, hm.globals⟩
    cases r <;> exact hout
  · rw [Eval.withCall, if_pos (Nat.not_lt.1 hd)]
    exact .refl m

theorem congruence (d d' : Nat) : Congruence d d' fun _ x _ => Restores x where
  pure _ := of_after fun _ => rfl
  throw _ := of_after fun _ => rfl
  bind := bind
  startAt _ _ := ⟨rfl, rfl, rfl⟩
  print _ _ _ := ⟨rfl, rfl, rfl⟩
  currentStore o := of_after fun m => by
    rw [currentStore_eq]
    cases m.memory.current?.map (·.store) <;> rfl
  globalStore o := of_after fun m => by
    rw [globalStore_eq]
    cases m.memory.global?.map (·.store) <;> rfl
  read h name o := of_after fun m => by
    rw [read_eq]
    cases m.memory.read h name <;> rfl
  write _ _ _ _ := ⟨rfl, rfl, rfl⟩
  writeAll h bs m := ⟨m.memory.frames_writeAll h bs, rfl, rfl⟩
  capture mode h m := ⟨m.memory.frames_capture mode (some h), rfl, rfl⟩
  captureHere mode m := ⟨m.memory.frames_capture mode _, rfl, rfl⟩
  makeFunction _ _ _ _ := ⟨rfl, rfl, rfl⟩
  recordCall _ _ _ := ⟨rfl, rfl, rfl⟩
  withFrame f h := h.withFrame f
  withCall o h := h.withCall d o

variable (s : Setup) (fuel : Nat)

theorem exec (n : Node) : Restores (exec s fuel n) :=
  (congruence s.limit s.limit).exec s fuel n

theorem eval (n : Node) : Restores (eval s fuel n) :=
  (congruence s.limit s.limit).eval s fuel n

theorem runAll (ns : List Node) : Restores (runAll (Eval.exec s fuel) ns) :=
  @Congruence.runAll _ _ _ (congruence s.limit s.limit) _ (Eval.exec s fuel) (exec s fuel) ns

theorem computeAll (ns : List Node) (done : List Value) :
    Restores (computeAll (Eval.eval s fuel) ns done) :=
  @Congruence.computeAll _ _ _ (congruence s.limit s.limit) _ (Eval.eval s fuel) (eval s fuel) ns
    done

end Restores

/-- The computation ended with `e`. -/
def HaltsWith (e : Halt) (r : EStateM.Result Halt Machine α) : Prop := ∃ m, r = .error e m

variable {e : Halt} {m : Machine}

theorem not_haltsWith_ok {a : α} : ¬HaltsWith e (.ok a m) := by
  rintro ⟨_, h⟩
  cases h

theorem haltsWith_error {e' : Halt} :
    HaltsWith e (.error e' m : EStateM.Result _ _ α) ↔ e' = e := by
  constructor
  · rintro ⟨_, h⟩
    cases h
    rfl
  · rintro rfl
    exact ⟨m, rfl⟩

theorem haltsWith_bind {x : Eval α} {f : α → Eval β} : HaltsWith e ((x >>= f) m) ↔
    HaltsWith e (x m) ∨ ∃ a m₁, x m = .ok a m₁ ∧ HaltsWith e (f a m₁) := by
  change HaltsWith e (EStateM.bind x f m) ↔ _
  unfold EStateM.bind
  cases x m with
  | ok a m₁ => simp [not_haltsWith_ok]
  | error e' m₁ => simp [haltsWith_error]

theorem haltsWith_leaving {f : α → β} {depart : Machine → Machine}
    {r : EStateM.Result Halt Machine α} : HaltsWith e (leaving f depart r) ↔ HaltsWith e r := by
  cases r with
  | ok a m => exact iff_of_false not_haltsWith_ok not_haltsWith_ok
  | error e' m => exact haltsWith_error.trans haltsWith_error.symm

theorem haltsWith_runScope {s : Setup} {run : Node → Eval Flow} {id : ScopeId} {sc : Scope}
    (hsc : s.program.scope? id = some sc) (o : Nat) :
    HaltsWith e (runScope run s.program id o m) ↔
      HaltsWith e (runAll run sc.statements (m.enter sc (m.memory.current?.map (·.store)) [])) := by
  rw [runScope_eq hsc, haltsWith_leaving]

/-- The values that were computed before do not matter. -/
theorem haltsWith_computeAll {compute : Node → Eval Value} {ns : List Node} {m : Machine} :
    ∀ done done' : List Value,
      HaltsWith e (computeAll compute ns done m) → HaltsWith e (computeAll compute ns done' m) := by
  induction ns generalizing m with
  | nil => exact fun _ _ h => absurd h not_haltsWith_ok
  | cons n ns ih =>
    intro done done' h
    rcases haltsWith_bind.1 h with h | ⟨v, m₁, hv, h⟩
    · exact haltsWith_bind.2 (.inl h)
    · exact haltsWith_bind.2 (.inr ⟨v, m₁, hv, ih _ _ h⟩)

end Eval

/-! ## Points of a run -/

/-- The expression that an expression computes first. -/
def Node.first? : Node → Option Node
  | .unary _ e _ | .binary _ e _ _ | .call e _ _ => some e
  | _ => none

def Task.Halts (s : Setup) (fuel : Nat) (e : Halt) : Task → Machine → Prop
  | .run ns, m => Eval.HaltsWith e (Eval.runAll (Eval.exec s fuel) ns m)
  | .exec n, m => Eval.HaltsWith e (Eval.exec s fuel n m)
  | .eval n, m => Eval.HaltsWith e (Eval.eval s fuel n m)
  | .compute ns, m => Eval.HaltsWith e (Eval.computeAll (Eval.eval s fuel) ns [] m)
  | .call c args o, m => Eval.HaltsWith e (Eval.callFunction (Eval.exec s fuel) s c args o m)

namespace Setup

/-- In the task `t` on `m`, and in the same call, the evaluator comes to the task `t'` on `m'`. -/
inductive Part (s : Setup) : Nat → Task → Machine → Nat → Task → Machine → Prop where
  | head {fuel : Nat} {n : Node} {ns : List Node} {m : Machine} :
      Part s fuel (.run (n :: ns)) m fuel (.exec n) m
  | tail {fuel : Nat} {n : Node} {ns : List Node} {m m' : Machine} :
      Eval.exec s fuel n m = .ok .next m' → Part s fuel (.run (n :: ns)) m fuel (.run ns) m'
  | subject {fuel : Nat} {n e : Node} {m : Machine} : n.subject? = some e →
      Part s (fuel + 1) (.exec n) m fuel (.eval e) { m with location := n.offset }
  | block {fuel : Nat} {id : ScopeId} {o : Nat} {sc : Scope} {m : Machine} :
      s.program.scope? id = some sc →
      Part s (fuel + 1) (.exec (.scope id o)) m fuel (.run sc.statements)
        (Machine.enter { m with location := o } sc (m.memory.current?.map (·.store)) [])
  | branch {fuel : Nat} {e : Node} {id : ScopeId} {o : Nat} {v : Value} {sc : Scope}
      {m m' : Machine} : Eval.eval s fuel e { m with location := o } = .ok v m' → v.isTruthy →
      s.program.scope? id = some sc →
      Part s (fuel + 1) (.exec (.branch e id o)) m fuel (.run sc.statements)
        (m'.enter sc (m'.memory.current?.map (·.store)) [])
  | first {fuel : Nat} {n e : Node} {m : Machine} : n.first? = some e →
      Part s (fuel + 1) (.eval n) m fuel (.eval e) m
  | right {fuel : Nat} {op : BinaryOp} {e e' : Node} {o : Nat} {v : Value} {m m' : Machine} :
      Eval.eval s fuel e m = .ok v m' →
      Part s (fuel + 1) (.eval (.binary op e e' o)) m fuel (.eval e') m'
  | scope {fuel : Nat} {id : ScopeId} {o : Nat} {sc : Scope} {m : Machine} :
      s.program.scope? id = some sc →
      Part s (fuel + 1) (.eval (.scope id o)) m fuel (.run sc.statements)
        (m.enter sc (m.memory.current?.map (·.store)) [])
  | arguments {fuel : Nat} {e : Node} {ns : List Node} {o : Nat} {f : Value} {m m' : Machine} :
      Eval.eval s fuel e m = .ok f m' →
      Part s (fuel + 1) (.eval (.call e ns o)) m fuel (.compute ns) m'
  | argument {fuel : Nat} {n : Node} {ns : List Node} {m : Machine} :
      Part s fuel (.compute (n :: ns)) m fuel (.eval n) m
  | others {fuel : Nat} {n : Node} {ns : List Node} {v : Value} {m m' : Machine} :
      Eval.eval s fuel n m = .ok v m' → Part s fuel (.compute (n :: ns)) m fuel (.compute ns) m'
  | call {fuel : Nat} {e : Node} {ns : List Node} {o : Nat} {c : Closure} {args : List Value}
      {m m' m'' : Machine} : Eval.eval s fuel e m = .ok (.function c) m' →
      Eval.computeAll (Eval.eval s fuel) ns [] m' = .ok args m'' →
      Part s (fuel + 1) (.eval (.call e ns o)) m fuel (.call c args o) m''

/-- The call has its arguments, and its body is there. -/
def Callable (s : Setup) (c : Closure) (args : List Value) : Prop :=
  c.params.length ≤ args.length ∧ ∃ sc, s.program.scope? c.body = some sc

/-- In the run from `start` with `total` fuel, the evaluator comes to the task on the machine while
`calls` are active, innermost first. A call becomes active when its body is entered. -/
inductive Amid (s : Setup) (total : Nat) (start : Machine) :
    List Closure → Nat → Task → Machine → Prop where
  | root {sc : Scope} : s.program.scope? s.program.root = some sc →
      Amid s total start [] total (.run sc.statements) (s.inside sc start)
  | part {calls : List Closure} {fuel fuel' : Nat} {t t' : Task} {m m' : Machine} :
      Amid s total start calls fuel t m → s.Part fuel t m fuel' t' m' →
      Amid s total start calls fuel' t' m'
  | body {calls : List Closure} {fuel : Nat} {c : Closure} {args : List Value} {o : Nat}
      {sc : Scope} {m : Machine} : Amid s total start calls fuel (.call c args o) m →
      c.params.length ≤ args.length → s.program.scope? c.body = some sc → m.depth < s.limit →
      Amid s total start (c :: calls) fuel (.run sc.statements) (m.enterCall sc c args)

end Setup

/-! ## What holds at every point -/

/-- The machine is that far into a run: its outermost store is that of the globals, its depth is the
number of active calls, and the limit allows it. -/
structure Machine.Disciplined (s : Setup) (calls : List Closure) (m : Machine) : Prop where
  globals : m.memory.global?.map (·.store) = some m.globals
  depth : m.depth = calls.length
  limit : m.depth ≤ s.limit

namespace Machine.Disciplined

variable {s : Setup} {calls : List Closure} {m m' : Machine}

theorem restored (h : m.Disciplined s calls) (hr : m.Restored m') : m'.Disciplined s calls where
  globals := by
    have hg := h.globals
    rw [Memory.global?] at hg ⊢
    rwa [hr.frames, hr.globals]
  depth := hr.depth.trans h.depth
  limit := by
    rw [hr.depth]
    exact h.limit

theorem locate (h : m.Disciplined s calls) (o : Nat) :
    Disciplined s calls { m with location := o } := h.restored ⟨rfl, rfl, rfl⟩

/-- A frame on top of others leaves the outermost one in its place. -/
theorem enter (h : m.Disciplined s calls) (sc : Scope) (source : Option Handle)
    (bs : List (String × Value)) : (m.enter sc source bs).Disciplined s calls := by
  have hframes : (m.enter sc source bs).memory.frames =
      ⟨sc.id, (m.memory.capture sc.capture source).1⟩ :: m.memory.frames :=
    congrArg (_ :: ·) ((Memory.frames_writeAll ..).trans (Memory.frames_capture ..))
  have hne : m.memory.frames ≠ [] := by
    intro hnil
    have hg := h.globals
    rw [Memory.global?, hnil] at hg
    cases hg
  refine ⟨?_, h.depth, h.limit⟩
  rw [Memory.global?, hframes, List.getLast?_cons_of_ne_nil hne]
  exact h.globals

theorem enterCall (h : m.Disciplined s calls) (sc : Scope) (c : Closure) (args : List Value)
    (hm : m.depth < s.limit) : (m.enterCall sc c args).Disciplined s (c :: calls) where
  globals := (h.enter sc (some c.env) (c.params.zip args)).globals
  depth := congrArg (· + 1) h.depth
  limit := hm

end Machine.Disciplined

namespace Setup

variable {s : Setup}

theorem Part.disciplined {calls : List Closure} {fuel fuel' : Nat} {t t' : Task} {m m' : Machine}
    (h : s.Part fuel t m fuel' t' m') (hm : m.Disciplined s calls) : m'.Disciplined s calls := by
  have hexec {fuel : Nat} {n : Node} {m m' : Machine} {flow : Flow} (hm : m.Disciplined s calls)
      (h : Eval.exec s fuel n m = .ok flow m') : m'.Disciplined s calls := by
    have hr := Eval.Restores.exec s fuel n m
    rw [h] at hr
    exact hm.restored hr
  have heval {fuel : Nat} {n : Node} {m m' : Machine} {v : Value} (hm : m.Disciplined s calls)
      (h : Eval.eval s fuel n m = .ok v m') : m'.Disciplined s calls := by
    have hr := Eval.Restores.eval s fuel n m
    rw [h] at hr
    exact hm.restored hr
  cases h with
  | head | first | argument => exact hm
  | tail hn => exact hexec hm hn
  | subject => exact hm.locate _
  | block => exact (hm.locate _).enter _ _ _
  | branch hv => exact (heval (hm.locate _) hv).enter _ _ _
  | right hv | arguments hv | others hv => exact heval hm hv
  | scope => exact hm.enter _ _ _
  | @call _ _ ns _ _ _ _ m₁ _ hf hargs =>
    have hr := Eval.Restores.computeAll s fuel' ns [] m₁
    rw [hargs] at hr
    exact (heval hm hf).restored hr

theorem disciplined_inside (s : Setup) (root : Scope) (m : Machine) :
    (s.inside root m).Disciplined s [] := by
  have hframes : (s.inside root m).memory.frames = [⟨root.id, (s.inside root m).globals⟩] :=
    congrArg (_ :: ·) ((Memory.frames_writeAll ..).trans (Memory.frames_capture ..))
  refine ⟨?_, rfl, Nat.zero_le _⟩
  rw [Memory.global?, hframes]
  rfl

theorem Amid.disciplined {total fuel : Nat} {start m : Machine} {calls : List Closure} {t : Task}
    (h : s.Amid total start calls fuel t m) : m.Disciplined s calls := by
  induction h with
  | @root sc _ => exact s.disciplined_inside sc start
  | part _ hp ih => exact hp.disciplined ih
  | @body _ _ c args _ sc _ _ _ _ hm ih => exact ih.enterCall sc c args hm

/-! ## Where a halt comes from -/

section

variable {fuel fuel' : Nat} {t t' : Task} {m m' : Machine} {e : Halt}

/-- What ends a part of a task ends the task. -/
theorem Part.halts (h : s.Part fuel t m fuel' t' m') (ht : t'.Halts s fuel' e m') :
    t.Halts s fuel e m := by
  cases h with
  | head | argument => exact Eval.haltsWith_bind.2 (.inl ht)
  | tail hn => exact Eval.haltsWith_bind.2 (.inr ⟨_, _, hn, ht⟩)
  | @subject _ n _ _ hn =>
    cases n <;> cases hn <;>
      exact Eval.haltsWith_bind.2 (.inr ⟨_, _, rfl, Eval.haltsWith_bind.2 (.inl ht)⟩)
  | block hsc =>
    exact Eval.haltsWith_bind.2 (.inr ⟨_, _, rfl, (Eval.haltsWith_runScope hsc _).2 ht⟩)
  | branch hv htruthy hsc =>
    simp only [Task.Halts, Eval.exec]
    refine Eval.haltsWith_bind.2 (.inr ⟨_, _, rfl, Eval.haltsWith_bind.2 (.inr ⟨_, _, hv, ?_⟩)⟩)
    rw [if_pos htruthy]
    exact (Eval.haltsWith_runScope hsc _).2 ht
  | @first _ n _ _ hn =>
    cases n <;> cases hn <;> exact Eval.haltsWith_bind.2 (.inl ht)
  | right hv =>
    exact Eval.haltsWith_bind.2 (.inr ⟨_, _, hv, Eval.haltsWith_bind.2 (.inl ht)⟩)
  | scope hsc => exact Eval.haltsWith_bind.2 (.inl ((Eval.haltsWith_runScope hsc _).2 ht))
  | arguments hv =>
    exact Eval.haltsWith_bind.2 (.inr ⟨_, _, hv, Eval.haltsWith_bind.2 (.inl ht)⟩)
  | others hv => exact Eval.haltsWith_bind.2 (.inr ⟨_, _, hv, Eval.haltsWith_computeAll _ _ ht⟩)
  | call hf hargs =>
    refine Eval.haltsWith_bind.2 (.inr ⟨_, _, hf, ?_⟩)
    exact Eval.haltsWith_bind.2 (.inr ⟨_, _, hargs, ht⟩)

end

end Setup

namespace Eval

variable {α β : Type} {s : Setup} {fuel k o : Nat} {m : Machine}

/-- The computation makes no call, so that it does not end at the limit on the depth. -/
def Quiet (x : Eval α) : Prop := ∀ m k o, ¬HaltsWith (.fault (.stackExhausted k) o) (x m)

namespace Quiet

theorem pure (a : α) : Quiet (pure a) := fun _ _ _ => not_haltsWith_ok

theorem fault {cause : Cause} (h : ∀ k, cause ≠ .stackExhausted k) (o : Nat) :
    Quiet (fault cause o : Eval α) := by
  intro m k o' hhalts
  have heq := haltsWith_error.1 hhalts
  cases heq
  exact h k rfl

theorem bind {x : Eval α} {f : α → Eval β} (hx : Quiet x) (hf : ∀ a, Quiet (f a)) :
    Quiet (x >>= f) := by
  intro m k o h
  rcases haltsWith_bind.1 h with h | ⟨a, m₁, -, h⟩
  · exact hx m k o h
  · exact hf a m₁ k o h

theorem currentStore (o : Nat) : Quiet (currentStore o) := by
  refine bind (fun _ _ _ => not_haltsWith_ok) fun m => ?_
  split
  · exact pure _
  · exact fault (by simp) o

theorem globalStore (o : Nat) : Quiet (globalStore o) := by
  refine bind (fun _ _ _ => not_haltsWith_ok) fun m => ?_
  split
  · exact pure _
  · exact fault (by simp) o

theorem read (h : Handle) (name : String) (o : Nat) : Quiet (read h name o) := by
  refine bind (fun _ _ _ => not_haltsWith_ok) fun m => ?_
  split
  · exact pure _
  · exact fault (by simp) o

theorem write (h : Handle) (name : String) (v : Value) : Quiet (write h name v) :=
  fun _ _ _ => not_haltsWith_ok

theorem operate (r : Except Mismatch Value) (o : Nat) : Quiet (operate r o) := by
  cases r with
  | ok v => exact pure v
  | error e => exact fault (by simp) o

theorem publish (isPublic : Bool) (name : String) (v : Value) (o : Nat) :
    Quiet (publish isPublic name v o) := by
  unfold Eval.publish
  split
  · exact bind (globalStore o) fun g => write g name v
  · exact pure ()

theorem reassigned (op : BinaryOp) (h : Handle) (name : String) (v : Value) (o : Nat) :
    Quiet (reassigned op h name v o) := by
  unfold Eval.reassigned
  split
  · exact pure v
  · exact bind (read h name o) fun old => operate _ o

theorem callNative (name : String) (args : List Value) (o : Nat) :
    Quiet (callNative s name args o) := by
  unfold Eval.callNative
  split
  · exact fault (by simp) o
  · split
    · exact fault (by simp) o
    · refine bind (fun _ _ _ => not_haltsWith_ok) fun m => ?_
      refine bind (fun _ _ _ => not_haltsWith_ok) fun _ => ?_
      unfold ofReply
      split
      · exact pure _
      · exact pure _
      · exact pure _
      · exact pure _
      · exact pure _
      · exact fault (by simp) o
  · exact fault (by simp) o

end Quiet

/-- A quiet end of a computation leaves the limit to what stands before it. -/
theorem haltsWith_of_quiet {x : Eval α} {f : α → Eval β} (hf : ∀ a, Quiet (f a))
    (h : HaltsWith (.fault (.stackExhausted k) o) ((x >>= f) m)) :
    HaltsWith (.fault (.stackExhausted k) o) (x m) := by
  rcases haltsWith_bind.1 h with h | ⟨a, m₁, -, h⟩
  · exact h
  · exact absurd h (hf a m₁ k o)

/-- A scope ends at the limit only if it is there and its statements do. -/
theorem scope_of_exhausted {run : Node → Eval Flow} {id : ScopeId} {o' : Nat}
    (h : HaltsWith (.fault (.stackExhausted k) o) (runScope run s.program id o' m)) :
    ∃ sc, s.program.scope? id = some sc ∧ HaltsWith (.fault (.stackExhausted k) o)
      (runAll run sc.statements (m.enter sc (m.memory.current?.map (·.store)) [])) := by
  cases hsc : s.program.scope? id with
  | some sc => exact ⟨sc, rfl, (haltsWith_runScope hsc o').1 h⟩
  | none =>
    unfold runScope scope at h
    rw [hsc] at h
    have heq := haltsWith_error.1 h
    cases heq

/-- A call ends at the limit if it is refused, or if its body does. -/
theorem call_of_exhausted {c : Closure} {args : List Value} {o' : Nat}
    (h : HaltsWith (.fault (.stackExhausted k) o)
      (callFunction (exec s fuel) s c args o' m)) :
    (k = s.limit ∧ o = o' ∧ s.Callable c args ∧ s.limit ≤ m.depth) ∨
      ∃ sc, c.params.length ≤ args.length ∧ s.program.scope? c.body = some sc ∧
        m.depth < s.limit ∧ HaltsWith (.fault (.stackExhausted k) o)
          (runAll (exec s fuel) sc.statements (m.enterCall sc c args)) := by
  rcases Nat.lt_or_ge args.length c.params.length with hlt | hge
  · unfold callFunction at h
    rw [if_pos hlt] at h
    have heq := haltsWith_error.1 h
    cases heq
  cases hsc : s.program.scope? c.body with
  | none =>
    unfold callFunction scope at h
    rw [if_neg (Nat.not_lt.2 hge), hsc] at h
    have heq := haltsWith_error.1 h
    cases heq
  | some sc =>
    rcases Nat.lt_or_ge m.depth s.limit with hd | hd
    · rw [callFunction_of_lt hge hsc o' hd, haltsWith_leaving] at h
      exact .inr ⟨sc, hge, rfl, hd, h⟩
    · rw [callFunction_of_le hge hsc o' hd] at h
      have heq := haltsWith_error.1 h
      cases heq
      exact .inl ⟨rfl, rfl, ⟨hge, sc, hsc⟩, hd⟩

/-- A statement that ends at the limit has a part that does. -/
theorem part_of_exec {n : Node}
    (h : HaltsWith (.fault (.stackExhausted k) o) (exec s (fuel + 1) n m)) :
    ∃ t m', s.Part (fuel + 1) (.exec n) m fuel t m' ∧
      t.Halts s fuel (.fault (.stackExhausted k) o) m' := by
  cases n <;> simp only [exec] at h <;> rw [haltsWith_bind] at h <;>
    rcases h with h | ⟨_, _, ⟨⟩, h⟩
  any_goals exact absurd h not_haltsWith_ok
  case bind.inr name value isPublic o' =>
    refine ⟨_, _, .subject rfl, haltsWith_of_quiet (fun v => ?_) h⟩
    refine .bind (.publish isPublic name v o') fun _ => .bind (.currentStore o') fun h => ?_
    exact .bind (.write h name v) fun _ => .pure _
  case set.inr name op value o' =>
    refine ⟨_, _, .subject rfl, haltsWith_of_quiet (fun v => ?_) h⟩
    refine .bind (.currentStore o') fun h => .bind (.reassigned op h name v o') fun w => ?_
    exact .bind (.write h name w) fun _ => .pure _
  case branch.inr condition body o' =>
    rcases haltsWith_bind.1 h with h | ⟨v, m₁, hv, h⟩
    · exact ⟨_, _, .subject rfl, h⟩
    · split at h
      · next htruthy =>
        obtain ⟨sc, hsc, h⟩ := scope_of_exhausted h
        exact ⟨_, _, .branch hv htruthy hsc, h⟩
      · exact absurd h not_haltsWith_ok
  case scope.inr id o' =>
    obtain ⟨sc, hsc, h⟩ := scope_of_exhausted h
    exact ⟨_, _, .block hsc, h⟩
  all_goals
    refine ⟨_, _, .subject rfl, haltsWith_of_quiet (fun v => ?_) h⟩
    exact fun _ _ _ => not_haltsWith_ok

/-- An expression that ends at the limit has a part that does. -/
theorem part_of_eval {n : Node}
    (h : HaltsWith (.fault (.stackExhausted k) o) (eval s (fuel + 1) n m)) :
    ∃ t m', s.Part (fuel + 1) (.eval n) m fuel t m' ∧
      t.Halts s fuel (.fault (.stackExhausted k) o) m' := by
  have hvar (name : String) (o' : Nat) :
      Quiet (currentStore o' >>= fun h => read h name o') :=
    .bind (.currentStore o') fun h => .read h name o'
  have hfunction (params : List String) (body : ScopeId) (o' : Nat) :
      Quiet (currentStore o' >>= fun h => makeFunction params body h) :=
    .bind (.currentStore o') fun _ _ _ _ => not_haltsWith_ok
  have hstatement (o' : Nat) : Quiet (fault (.unsupported .statementAsValue) o' : Eval Value) :=
    .fault (by simp) o'
  cases n <;> simp only [eval] at h
  case var name o' => exact absurd h (hvar name o' m k o)
  case function params body o' => exact absurd h (hfunction params body o' m k o)
  case unary op operand o' =>
    exact ⟨_, _, .first rfl, haltsWith_of_quiet (fun v => .operate _ o') h⟩
  case binary op left right o' =>
    rcases haltsWith_bind.1 h with h | ⟨v, m₁, hv, h⟩
    · exact ⟨_, _, .first rfl, h⟩
    · exact ⟨_, _, .right hv, haltsWith_of_quiet (fun w => .operate _ o') h⟩
  case scope id o' =>
    obtain ⟨sc, hsc, h⟩ := scope_of_exhausted (haltsWith_of_quiet (fun flow => .pure _) h)
    exact ⟨_, _, .scope hsc, h⟩
  case call callee args o' =>
    rcases haltsWith_bind.1 h with h | ⟨f, m₁, hf, h⟩
    · exact ⟨_, _, .first rfl, h⟩
    rcases haltsWith_bind.1 h with h | ⟨vs, m₂, hvs, h⟩
    · exact ⟨_, _, .arguments hf, h⟩
    cases f with
    | function c => exact ⟨_, _, .call hf hvs, h⟩
    | native name => exact absurd h (Quiet.callNative name vs o' m₂ k o)
    | _ => exact absurd h (Quiet.fault (by simp) o' m₂ k o)
  all_goals first | exact absurd h not_haltsWith_ok | exact absurd h (hstatement _ m k o)

end Eval

namespace Setup

variable {s : Setup} {total : Nat} {start : Machine} {k o : Nat}

/-- In the run there comes up a call at `o` that can be made but for the limit. -/
def Refuses (s : Setup) (total : Nat) (start : Machine) (o : Nat) : Prop :=
  ∃ calls fuel c args m, s.Amid total start calls fuel (.call c args o) m ∧ s.Callable c args ∧
    m.depth = s.limit

/-- What is known of single statements and expressions is known of sequences and of calls. -/
theorem Amid.refuses_of_nodes {fuel : Nat}
    (hexec : ∀ {calls n m}, s.Amid total start calls fuel (.exec n) m →
      Eval.HaltsWith (.fault (.stackExhausted k) o) (Eval.exec s fuel n m) →
      k = s.limit ∧ s.Refuses total start o)
    (heval : ∀ {calls n m}, s.Amid total start calls fuel (.eval n) m →
      Eval.HaltsWith (.fault (.stackExhausted k) o) (Eval.eval s fuel n m) →
      k = s.limit ∧ s.Refuses total start o)
    {calls : List Closure} {t : Task} {m : Machine} (h : s.Amid total start calls fuel t m)
    (ht : t.Halts s fuel (.fault (.stackExhausted k) o) m) :
    k = s.limit ∧ s.Refuses total start o := by
  have hrun {ns : List Node} {calls : List Closure} {m : Machine}
      (h : s.Amid total start calls fuel (.run ns) m)
      (ht : Eval.HaltsWith (.fault (.stackExhausted k) o)
        (Eval.runAll (Eval.exec s fuel) ns m)) : k = s.limit ∧ s.Refuses total start o := by
    induction ns generalizing m with
    | nil => exact absurd ht Eval.not_haltsWith_ok
    | cons n ns ih =>
      rcases Eval.haltsWith_bind.1 ht with ht | ⟨flow, m₁, hn, ht⟩
      · exact hexec (h.part .head) ht
      · cases flow with
        | next => exact ih (h.part (.tail hn)) ht
        | leave v => exact absurd ht Eval.not_haltsWith_ok
  cases t with
  | run ns => exact hrun h ht
  | exec n => exact hexec h ht
  | eval n => exact heval h ht
  | compute ns =>
    induction ns generalizing m with
    | nil => exact absurd ht Eval.not_haltsWith_ok
    | cons n ns ih =>
      rcases Eval.haltsWith_bind.1 ht with ht | ⟨v, m₁, hv, ht⟩
      · exact heval (h.part .argument) ht
      · exact ih (h.part (.others hv)) (Eval.haltsWith_computeAll _ _ ht)
  | call c args o' =>
    obtain ⟨rfl, rfl, hc, hd⟩ | ⟨sc, hargs, hsc, hd, ht⟩ := Eval.call_of_exhausted ht
    · exact ⟨rfl, calls, fuel, c, args, m, h, hc, Nat.le_antisymm h.disciplined.limit hd⟩
    · exact hrun (h.body hargs hsc hd) ht

/-- What ends at the limit contains a call that is refused there. The induction is on the fuel: the
parts of a statement or an expression have less of it. -/
theorem Amid.refuses {fuel : Nat} {calls : List Closure} {t : Task} {m : Machine}
    (h : s.Amid total start calls fuel t m)
    (ht : t.Halts s fuel (.fault (.stackExhausted k) o) m) :
    k = s.limit ∧ s.Refuses total start o := by
  induction fuel generalizing calls t m with
  | zero =>
    refine h.refuses_of_nodes (fun _ ht => ?_) (fun _ ht => ?_) ht
    · cases Eval.haltsWith_error.1 ht
    · cases Eval.haltsWith_error.1 ht
  | succ fuel ih =>
    refine h.refuses_of_nodes (fun h ht => ?_) (fun h ht => ?_) ht
    · obtain ⟨t', m', hpart, ht'⟩ := Eval.part_of_exec ht
      exact ih (h.part hpart) ht'
    · obtain ⟨t', m', hpart, ht'⟩ := Eval.part_of_eval ht
      exact ih (h.part hpart) ht'

/-- What ends a task ends the run that it comes up in. -/
theorem Amid.halts {fuel : Nat} {calls : List Closure} {t : Task} {m : Machine} {e : Halt}
    (h : s.Amid total start calls fuel t m) (ht : t.Halts s fuel e m) :
    Eval.HaltsWith e (s.runWith total start) := by
  induction h with
  | root hsc =>
    rw [runWith_eq s hsc, Eval.haltsWith_leaving]
    exact ht
  | part _ hp ih => exact ih (hp.halts ht)
  | body _ hargs hsc hd ih =>
    refine ih ?_
    rw [Task.Halts, Eval.callFunction_of_lt hargs hsc _ hd, Eval.haltsWith_leaving]
    exact ht

/-- A run ends at the limit on the depth just when it comes to a call that only the limit
forbids. -/
theorem exhausted_iff (s : Setup) (total : Nat) (start : Machine) (k o : Nat) :
    Eval.HaltsWith (.fault (.stackExhausted k) o) (s.runWith total start) ↔
      k = s.limit ∧ s.Refuses total start o := by
  constructor
  · intro h
    cases hroot : s.program.scope? s.program.root with
    | none =>
      unfold runWith at h
      rw [hroot] at h
      cases Eval.haltsWith_error.1 h
    | some root =>
      rw [runWith_eq s hroot, Eval.haltsWith_leaving] at h
      exact (Amid.root hroot).refuses h
  · rintro ⟨rfl, calls, fuel, c, args, m, h, ⟨hargs, sc, hsc⟩, hd⟩
    refine h.halts ?_
    rw [Task.Halts, Eval.callFunction_of_le hargs hsc o (Nat.le_of_eq hd.symm)]
    exact ⟨_, rfl⟩

/-- Stack discipline, in any program. Whatever a statement or an expression ends with, the stack and
the depth are as they were. All through a run the outermost store is that of the globals and the
depth is the number of active calls, at most the limit; a call leaves its body one call deeper than
it was made, so that leaving it never stops at depth 0; and the run ends at the limit just when a
call that has its arguments and its body is made at that depth. -/
theorem stack_discipline (s : Setup) :
    (∀ fuel n, Eval.Restores (Eval.exec s fuel n)) ∧
    (∀ fuel n, Eval.Restores (Eval.eval s fuel n)) ∧
    ∀ total start,
      (∀ calls fuel t m, s.Amid total start calls fuel t m → m.Disciplined s calls) ∧
      (∀ calls fuel c args o m sc, s.Amid total start calls fuel (.call c args o) m →
        c.params.length ≤ args.length → s.program.scope? c.body = some sc → m.depth < s.limit →
        let inside := Eval.runAll (Eval.exec s fuel) sc.statements (m.enterCall sc c args)
        Eval.callFunction (Eval.exec s fuel) s c args o m =
          Eval.leaving Flow.value Machine.leaveCall inside ∧
        (Eval.after inside).depth = calls.length + 1) ∧
      ∀ k o, Eval.HaltsWith (.fault (.stackExhausted k) o) (s.runWith total start) ↔
        k = s.limit ∧ s.Refuses total start o := by
  refine ⟨Eval.Restores.exec s, Eval.Restores.eval s, fun total start => ?_⟩
  refine ⟨fun _ _ _ _ h => h.disciplined, ?_, s.exhausted_iff total start⟩
  intro calls fuel c args o m sc h hargs hsc hd
  refine ⟨Eval.callFunction_of_lt hargs hsc o hd, ?_⟩
  rw [(Eval.Restores.runAll s fuel sc.statements _).depth]
  exact congrArg (· + 1) h.disciplined.depth

/-- A function that calls another one, with room for one call. -/
theorem stack_discipline_nested :
    ∃ (s : Setup) (c c' : Closure) (m m' : Machine), s.limit = 1 ∧
      s.Amid 5 {} [] 3 (.call c [] 24) m ∧ m.depth < s.limit ∧ m.Disciplined s [] ∧
      (∃ sc, s.program.scope? c.body = some sc ∧
        (Eval.after (Eval.runAll (Eval.exec s 3) sc.statements (m.enterCall sc c []))).depth = 1) ∧
      s.Amid 5 {} [c] 1 (.call c' [] 20) m' ∧ m'.Disciplined s [c] ∧
      Eval.HaltsWith (.fault (.stackExhausted 1) 20) (s.runWith 5 {}) := by
  let root : Scope := ⟨0, none, .fresh, [.result (.call (.function [] 1 0) [] 24) 24], 0⟩
  let outer : Scope := ⟨1, some 0, .copied, [.result (.call (.function [] 2 7) [] 20) 20], 5⟩
  let inner : Scope := ⟨2, some 1, .copied, [.result (.bool true 14) 14], 12⟩
  let s : Setup := { program := { scopes := #[root, outer, inner], root := 0 }, limit := 1 }
  obtain ⟨-, -, hrun⟩ := s.stack_discipline
  obtain ⟨hall, hcall, hlimit⟩ := hrun 5 {}
  have h : s.Amid 5 {} [] 3 (.call ⟨[], 1, 0, 0⟩ [] 24) _ :=
    (((Amid.root rfl).part .head).part (.subject rfl)).part (.call rfl rfl)
  have hbody : s.Amid 5 {} [⟨[], 1, 0, 0⟩] 3 (.run outer.statements) _ :=
    h.body (Nat.le_refl _) rfl Nat.zero_lt_one
  have h' : s.Amid 5 {} [⟨[], 1, 0, 0⟩] 1 (.call ⟨[], 2, 1, 1⟩ [] 20) _ :=
    ((hbody.part .head).part (.subject rfl)).part (.call rfl rfl)
  have hrefuses : s.Refuses 5 {} 20 :=
    ⟨_, _, _, _, _, h', ⟨Nat.le_refl _, inner, rfl⟩, (hall _ _ _ _ h').depth⟩
  refine ⟨s, _, _, _, _, rfl, h, Nat.zero_lt_one, hall _ _ _ _ h, ⟨outer, rfl, ?_⟩, h',
    hall _ _ _ _ h', (hlimit 1 20).2 ⟨rfl, hrefuses⟩⟩
  exact (hcall _ _ _ _ _ _ outer h (Nat.le_refl _) rfl Nat.zero_lt_one).2

end Setup

end ScopeScript
