import ScopeScript.Proofs.Machine.Safety
import ScopeScript.Proofs.Offset.Matching

/-!
# Relations that evaluation respects

A relation between computations is a correspondence when it holds between the primitives of two
machines, at offsets that an alignment relates, and is kept by sequencing, by frames and by calls.
Such a relation holds between the runs of the evaluator on any two programs that match along the
alignment (`Correspondence.exec_eval`). The runs may differ in the limit on the call depth, which is
`d` in the first and `d'` in the second.

Most relations are about one program, where the offsets are the same: these are the congruences
(`Congruence.exec`, `Congruence.eval`). For a relation that comes from one between machines, the
clauses for what looks something up, for frames and for calls come down to the machines
(`agree_look`, `agree_withFrame`, `agree_withCall`).
-/

namespace ScopeScript.Eval

/-- The store of a scope that is entered in the place it stands in. -/
def captureHere (mode : Capture) : Eval Handle := do
  let m ← get
  capture mode (m.memory.current?.map (·.store))

/-- Notes a call of a native function and gives the snippets of the earlier ones. -/
def recordCall (name snippet : String) : Eval (List String) := do
  let m ← get
  modify fun m => { m with calls := m.calls.push ⟨name, snippet⟩ }
  return snippetsOf name m.calls

theorem runScope_eq_bind (run : Node → Eval Flow) (p : Program) (id : ScopeId) (o : Nat) :
    runScope run p id o = scope p id o >>= fun sc =>
      captureHere sc.capture >>= fun store =>
        withFrame ⟨sc.id, store⟩ (runAll run sc.statements) := rfl

/-- A native function with a snippet is looked up before its call is noted. -/
theorem callNative_text (s : Setup) (name snippet : String) (args : List Value) (o : Nat) :
    callNative s name (.text snippet :: args) o =
      match s.native? name with
      | none => fault (.nativeUnavailable name) o
      | some native => recordCall name snippet >>= fun earlier =>
        ofReply name o (native.answer earlier snippet) := by
  unfold callNative
  cases s.native? name <;> rfl

theorem get_bind_apply {α : Type} (f : Machine → Eval α) (m : Machine) :
    (get >>= f) m = f m m := rfl

theorem currentStore_eq (o : Nat) (m : Machine) : currentStore o m =
    (m.memory.current?.map (·.store)).elim (.error (.fault (.unsupported .noActiveScope) o) m)
      fun h => .ok h m := by
  rw [currentStore, get_bind_apply]
  cases m.memory.current? <;> rfl

theorem globalStore_eq (o : Nat) (m : Machine) : globalStore o m =
    (m.memory.global?.map (·.store)).elim (.error (.fault (.unsupported .noGlobalScope) o) m)
      fun h => .ok h m := by
  rw [globalStore, get_bind_apply]
  cases m.memory.global? <;> rfl

theorem read_eq (h : Handle) (name : String) (o : Nat) (m : Machine) : read h name o m =
    (m.memory.read h name).elim (.error (.fault (.undefined name) o) m) fun v => .ok v m := by
  rw [read, get_bind_apply]
  cases m.memory.read h name <;> rfl

section

variable {α β : Type} {E : Halt → Halt → Prop} {S : Machine → Machine → Prop} {R : α → α → Prop}
  {Q : β → β → Prop} {x x' : Eval α}

/-- What both machines show, or lack. -/
theorem agree_look {show? show?' : Machine → Option α} {e e' : Halt} (he : E e e')
    (hx : ∀ m, x m = (show? m).elim (.error e m) fun a => .ok a m)
    (hx' : ∀ m, x' m = (show?' m).elim (.error e' m) fun a => .ok a m)
    (h : ∀ {m m'}, S m m' → Option.Rel R (show? m) (show?' m')) : Agree E S R x x' := by
  intro m m' hm
  have hshow := h hm
  rw [hx, hx']
  generalize show? m = shown at hshow
  generalize show?' m' = shown' at hshow
  cases hshow with
  | none => exact .error he hm
  | some ha => exact .ok ha hm

theorem optionRel_eq {a a' : Option α} (h : a' = a) : Option.Rel Eq a a' := by
  cases h
  cases a with
  | none => exact .none
  | some a => exact .some rfl

theorem resultRel_leaving {f f' : α → β} {depart depart' : Machine → Machine}
    {r r' : EStateM.Result Halt Machine α} (h : ResultRel E S R r r')
    (hd : ∀ {m m'}, S m m' → S (depart m) (depart' m')) (hf : ∀ {a a'}, R a a' → Q (f a) (f' a')) :
    ResultRel E S Q (leaving f depart r) (leaving f' depart' r') := by
  cases h with
  | ok ha hm => exact .ok (hf ha) (hd hm)
  | error he hm => exact .error he (hd hm)

theorem agree_withFrame {f f' : Frame}
    (hpush : ∀ {m m'}, S m m' →
      S { m with memory := m.memory.push f } { m' with memory := m'.memory.push f' })
    (hleave : ∀ {m m'}, S m m' → S m.leave m'.leave) (hx : Agree E S R x x') :
    Agree E S R (withFrame f x) (withFrame f' x') := by
  intro m m' hm
  rw [withFrame_eq, withFrame_eq]
  exact resultRel_leaving (hx (hpush hm)) hleave id

theorem agree_withCall (limit : Nat) {o o' : Nat}
    (he : E (.fault (.stackExhausted limit) o) (.fault (.stackExhausted limit) o'))
    (hdepth : ∀ {m m'}, S m m' → m'.depth = m.depth)
    (hnest : ∀ {m m'} k, S m m' → S { m with depth := k } { m' with depth := k })
    (hx : Agree E S R x x') : Agree E S R (withCall limit o x) (withCall limit o' x') := by
  intro m m' hm
  by_cases hlt : m.depth < limit
  · rw [withCall_eq hlt, withCall_eq (by rw [hdepth hm]; exact hlt), hdepth hm]
    refine resultRel_leaving (hx (hnest _ hm)) (fun {m m'} hm => ?_) id
    rw [hdepth hm]
    exact hnest _ hm
  · unfold withCall
    rw [hdepth hm, if_pos (Nat.not_lt.1 hlt), if_pos (Nat.not_lt.1 hlt)]
    exact .error he hm

end

/-! ## Correspondences -/

/-- What a relation between computations has to satisfy to hold between the runs of the evaluator on
programs that match. -/
structure Correspondence (A : Alignment) (d d' : Nat) (R : (α : Type) → Eval α → Eval α → Prop) :
    Prop where
  pure : ∀ {α : Type} (a : α), R α (pure a) (pure a)
  fault : ∀ {α : Type} (cause : Cause) {o o' : Nat}, A.place o o' →
    R α (fault cause o) (fault cause o')
  outOfFuel : ∀ {α : Type} {o o' : Nat}, A.place o o' →
    R α (throw (.outOfFuel o)) (throw (.outOfFuel o'))
  bind : ∀ {α β : Type} {x x' : Eval α} {f f' : α → Eval β}, R α x x' →
    (∀ a, R β (f a) (f' a)) → R β (x >>= f) (x' >>= f')
  startAt : ∀ {o o'}, A.place o o' → R Unit (startAt o) (startAt o')
  print : ∀ text {o o'}, A.place o o' → A.print o o' → R Unit (print text o) (print text o')
  currentStore : ∀ {o o'}, A.place o o' → R Handle (currentStore o) (currentStore o')
  globalStore : ∀ {o o'}, A.place o o' → R Handle (globalStore o) (globalStore o')
  read : ∀ h name {o o'}, A.place o o' → R Value (read h name o) (read h name o')
  write : ∀ h name v, R Unit (write h name v) (write h name v)
  writeAll : ∀ h bs, R Unit (writeAll h bs) (writeAll h bs)
  capture : ∀ mode h, R Handle (capture mode (some h)) (capture mode (some h))
  captureHere : ∀ mode, R Handle (captureHere mode) (captureHere mode)
  makeFunction : ∀ params body h,
    R Value (makeFunction params body h) (makeFunction params body h)
  recordCall : ∀ name snippet, R (List String) (recordCall name snippet) (recordCall name snippet)
  withFrame : ∀ {α : Type} {x x' : Eval α} (f : Frame), R α x x' →
    R α (withFrame f x) (withFrame f x')
  withCall : ∀ {α : Type} {x x' : Eval α} {o o' : Nat}, A.place o o' → R α x x' →
    R α (withCall d o x) (withCall d' o' x')

namespace Correspondence

variable {A : Alignment} {R : (α : Type) → Eval α → Eval α → Prop} {o o' : Nat}

section

variable {d d' : Nat} (hR : Correspondence A d d' R)
include hR

theorem operate (r : Except Mismatch Value) (ho : A.place o o') :
    R Value (operate r o) (operate r o') := by
  cases r with
  | ok v => exact hR.pure v
  | error e => exact hR.fault _ ho

theorem publish (isPublic : Bool) (name : String) (v : Value) (ho : A.place o o') :
    R Unit (publish isPublic name v o) (publish isPublic name v o') := by
  unfold Eval.publish
  split
  · exact hR.bind (hR.globalStore ho) fun g => hR.write g name v
  · exact hR.pure ()

theorem reassigned (op : BinaryOp) (h : Handle) (name : String) (v : Value) (ho : A.place o o') :
    R Value (reassigned op h name v o) (reassigned op h name v o') := by
  unfold Eval.reassigned
  split
  · exact hR.pure v
  · exact hR.bind (hR.read h name ho) fun old => hR.operate _ ho

theorem ofReply (name : String) (r : Reply) (ho : A.place o o') :
    R Value (ofReply name o r) (ofReply name o' r) := by
  cases r with
  | unsupported kind => exact hR.fault _ ho
  | _ => exact hR.pure _

theorem runAll {run run' : Node → Eval Flow} {ns ns' : List Node}
    (h : List.Forall₂ (fun n n' => R Flow (run n) (run' n')) ns ns') :
    R Flow (runAll run ns) (runAll run' ns') := by
  induction h with
  | nil => exact hR.pure _
  | cons hn _ ih =>
    refine hR.bind hn fun flow => ?_
    cases flow with
    | next => exact ih
    | leave v => exact hR.pure _

theorem computeAll {compute compute' : Node → Eval Value} {ns ns' : List Node}
    (h : List.Forall₂ (fun n n' => R Value (compute n) (compute' n')) ns ns') (done : List Value) :
    R (List Value) (computeAll compute ns done) (computeAll compute' ns' done) := by
  induction h generalizing done with
  | nil => exact hR.pure _
  | cons hn _ ih => exact hR.bind hn fun v => ih (v :: done)

end

/-! ## Scopes and calls -/

variable {s s' : Setup} (hR : Correspondence A s.limit s'.limit R) (hs : Setup.Matches A s s')
include hR hs

section

theorem callNative (name : String) (args : List Value) (ho : A.place o o') :
    R Value (callNative s name args o) (callNative s' name args o') := by
  cases args with
  | nil => exact hR.fault _ ho
  | cons v args =>
    cases v with
    | text snippet =>
      have hnative : s'.native? name = s.native? name := by
        rw [Setup.native?, Setup.native?, hs.natives]
      rw [callNative_text, callNative_text, hnative]
      cases s.native? name with
      | none => exact hR.fault _ ho
      | some native => exact hR.bind (hR.recordCall name snippet) fun _ => hR.ofReply name _ ho
    | _ => exact hR.fault _ ho

/-- Scopes of one number match, or there is none of that number in either program. -/
theorem scope_bind {β : Type} {f f' : Scope → Eval β} (id : ScopeId) (ho : A.place o o')
    (hf : ∀ {sc sc'}, Scope.Matches A sc sc' → R β (f sc) (f' sc')) :
    R β (scope s.program id o >>= f) (scope s'.program id o' >>= f') := by
  have h := hs.program.scope? id
  unfold Eval.scope
  generalize s.program.scope? id = q at h ⊢
  generalize s'.program.scope? id = q' at h ⊢
  cases h with
  | none => exact hR.fault _ ho
  | some hsc => exact hf hsc

variable {run run' : Node → Eval Flow}
  (hrun : ∀ {n n'}, Node.Matches A n n' → R Flow (run n) (run' n'))
include hrun

theorem runScope (id : ScopeId) (ho : A.place o o') :
    R Flow (runScope run s.program id o) (runScope run' s'.program id o') := by
  rw [runScope_eq_bind, runScope_eq_bind]
  refine hR.scope_bind hs id ho fun hsc => ?_
  cases hsc with
  | mk id parent mode hns _ =>
    refine hR.bind (hR.captureHere mode) fun store => ?_
    exact hR.withFrame _ (hR.runAll (hns.imp fun _ _ => hrun))

theorem callFunction (c : Closure) (args : List Value) (ho : A.place o o') :
    R Value (callFunction run s c args o) (callFunction run' s' c args o') := by
  unfold Eval.callFunction
  split
  · exact hR.fault _ ho
  · refine hR.scope_bind hs c.body ho fun hsc => ?_
    cases hsc with
    | mk id parent mode hns _ =>
      refine hR.bind (hR.capture mode c.env) fun store => ?_
      refine hR.bind (hR.writeAll store _) fun _ => ?_
      have hbody := hR.withFrame ⟨id, store⟩ (hR.runAll (hns.imp fun _ _ => hrun))
      exact hR.bind (hR.withCall ho hbody) fun _ => hR.pure _

theorem call (f : Value) (args : List Value) (ho : A.place o o') :
    R Value (call run s f args o) (call run' s' f args o') := by
  cases f with
  | function c => exact hR.callFunction hs hrun c args ho
  | native name => exact hR.callNative hs name args ho
  | _ => exact hR.fault _ ho

end

/-! ## The evaluator -/

section

variable {fuel : Nat}
  (hexec : ∀ {n n'}, Node.Matches A n n' → R Flow (Eval.exec s fuel n) (Eval.exec s' fuel n'))
  (heval : ∀ {n n'}, Node.Matches A n n' → R Value (Eval.eval s fuel n) (Eval.eval s' fuel n'))
  {n n' : Node}
include hexec heval

theorem exec_succ (h : Node.Matches A n n') :
    R Flow (Eval.exec s (fuel + 1) n) (Eval.exec s' (fuel + 1) n') := by
  have hstart := hR.startAt h.offset
  have hvalue := hR.bind (heval h) fun _ => hR.pure Flow.next
  cases h with
  | bind name isPublic h ho =>
    refine hR.bind hstart fun _ => hR.bind (heval h) fun v => ?_
    refine hR.bind (hR.publish isPublic name v ho) fun _ => ?_
    refine hR.bind (hR.currentStore ho) fun h => ?_
    exact hR.bind (hR.write h name v) fun _ => hR.pure _
  | set name op h ho =>
    refine hR.bind hstart fun _ => hR.bind (heval h) fun v => ?_
    refine hR.bind (hR.currentStore ho) fun h => ?_
    refine hR.bind (hR.reassigned op h name v ho) fun w => ?_
    exact hR.bind (hR.write h name w) fun _ => hR.pure _
  | branch body h ho =>
    refine hR.bind hstart fun _ => hR.bind (heval h) fun v => ?_
    split
    · exact hR.runScope hs hexec body ho
    · exact hR.pure _
  | print h ho hp =>
    refine hR.bind hstart fun _ => hR.bind (heval h) fun v => ?_
    exact hR.bind (hR.print _ ho hp) fun _ => hR.pure _
  | result h _ => exact hR.bind hstart fun _ => hR.bind (heval h) fun v => hR.pure _
  | scope id ho => exact hR.bind hstart fun _ => hR.runScope hs hexec id ho
  | empty _ => exact hR.bind hstart fun _ => hR.pure _
  | _ => exact hR.bind hstart fun _ => hvalue

theorem eval_succ (h : Node.Matches A n n') :
    R Value (Eval.eval s (fuel + 1) n) (Eval.eval s' (fuel + 1) n') := by
  cases h with
  | var name ho => exact hR.bind (hR.currentStore ho) fun h => hR.read h name ho
  | unary op h ho => exact hR.bind (heval h) fun v => hR.operate _ ho
  | binary op hl hr ho =>
    exact hR.bind (heval hl) fun a => hR.bind (heval hr) fun b => hR.operate _ ho
  | function params body ho =>
    exact hR.bind (hR.currentStore ho) fun h => hR.makeFunction params body h
  | scope id ho => exact hR.bind (hR.runScope hs hexec id ho) fun _ => hR.pure _
  | call hf hargs ho =>
    refine hR.bind (heval hf) fun f => ?_
    refine hR.bind (hR.computeAll (hargs.imp fun _ _ => heval) []) fun vs => ?_
    exact hR.call hs hexec f vs ho
  | number | text | bool | nil => exact hR.pure _
  | bind _ _ _ ho | set _ _ _ ho | branch _ _ ho | print _ ho _ | result _ ho | empty ho =>
    exact hR.fault _ ho

end

/-- Statements and expressions that match are evaluated as the relation says. -/
theorem exec_eval : ∀ fuel : Nat,
    (∀ {n n'}, Node.Matches A n n' → R Flow (Eval.exec s fuel n) (Eval.exec s' fuel n')) ∧
    ∀ {n n'}, Node.Matches A n n' → R Value (Eval.eval s fuel n) (Eval.eval s' fuel n')
  | 0 => ⟨fun h => hR.outOfFuel h.offset, fun h => hR.outOfFuel h.offset⟩
  | fuel + 1 => by
    obtain ⟨hexec, heval⟩ := exec_eval fuel
    exact ⟨hR.exec_succ hs hexec heval, hR.eval_succ hs hexec heval⟩

end Correspondence

/-- What a relation between computations has to satisfy to hold between runs of the evaluator. -/
structure Congruence (d d' : Nat) (R : (α : Type) → Eval α → Eval α → Prop) : Prop where
  pure : ∀ {α : Type} (a : α), R α (pure a) (pure a)
  throw : ∀ {α : Type} (e : Halt), R α (throw e) (throw e)
  bind : ∀ {α β : Type} {x x' : Eval α} {f f' : α → Eval β}, R α x x' →
    (∀ a, R β (f a) (f' a)) → R β (x >>= f) (x' >>= f')
  startAt : ∀ o, R Unit (startAt o) (startAt o)
  print : ∀ text o, R Unit (print text o) (print text o)
  currentStore : ∀ o, R Handle (currentStore o) (currentStore o)
  globalStore : ∀ o, R Handle (globalStore o) (globalStore o)
  read : ∀ h name o, R Value (read h name o) (read h name o)
  write : ∀ h name v, R Unit (write h name v) (write h name v)
  writeAll : ∀ h bs, R Unit (writeAll h bs) (writeAll h bs)
  capture : ∀ mode h, R Handle (capture mode (some h)) (capture mode (some h))
  captureHere : ∀ mode, R Handle (captureHere mode) (captureHere mode)
  makeFunction : ∀ params body h,
    R Value (makeFunction params body h) (makeFunction params body h)
  recordCall : ∀ name snippet, R (List String) (recordCall name snippet) (recordCall name snippet)
  withFrame : ∀ {α : Type} {x x' : Eval α} (f : Frame), R α x x' →
    R α (withFrame f x) (withFrame f x')
  withCall : ∀ {α : Type} {x x' : Eval α} (o : Nat), R α x x' →
    R α (withCall d o x) (withCall d' o x')

namespace Congruence

variable {d d' : Nat} {R : (α : Type) → Eval α → Eval α → Prop} (hR : Congruence d d' R)
include hR

theorem correspondence : Correspondence .diagonal d d' R where
  pure := hR.pure
  fault cause _ _ ho := by
    cases ho
    exact hR.throw _
  outOfFuel ho := by
    cases ho
    exact hR.throw _
  bind := hR.bind
  startAt ho := by
    cases ho
    exact hR.startAt _
  print text _ _ ho _ := by
    cases ho
    exact hR.print text _
  currentStore ho := by
    cases ho
    exact hR.currentStore _
  globalStore ho := by
    cases ho
    exact hR.globalStore _
  read h name _ _ ho := by
    cases ho
    exact hR.read h name _
  write := hR.write
  writeAll := hR.writeAll
  capture := hR.capture
  captureHere := hR.captureHere
  makeFunction := hR.makeFunction
  recordCall := hR.recordCall
  withFrame := hR.withFrame
  withCall ho h := by
    cases ho
    exact hR.withCall _ h

theorem runAll {run run' : Node → Eval Flow} (hrun : ∀ n, R Flow (run n) (run' n))
    (ns : List Node) : R Flow (runAll run ns) (runAll run' ns) :=
  hR.correspondence.runAll (List.forall₂_same.2 fun n _ => hrun n)

theorem computeAll {compute compute' : Node → Eval Value}
    (hcompute : ∀ n, R Value (compute n) (compute' n)) (ns : List Node) (done : List Value) :
    R (List Value) (computeAll compute ns done) (computeAll compute' ns done) :=
  hR.correspondence.computeAll (List.forall₂_same.2 fun n _ => hcompute n) done

theorem exec_eval (s : Setup) (fuel : Nat) (n : Node) :
    R Flow (Eval.exec { s with limit := d } fuel n) (Eval.exec { s with limit := d' } fuel n) ∧
    R Value (Eval.eval { s with limit := d } fuel n) (Eval.eval { s with limit := d' } fuel n) := by
  have hs : Setup.Matches .diagonal { s with limit := d } { s with limit := d' } :=
    ⟨s.program.matches_self Alignment.diagonal_reflexive, rfl⟩
  obtain ⟨hexec, heval⟩ := Correspondence.exec_eval hR.correspondence hs fuel
  have hn := n.matches_self Alignment.diagonal_reflexive
  exact ⟨hexec hn, heval hn⟩

theorem exec (s : Setup) (fuel : Nat) (n : Node) :
    R Flow (Eval.exec { s with limit := d } fuel n) (Eval.exec { s with limit := d' } fuel n) :=
  (hR.exec_eval s fuel n).1

theorem eval (s : Setup) (fuel : Nat) (n : Node) :
    R Value (Eval.eval { s with limit := d } fuel n) (Eval.eval { s with limit := d' } fuel n) :=
  (hR.exec_eval s fuel n).2

end Congruence

end ScopeScript.Eval
