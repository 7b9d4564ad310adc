import ScopeScript.Proofs.Machine.Invariant
import ScopeScript.Proofs.Machine.Termination

/-!
# Safe computations

`Safe s base fs lo x Φ`: started on a sound machine with the frames `fs` and at least `lo` stores,
`x` ends on a sound one, keeps all but the store of the innermost frame, and ends with a value that
satisfies `Φ` or for a reason that does not lie in the form of the program. There is one rule for
each primitive of the machine, and from them the evaluator is safe on every node of a well-formed
program (`Eval.safe`).
-/

namespace ScopeScript

/-- The faults that a well-formed program can end at. -/
def Cause.Ordinary : Cause → Prop
  | .undefined _ | .operation _ | .missingArguments _ _ | .notCallable _ | .stackExhausted _ => True
  | .nativeUnavailable _ | .unsupported _ => False

def Halt.Ordinary : Halt → Prop
  | .fault cause _ => cause.Ordinary
  | .outOfFuel _ => True

/-- A value that leaves a scope can be used. -/
def Flow.Sound (s : Setup) (base size : Nat) : Flow → Prop
  | .next => True
  | .leave v => v.Sound s base size

theorem Flow.Sound.value {s : Setup} {base size : Nat} {flow : Flow} (h : flow.Sound s base size) :
    flow.value.Sound s base size := by
  cases flow with
  | next => trivial
  | leave v => exact h

/-- A number, a text or a truth value. -/
def Value.IsPlain : Value → Prop
  | .number _ | .text _ | .bool _ => True
  | _ => False

theorem BinaryOp.isPlain_of_onKinds? {op : BinaryOp} {a b v : Value}
    (h : op.onKinds? a b = some v) : v.IsPlain := by
  unfold BinaryOp.onKinds? at h
  split at h
  · cases op <;> cases h <;> trivial
  · cases op <;> cases h <;> trivial
  · cases h

/-- An operator makes a number, a text or a truth value, or gives its right operand back. -/
theorem BinaryOp.of_apply {op : BinaryOp} {a b v : Value} (h : op.apply a b = .ok v) :
    v = b ∨ v.IsPlain := by
  unfold BinaryOp.apply at h
  split at h
  · next w hw =>
    cases h
    rcases Option.or_eq_some_iff.1 hw with hk | ⟨-, hk⟩
    · exact .inr (isPlain_of_onKinds? hk)
    · cases op <;> cases hk <;> first | exact .inl rfl | exact .inr trivial
  · cases h

theorem UnaryOp.of_apply {op : UnaryOp} {a v : Value} (h : op.apply a = .ok v) : v.IsPlain := by
  unfold UnaryOp.apply at h
  split at h <;> cases h <;> trivial

theorem Value.IsPlain.sound {s : Setup} {base size : Nat} {v : Value} (h : v.IsPlain) :
    v.Sound s base size := by
  cases v with
  | number | text | bool => trivial
  | nil | function | native | error => exact h.elim

theorem BinaryOp.sound_of_apply {s : Setup} {base size : Nat} {op : BinaryOp} {a b v : Value}
    (hb : b.Sound s base size) (h : op.apply a b = .ok v) : v.Sound s base size := by
  rcases BinaryOp.of_apply h with rfl | hv
  · exact hb
  · exact hv.sound

theorem UnaryOp.sound_of_apply {s : Setup} {base size : Nat} {op : UnaryOp} {a v : Value}
    (h : op.apply a = .ok v) : v.Sound s base size :=
  (UnaryOp.of_apply h).sound

namespace Eval

variable {α β : Type} {s : Setup} {base : Handle} {fs : List Frame} {lo : Nat}
  {own : Option Handle} {m : Machine} {Φ : Nat → α → Prop} {Ψ : Nat → β → Prop}

/-- A value with `Φ` in a memory of as many stores as there are, or an ordinary halt. -/
def Yields (Φ : Nat → α → Prop) : EStateM.Result Halt Machine α → Prop
  | .ok a m => Φ m.memory.stores.size a
  | .error e _ => e.Ordinary

/-- The result of a safe computation that was started on `m`. -/
structure Leaves (s : Setup) (base : Handle) (fs : List Frame) (own : Option Handle) (m : Machine)
    (Φ : Nat → α → Prop) (r : EStateM.Result Halt Machine α) : Prop where
  sound : (after r).Sound s base fs
  keeps : m.Keeps s.program own (after r)
  yields : Yields Φ r

/-- The store that a computation with the frames `fs` may write to. -/
def ownStore (fs : List Frame) : Option Handle := fs.head?.map (·.store)

theorem ownStore_mem (hm : m.Sound s base fs) {h : Handle} (hh : ownStore fs = some h) :
    base ≤ h ∧ h < m.memory.stores.size := by
  obtain ⟨f, hf, rfl⟩ := Option.map_eq_some_iff.1 hh
  exact hm.active f (List.mem_of_mem_head? hf)

/-- Started on a sound machine with these frames and at least `lo` stores, the computation leaves
one, keeps all but its own store, and yields `Φ`. -/
def Safe (s : Setup) (base : Handle) (fs : List Frame) (lo : Nat) (x : Eval α)
    (Φ : Nat → α → Prop) : Prop :=
  ∀ m, m.Sound s base fs → lo ≤ m.memory.stores.size → Leaves s base fs (ownStore fs) m Φ (x m)

namespace Safe

/-- A computation that always succeeds and leaves memory as it is. -/
theorem of_ok {x : Eval α} (h : ∀ m, m.Sound s base fs → lo ≤ m.memory.stores.size → ∃ a m',
      x m = .ok a m' ∧ m'.memory = m.memory ∧ m'.globals = m.globals ∧ Φ m.memory.stores.size a) :
    Safe s base fs lo x Φ := by
  intro m hm hlo
  obtain ⟨a, m', hx, hmem, hg, hΦ⟩ := h m hm hlo
  rw [hx]
  refine ⟨hm.of_memory_eq hmem hg, .of_memory_eq hmem hg, ?_⟩
  change Φ m'.memory.stores.size a
  rwa [hmem]

theorem pure {a : α} (h : ∀ n, lo ≤ n → Φ n a) : Safe s base fs lo (pure a) Φ :=
  of_ok fun m _ hlo => ⟨a, m, rfl, rfl, rfl, h _ hlo⟩

theorem fault {cause : Cause} (h : cause.Ordinary) (o : Nat) :
    Safe s base fs lo (fault cause o) Φ :=
  fun m hm _ => ⟨hm, .refl m, h⟩

theorem outOfFuel (o : Nat) : Safe s base fs lo (throw (.outOfFuel o)) Φ :=
  fun m hm _ => ⟨hm, .refl m, trivial⟩

/-- What comes later may count on the stores that came to be before. -/
theorem bind {x : Eval α} {f : α → Eval β} (hx : Safe s base fs lo x Φ)
    (hf : ∀ a lo', lo ≤ lo' → Φ lo' a → Safe s base fs lo' (f a) Ψ) :
    Safe s base fs lo (x >>= f) Ψ := by
  intro m hm hlo
  change Leaves s base fs (ownStore fs) m Ψ (EStateM.bind x f m)
  obtain ⟨hsound, hkeeps, hyields⟩ := hx m hm hlo
  unfold EStateM.bind
  cases h : x m with
  | ok a m₁ =>
    rw [h] at hsound hkeeps hyields
    have hr := hf a _ (Nat.le_trans hlo hkeeps.size) hyields m₁ hsound (Nat.le_refl _)
    exact ⟨hr.sound, hkeeps.trans hr.keeps, hr.yields⟩
  | error e m₁ =>
    rw [h] at hsound hkeeps hyields
    exact ⟨hsound, hkeeps, hyields⟩

/-! ## The primitives -/

theorem get :
    Safe s base fs lo (get : Eval Machine) fun n m =>
      m.Sound s base fs ∧ m.memory.stores.size = n :=
  of_ok fun m hm _ => ⟨m, m, rfl, rfl, rfl, hm, rfl⟩

theorem currentStore (o : Nat) :
    Safe s base fs lo (currentStore o) fun _ h => ownStore fs = some h := by
  refine bind get fun m lo' _ ⟨hm, _⟩ => ?_
  have hcur : m.memory.current? = fs.head? := by rw [Memory.current?, hm.frames]
  split
  · next f hf => exact pure fun _ _ => by rw [ownStore, ← hcur, hf]; rfl
  · next hf => exact absurd (List.head?_eq_none_iff.1 (hcur.symm.trans hf)) hm.frames_ne_nil

theorem globalStore (o : Nat) :
    Safe s base fs lo (globalStore o) fun _ h => fs.getLast?.map (·.store) = some h := by
  refine bind get fun m lo' _ ⟨hm, _⟩ => ?_
  have hlast : m.memory.global? = fs.getLast? := by rw [Memory.global?, hm.frames]
  split
  · next f hf => exact pure fun _ _ => by rw [← hlast, hf]; rfl
  · next hf => exact absurd (List.getLast?_eq_none_iff.1 (hlast.symm.trans hf)) hm.frames_ne_nil

theorem read {h : Handle} (hh : ownStore fs = some h) (name : String) (o : Nat) :
    Safe s base fs lo (read h name o) (Value.Sound s base) := by
  refine bind get fun m lo' _ ⟨hm, hsize⟩ => ?_
  split
  · next v hv =>
    have hsound := hm.values h name v (ownStore_mem hm hh).1 hv
    rw [hsize] at hsound
    exact pure fun _ hn => hsound.mono hn
  · exact fault (by trivial) o

theorem operate {r : Except Mismatch Value} (h : ∀ v n, lo ≤ n → r = .ok v → v.Sound s base n)
    (o : Nat) : Safe s base fs lo (operate r o) (Value.Sound s base) := by
  cases r with
  | ok v => exact pure fun n hn => h v n hn rfl
  | error e => exact fault (by trivial) o

/-- A name may be bound in the innermost store, and in the outermost one if the program publishes
it. -/
theorem write {h : Handle} {name : String} {v : Value} (hv : v.Sound s base lo)
    (hw : ownStore fs = some h ∨
      fs.getLast?.map (·.store) = some h ∧ s.program.Publishes name) :
    Safe s base fs lo (write h name v) fun _ _ => True := by
  intro m hm hlo
  have hlt : h < m.memory.stores.size := by
    rcases hw with hw | ⟨hw, -⟩
    · exact (ownStore_mem hm hw).2
    · rw [hm.globals, Option.some.injEq] at hw
      exact hw ▸ hm.globals_mem.2
  refine ⟨⟨hm.frames, ?_, hm.globals, ?_⟩, ⟨rfl, ?_, ?_⟩, trivial⟩
  · intro f hf
    have hactive := hm.active f hf
    exact ⟨hactive.1, Nat.lt_of_lt_of_eq hactive.2 (Memory.size_write ..).symm⟩
  · change Memory.Holds (Memory.write ..) base (Value.Sound s base (Memory.write ..).stores.size)
    rw [Memory.size_write]
    exact hm.values.write h name (hv.mono hlo)
  · exact Nat.le_of_eq (Memory.size_write ..).symm
  · intro h' name' _ hown hpub
    change (Memory.write ..).read h' name' = _
    rw [Memory.read_write _ hlt, if_neg]
    rintro ⟨rfl, rfl⟩
    rcases hw with hw | ⟨hw, hp⟩
    · exact hown hw
    · rw [hm.globals, Option.some.injEq] at hw
      exact hpub hw.symm hp

theorem makeFunction {params : List String} {body : ScopeId} {h : Handle}
    (hh : ownStore fs = some h)
    (hsc : ∃ sc, s.program.scope? body = some sc ∧ sc.capture = .copied) :
    Safe s base fs lo (makeFunction params body h) (Value.Sound s base) :=
  of_ok fun _ hm _ => ⟨_, _, rfl, rfl, rfl, ownStore_mem hm hh, hsc⟩

theorem publish {isPublic : Bool} {name : String} {v : Value} (hv : v.Sound s base lo)
    (hp : isPublic = true → s.program.Publishes name) (o : Nat) :
    Safe s base fs lo (publish isPublic name v o) fun _ _ => True := by
  unfold Eval.publish
  split
  · next h =>
    exact bind (globalStore o) fun g lo' hle hg => write (hv.mono hle) (.inr ⟨hg, hp h⟩)
  · exact pure fun _ _ => trivial

theorem reassigned {op : BinaryOp} {h : Handle} (hh : ownStore fs = some h) {v : Value}
    (hv : v.Sound s base lo) (name : String) (o : Nat) :
    Safe s base fs lo (reassigned op h name v o) (Value.Sound s base) := by
  unfold Eval.reassigned
  split
  · exact pure fun n hn => hv.mono hn
  · refine bind (read hh name o) fun old lo' hle _ => operate (fun w n hn hw => ?_) o
    exact BinaryOp.sound_of_apply (hv.mono (Nat.le_trans hle hn)) hw

theorem ofReply (name : String) (o : Nat) (r : Reply) :
    Safe s base fs lo (ofReply name o r) (Value.Sound s base) := by
  cases r with
  | unsupported kind => exact fault (by trivial) o
  | _ => exact pure fun _ _ => trivial

theorem callNative {name : String} (h : (Value.native name).Sound s base lo) (args : List Value)
    (o : Nat) : Safe s base fs lo (callNative s name args o) (Value.Sound s base) := by
  obtain ⟨native, hn⟩ := h
  unfold Eval.callNative
  split
  · exact fault (by trivial) o
  · rw [hn]
    refine bind get fun m _ _ _ => ?_
    refine bind (of_ok fun m _ _ => ⟨_, _, rfl, rfl, rfl, trivial⟩) fun _ _ _ (_ : True) => ?_
    exact ofReply name o _
  · exact fault (by trivial) o

theorem runAll {run : Node → Eval Flow} : ∀ {ns : List Node} {lo : Nat},
    (∀ n ∈ ns, ∀ lo, Safe s base fs lo (run n) (Flow.Sound s base)) →
      Safe s base fs lo (runAll run ns) (Flow.Sound s base)
  | [], _, _ => pure fun _ _ => trivial
  | n :: ns, _, h => by
    refine bind (h n (by simp) _) fun flow lo' _ hflow => ?_
    cases flow with
    | next => exact runAll fun n' hn' => h n' (by simp [hn'])
    | leave v => exact pure fun n hn => Value.Sound.mono hn hflow

theorem computeAll {compute : Node → Eval Value} :
    ∀ {ns : List Node} {done : List Value} {lo : Nat},
    (∀ n ∈ ns, ∀ lo, Safe s base fs lo (compute n) (Value.Sound s base)) →
    (∀ v ∈ done, v.Sound s base lo) →
      Safe s base fs lo (computeAll compute ns done) fun size vs => ∀ v ∈ vs, v.Sound s base size
  | [], _, _, _, hd => pure fun n hn v hv => (hd v (List.mem_reverse.1 hv)).mono hn
  | n :: ns, done, _, h, hd => by
    refine bind (h n (by simp) _) fun v lo' hle hv => ?_
    refine computeAll (fun n' hn' => h n' (by simp [hn'])) fun w hw => ?_
    rcases List.mem_cons.1 hw with rfl | hw
    · exact hv
    · exact (hd w hw).mono hle

end Safe

/-! ## Scopes and calls -/

/-- A scope is left with the frames that it was entered with. -/
theorem Leaves.leaving {sc : Scope} {store : Handle} {m₁ : Machine} {f : α → β}
    {depart : Machine → Machine} {r : EStateM.Result Halt Machine α}
    (hr : Leaves s base (⟨sc.id, store⟩ :: fs) (some store) m₁ Φ r) (hfs : fs ≠ [])
    (hk : m.Keeps s.program (some store) m₁)
    (hd : ∀ m', (depart m').memory = m'.leave.memory ∧ (depart m').globals = m'.globals)
    (hf : ∀ n a, Φ n a → Ψ n (f a)) :
    Leaves s base fs (some store) m Ψ (leaving f depart r) := by
  obtain ⟨hsound, hkeeps, hyields⟩ := hr
  have hout {m' : Machine} (hs : m'.Sound s base (⟨sc.id, store⟩ :: fs))
      (hk' : m₁.Keeps s.program (some store) m') :
      (depart m').Sound s base fs ∧ m.Keeps s.program (some store) (depart m') := by
    obtain ⟨hmem, hg⟩ := hd m'
    refine ⟨(hs.leave hfs).of_memory_eq hmem hg, (hk.trans hk').trans ?_⟩
    exact Machine.keeps_leave.trans (.of_memory_eq hmem hg)
  cases r with
  | ok a m' =>
    obtain ⟨h₁, h₂⟩ := hout hsound hkeeps
    refine ⟨h₁, h₂, ?_⟩
    change Ψ (depart m').memory.stores.size (f a)
    rw [(hd m').1]
    exact hf _ a hyields
  | error e m' =>
    obtain ⟨h₁, h₂⟩ := hout hsound hkeeps
    exact ⟨h₁, h₂, hyields⟩

section

variable {run : Node → Eval Flow} {sc : Scope}

theorem Safe.runScope {i : ScopeId} (hsc : s.program.scope? i = some sc)
    (hcap : sc.capture = .shared)
    (h : ∀ fs, ∀ n ∈ sc.statements, ∀ lo, Safe s base fs lo (run n) (Flow.Sound s base)) (o : Nat) :
    Safe s base fs lo (runScope run s.program i o) (Flow.Sound s base) := by
  intro m hm hlo
  obtain ⟨f, fs', rfl⟩ := List.exists_cons_of_ne_nil hm.frames_ne_nil
  have hcur : m.memory.current?.map (·.store) = some f.store := by
    rw [Memory.current?, hm.frames]
    rfl
  have hstore : (m.memory.capture sc.capture (some f.store)).1 = f.store := by
    rw [hcap]
    rfl
  have hmem (h : Handle) (hh : some f.store = some h) : base ≤ h ∧ h < m.memory.stores.size :=
    Option.some.inj hh ▸ hm.active f List.mem_cons_self
  have hin := hm.enter sc hmem (List.forall_mem_nil _)
  have hkeeps := m.keeps_enter s.program sc (some f.store) []
  rw [hstore] at hin hkeeps
  rw [runScope_eq hsc, hcur]
  refine (Safe.runAll (h _) _ hin (Nat.zero_le _)).leaving (by simp) hkeeps (fun _ => ⟨rfl, rfl⟩) ?_
  exact fun _ _ hΦ => hΦ

/-- A call writes to no store that it found, but for published names. -/
theorem callFunction_leaves {c : Closure} {args : List Value} (hm : m.Sound s base fs)
    (hc : (Value.function c).Sound s base m.memory.stores.size)
    (hargs : ∀ v ∈ args, v.Sound s base m.memory.stores.size)
    (h : ∀ fs n, s.program.States c.body n → ∀ lo,
      Safe s base fs lo (run n) (Flow.Sound s base)) (o : Nat) :
    Leaves s base fs none m (Value.Sound s base) (callFunction run s c args o m) := by
  obtain ⟨henv, sc, hsc, hcap⟩ := hc
  rcases Nat.lt_or_ge args.length c.params.length with hlt | hge
  · unfold callFunction
    rw [if_pos hlt]
    exact ⟨hm, .refl m, trivial⟩
  -- the body runs on a copy, and no machine before the call knows the handle of the copy
  have hin := hm.enterCall sc henv hargs
  have hkeeps := m.keeps_enterCall s.program sc c args
  have hstore : (m.memory.capture sc.capture (some c.env)).1 = m.memory.stores.size := by
    rw [hcap]
    rfl
  rw [hstore] at hin hkeeps
  rcases Nat.lt_or_ge m.depth s.limit with hd | hd
  · rw [callFunction_of_lt hge hsc o hd]
    have hbody := Safe.runAll (fun n hn => h _ n ⟨sc, hsc, hn⟩) _ hin (Nat.zero_le _)
    have hout : Leaves s base fs _ m (Value.Sound s base)
        (leaving Flow.value Machine.leaveCall _) :=
      hbody.leaving hm.frames_ne_nil hkeeps (fun _ => ⟨rfl, rfl⟩) fun _ _ => Flow.Sound.value
    exact ⟨hout.sound, hout.keeps.forget (Nat.le_refl _), hout.yields⟩
  · rw [callFunction_of_le hge hsc o hd]
    refine ⟨(hin.leave hm.frames_ne_nil).of_memory_eq rfl rfl, ?_, trivial⟩
    exact (hkeeps.trans Machine.keeps_leaveCall).forget (Nat.le_refl _)

theorem Safe.call {f : Value} {args : List Value} (hf : f.Sound s base lo)
    (hargs : ∀ v ∈ args, v.Sound s base lo)
    (h : ∀ fs i n, s.program.States i n → ∀ lo, Safe s base fs lo (run n) (Flow.Sound s base))
    (o : Nat) :
    Safe s base fs lo (call run s f args o) (Value.Sound s base) := by
  cases f with
  | function c =>
    intro m hm hlo
    have hcall := callFunction_leaves hm (hf.mono hlo) (fun v hv => (hargs v hv).mono hlo)
      (fun fs n => h fs c.body n) o
    exact ⟨hcall.sound, hcall.keeps.weaken, hcall.yields⟩
  | native name => exact Safe.callNative hf args o
  | _ => exact .fault (by trivial) o

end

/-! ## The evaluator -/

/-- With this fuel, every statement and every expression of the program is safe. -/
structure SafeAt (s : Setup) (base : Handle) (fuel : Nat) : Prop where
  exec : ∀ {fs i n}, s.program.States i n →
    ∀ lo, Safe s base fs lo (exec s fuel n) (Flow.Sound s base)
  eval : ∀ {fs i ex n}, s.program.DepictsExpr i ex n →
    ∀ lo, Safe s base fs lo (eval s fuel n) (Value.Sound s base)

namespace SafeAt

variable {fuel i : Nat}

theorem runScope (h : SafeAt s base fuel) {id : ScopeId} {o : Nat}
    (hsc : ∃ sc, s.program.scope? id = some sc ∧ sc.capture = .shared) :
    Safe s base fs lo (runScope (Eval.exec s fuel) s.program id o) (Flow.Sound s base) := by
  obtain ⟨sc, hsc, hcap⟩ := hsc
  exact .runScope hsc hcap (fun _ n hn => h.exec ⟨sc, hsc, hn⟩) o

theorem exec_succ (hp : s.program.WellFormed) (h : SafeAt s base fuel) {n : Node}
    (hn : s.program.States i n) (lo : Nat) :
    Safe s base fs lo (Eval.exec s (fuel + 1) n) (Flow.Sound s base) := by
  have heval {e : Node} (he : n.subject? = some e) (lo : Nat) :
      Safe s base fs lo (Eval.eval s fuel e) (Value.Sound s base) := by
    obtain ⟨ex, hex⟩ := hp.subject hn he
    exact h.eval hex lo
  have hbody {id : ScopeId} {o : Nat} (hid : n.body? = some id) (lo : Nat) :
      Safe s base fs lo (Eval.runScope (Eval.exec s fuel) s.program id o) (Flow.Sound s base) :=
    h.runScope (hp.body hn hid).2
  have hnext {n : Nat} : (Flow.next).Sound s base n := trivial
  cases n <;> simp only [Eval.exec] <;>
    refine .bind (.of_ok fun _ _ _ => ⟨_, _, rfl, rfl, rfl, trivial⟩) fun _ _ _ (_ : True) => ?_
  case bind name value isPublic o _ _ _ _ =>
    refine .bind (heval rfl _) fun v lo₁ _ hv => ?_
    refine .bind (.publish hv ?_ o) fun _ lo₂ hle₂ _ => ?_
    · rintro rfl
      exact ⟨i, value, o, hn⟩
    refine .bind (.currentStore o) fun h lo₃ hle₃ hh => ?_
    refine .bind (.write (hv.mono (Nat.le_trans hle₂ hle₃)) (.inl hh)) fun _ _ _ _ => ?_
    exact .pure fun _ _ => hnext
  case set name op value o _ _ _ _ =>
    refine .bind (heval rfl _) fun v lo₁ _ hv => ?_
    refine .bind (.currentStore o) fun h lo₂ hle₂ hh => ?_
    refine .bind (.reassigned hh (hv.mono hle₂) name o) fun w lo₃ _ hw => ?_
    exact .bind (.write hw (.inl hh)) fun _ _ _ _ => .pure fun _ _ => hnext
  case branch condition body o _ _ _ _ =>
    refine .bind (heval rfl _) fun v lo₁ _ _ => ?_
    split
    · exact hbody rfl _
    · exact .pure fun _ _ => hnext
  case print value o _ _ _ _ =>
    refine .bind (heval rfl _) fun v lo₁ _ _ => ?_
    refine .bind (.of_ok fun _ _ _ => ⟨_, _, rfl, rfl, rfl, trivial⟩) fun _ _ _ (_ : True) => ?_
    exact .pure fun _ _ => hnext
  case result value o _ _ _ _ =>
    exact .bind (heval rfl _) fun v lo₁ _ hv => .pure fun _ hn => hv.mono hn
  case scope id o _ _ _ _ => exact hbody rfl _
  case empty o _ _ _ _ => exact .pure fun _ _ => hnext
  all_goals exact .bind (heval rfl _) fun _ _ _ _ => .pure fun _ _ => hnext

theorem eval_succ (h : SafeAt s base fuel) {ex : Tree.Expr} {n : Node}
    (hn : s.program.DepictsExpr i ex n) (lo : Nat) :
    Safe s base fs lo (Eval.eval s (fuel + 1) n) (Value.Sound s base) := by
  cases hn with
  | var _ name o =>
    simp only [Eval.eval]
    exact .bind (.currentStore o) fun h _ _ hh => .read hh name o
  | unary op o he =>
    simp only [Eval.eval]
    exact .bind (h.eval he _) fun v _ _ _ => .operate (fun _ _ _ => UnaryOp.sound_of_apply) o
  | binary op o hl hr =>
    simp only [Eval.eval]
    refine .bind (h.eval hl _) fun a _ _ _ => .bind (h.eval hr _) fun b _ _ hb => ?_
    exact .operate (fun _ _ hle => BinaryOp.sound_of_apply (hb.mono hle)) o
  | call o hc has =>
    simp only [Eval.eval]
    refine .bind (h.eval hc _) fun f _ _ hf => ?_
    refine .bind (.computeAll (fun a ha lo => ?_) (List.forall_mem_nil _)) fun vs _ hle hvs => ?_
    · obtain ⟨_, hd⟩ := has.of_mem ha
      exact h.eval hd lo
    · exact .call (hf.mono hle) hvs (fun _ _ _ => h.exec) o
  | function params o hlt hb =>
    simp only [Eval.eval]
    exact .bind (.currentStore o) fun _ _ _ hh => .makeFunction hh hb.exists_scope
  | scope o hlt hb =>
    simp only [Eval.eval]
    exact .bind (h.runScope hb.exists_scope) fun _ _ _ hflow =>
      .pure fun _ hle => hflow.value.mono hle
  | _ =>
    simp only [Eval.eval]
    exact .pure fun _ _ => trivial

end SafeAt

/-- The evaluator is safe on all of a well-formed program. -/
theorem safe {s : Setup} {base : Handle} (hp : s.program.WellFormed) : ∀ fuel, SafeAt s base fuel
  | 0 => ⟨fun _ _ => .outOfFuel _, fun _ _ => .outOfFuel _⟩
  | fuel + 1 =>
    have ih := safe hp fuel
    ⟨ih.exec_succ hp, ih.eval_succ⟩

end Eval

/-! ## Whole runs -/

namespace Setup

theorem native?_isSome {s : Setup} {n : Native} (h : n ∈ s.natives) :
    ∃ n', s.native? n.name = some n' :=
  Option.isSome_iff_exists.1 (List.find?_isSome.2 ⟨n, h, by simp⟩)

/-- The outermost scope starts with the natives and nothing else, behind what earlier runs left. -/
theorem sound_inside (s : Setup) (root : Scope) (m : Machine) :
    (s.inside root m).Sound s m.memory.stores.size [⟨root.id, (s.inside root m).globals⟩] := by
  let memory := m.reset.memory
  have hlt := memory.capture_lt root.capture none (by simp)
  have hsize : (s.inside root m).memory.stores.size =
      (memory.capture root.capture none).2.stores.size := Memory.size_writeAll ..
  constructor
  · exact congrArg (_ :: ·) ((Memory.frames_writeAll ..).trans (Memory.frames_capture ..))
  · intro f hf
    rw [List.mem_singleton.1 hf, hsize]
    exact ⟨memory.le_capture root.capture none (Nat.le_refl _) (by simp), hlt⟩
  · rfl
  · refine Memory.Holds.writeAll ?_ _ fun b hb => ?_
    · exact (Memory.Holds.of_size_le (Nat.le_refl _)).capture root.capture (by simp)
    · obtain ⟨n, hn, rfl⟩ := List.mem_map.1 hb
      exact native?_isSome hn

theorem runWith_yields {s : Setup} (hp : s.program.WellFormed) (fuel : Nat) (m : Machine) :
    Eval.Yields (fun _ _ => True) (s.runWith fuel m) := by
  obtain ⟨root, hroot⟩ := hp.root
  have hall {fs : List Frame} : Eval.Safe s m.memory.stores.size fs 0
      (Eval.runAll (Eval.exec s fuel) root.statements) (Flow.Sound s m.memory.stores.size) :=
    .runAll fun n hn => (Eval.safe hp fuel).exec ⟨root, hroot, hn⟩
  have hy := (hall _ (s.sound_inside root m) (Nat.zero_le _)).yields
  rw [runWith_eq s hroot]
  generalize Eval.runAll _ _ _ = r at hy
  cases r with
  | ok => trivial
  | error => exact hy

/-- A compiled program runs to its end or to a fault of the script: an undefined name, an operation
without a meaning, missing arguments, a call of what is no function, too many calls. -/
theorem run_ordinary {source : String} {s : Setup} (h : compile source = .ok s.program)
    (m : Machine) :
    (∃ m', s.run m = .ok () m') ∨
      ∃ cause o m', s.run m = .error (.fault cause o) m' ∧ cause.Ordinary := by
  have hp := Program.wellFormed_of_compile h
  have hy : Eval.Yields _ (s.run m) := runWith_yields hp s.fuel m
  rcases Eval.finished_iff.1 (runWith_finished hp s.bound_le_fuel m) with ⟨_, m', hm⟩ | hm
  · exact .inl ⟨m', hm⟩
  · obtain ⟨cause, o, m', hm⟩ := hm
    change s.run m = _ at hm
    rw [hm] at hy
    exact .inr ⟨cause, o, m', hm, hy⟩

/-- A native function that is bound to another name and called. -/
theorem run_ordinary_native :
    ∃ p, compile "let f = host; f(f)" = .ok p ∧
      ((∃ m', run { program := p, natives := [⟨"host", fun _ s => .text s⟩] } {} = .ok () m') ∨
        ∃ cause o m', run { program := p, natives := [⟨"host", fun _ s => .text s⟩] } {} =
          .error (.fault cause o) m' ∧ cause.Ordinary) := by
  have h : compile "let f = host; f(f)" = .ok
      { scopes := #[
          ⟨0, none, .fresh,
            [.bind "f" (.var "host" 8) false 0,
              .result (.call (.var "f" 14) [.var "f" 16] 15) 15], 0⟩],
        root := 0 } := by cbv
  exact ⟨_, h, run_ordinary (s := { program := _, natives := _ }) h {}⟩

end Setup

end ScopeScript
