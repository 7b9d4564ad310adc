import ScopeScript.Proofs.Machine.Congruence
import ScopeScript.Proofs.Machine.Isolation

/-!
# Evaluation sees the ends of the stack

The evaluator reads two things off the frames: the store of the innermost one, for names, and the
store of the outermost one, for what is published. `Mirrors S x y` says that `y` does with one stack
what `x` does with another that `S` relates to it, and that each stack is put back. The evaluator
mirrors itself between stacks with the same two ends, and a call needs the outermost store alone.
So a block or a taken branch that shares the store around it runs as if its statements stood in its
place.
-/

namespace ScopeScript

/-- The outermost frames have the same store. -/
def SameOutermost (fs fs' : List Frame) : Prop :=
  fs.getLast?.map (·.store) = fs'.getLast?.map (·.store)

/-- The innermost frames have the same store, and so do the outermost ones. -/
structure SameEnds (fs fs' : List Frame) : Prop where
  innermost : fs.head?.map (·.store) = fs'.head?.map (·.store)
  outermost : SameOutermost fs fs'

theorem SameOutermost.push {fs fs' : List Frame} (h : SameOutermost fs fs') (f : Frame) :
    SameEnds (f :: fs) (f :: fs') := by
  refine ⟨rfl, ?_⟩
  unfold SameOutermost at h ⊢
  rw [List.getLast?_cons, List.getLast?_cons]
  cases hfs : fs.getLast? <;> cases hfs' : fs'.getLast? <;> simp_all

/-- One more frame for the innermost store is not seen. -/
theorem SameEnds.push_self (id : ScopeId) (f : Frame) (fs : List Frame) :
    SameEnds (f :: fs) (⟨id, f.store⟩ :: f :: fs) :=
  ⟨rfl, by rw [SameOutermost, List.getLast?_cons_cons]⟩

namespace Memory

def withFrames (m : Memory) (fs : List Frame) : Memory := { m with frames := fs }

theorem writeAll_withFrames (m : Memory) (fs : List Frame) (h : Handle)
    (bs : List (String × Value)) :
    (m.withFrames fs).writeAll h bs = (m.writeAll h bs).withFrames fs := by
  induction bs generalizing m with
  | nil => rfl
  | cons b bs ih => exact ih (m.write h b.1 b.2)

theorem capture_withFrames (m : Memory) (fs : List Frame) (mode : Capture)
    (source : Option Handle) :
    (m.withFrames fs).capture mode source =
      ((m.capture mode source).1, (m.capture mode source).2.withFrames fs) := by
  unfold capture
  split <;> rfl

end Memory

namespace Machine

def withFrames (m : Machine) (fs : List Frame) : Machine :=
  { m with memory := m.memory.withFrames fs }

theorem withFrames_self {m : Machine} {fs : List Frame} (h : m.memory.frames = fs) :
    m.withFrames fs = m := by
  subst h
  rfl

end Machine

namespace Eval

variable {α β : Type} {S : List Frame → List Frame → Prop}

def reframe (fs : List Frame) : EStateM.Result Halt Machine α → EStateM.Result Halt Machine α :=
  leaving id (·.withFrames fs)

/-- With a stack that `S` relates to its own, `y` ends as `x` does, on a machine that differs in the
frames alone; and each of them puts its stack back. -/
def Mirrors (S : List Frame → List Frame → Prop) (x y : Eval α) : Prop :=
  ∀ m fs, S m.memory.frames fs →
    y (m.withFrames fs) = reframe fs (x m) ∧ (after (x m)).memory.frames = m.memory.frames

namespace Mirrors

theorem mono {S' : List Frame → List Frame → Prop} (hS : ∀ fs fs', S' fs fs' → S fs fs')
    {x y : Eval α} (h : Mirrors S x y) : Mirrors S' x y :=
  fun m fs hfs => h m fs (hS _ _ hfs)

theorem throw (e : Halt) : Mirrors S (throw e : Eval α) (throw e) := fun _ _ _ => ⟨rfl, rfl⟩

/-- A computation that always succeeds and does not look at the frames. -/
theorem of_ok {x : Eval α} (h : ∀ m, ∃ a m', x m = .ok a m' ∧ m'.memory.frames = m.memory.frames ∧
      ∀ fs, S m.memory.frames fs → x (m.withFrames fs) = .ok a (m'.withFrames fs)) :
    Mirrors S x x := by
  intro m fs hfs
  obtain ⟨a, m', hx, hframes, hx'⟩ := h m
  rw [hx' fs hfs, hx]
  exact ⟨rfl, hframes⟩

theorem pure (a : α) : Mirrors S (pure a) (pure a) :=
  of_ok fun m => ⟨a, m, rfl, rfl, fun _ _ => rfl⟩

theorem bind {x y : Eval α} {f g : α → Eval β} (hx : Mirrors S x y)
    (hf : ∀ a, Mirrors S (f a) (g a)) : Mirrors S (x >>= f) (y >>= g) := by
  intro m fs hfs
  change EStateM.bind y g _ = reframe fs (EStateM.bind x f m) ∧
    (after (EStateM.bind x f m)).memory.frames = _
  obtain ⟨hxy, hback⟩ := hx m fs hfs
  unfold EStateM.bind
  cases h : x m with
  | ok a m₁ =>
    rw [h] at hxy hback
    have hback : m₁.memory.frames = m.memory.frames := hback
    obtain ⟨hfg, hback'⟩ := hf a m₁ fs (by rwa [hback])
    rw [hxy]
    exact ⟨hfg, hback'.trans hback⟩
  | error e m₁ =>
    rw [h] at hxy hback
    rw [hxy]
    exact ⟨rfl, hback⟩

theorem currentStore (o : Nat) : Mirrors SameEnds (currentStore o) (currentStore o) := by
  intro m fs hfs
  have hsame : (m.withFrames fs).memory.current?.map (·.store) =
      m.memory.current?.map (·.store) := hfs.innermost.symm
  rw [currentStore_eq, currentStore_eq, hsame]
  cases m.memory.current?.map (·.store) <;> exact ⟨rfl, rfl⟩

theorem globalStore (o : Nat) : Mirrors SameOutermost (globalStore o) (globalStore o) := by
  intro m fs hfs
  have hsame : (m.withFrames fs).memory.global?.map (·.store) =
      m.memory.global?.map (·.store) := Eq.symm hfs
  rw [globalStore_eq, globalStore_eq, hsame]
  cases m.memory.global?.map (·.store) <;> exact ⟨rfl, rfl⟩

theorem read (h : Handle) (name : String) (o : Nat) :
    Mirrors S (read h name o) (read h name o) := by
  intro m fs _
  have hsame : (m.withFrames fs).memory.read h name = m.memory.read h name := rfl
  rw [read_eq, read_eq, hsame]
  cases m.memory.read h name <;> exact ⟨rfl, rfl⟩

theorem writeAll (h : Handle) (bs : List (String × Value)) :
    Mirrors S (writeAll h bs) (writeAll h bs) := by
  refine of_ok fun m => ⟨(), _, rfl, m.memory.frames_writeAll h bs, fun fs _ => ?_⟩
  change EStateM.Result.ok () { m with memory := (m.memory.withFrames fs).writeAll h bs } = _
  rw [Memory.writeAll_withFrames]
  rfl

theorem capture (mode : Capture) (source : Option Handle) :
    Mirrors S (capture mode source) (capture mode source) := by
  refine of_ok fun m => ⟨_, _, rfl, m.memory.frames_capture mode source, fun fs _ => ?_⟩
  change EStateM.Result.ok ((m.memory.withFrames fs).capture mode source).1
    { m with memory := ((m.memory.withFrames fs).capture mode source).2 } = _
  rw [Memory.capture_withFrames]
  rfl

theorem captureHere (mode : Capture) : Mirrors SameEnds (captureHere mode) (captureHere mode) := by
  intro m fs hfs
  have hsource : (m.withFrames fs).memory.current?.map (·.store) =
      m.memory.current?.map (·.store) := hfs.innermost.symm
  change Eval.capture mode ((m.withFrames fs).memory.current?.map (·.store))
    (m.withFrames fs) = _ ∧ _
  rw [hsource]
  exact capture mode _ m fs hfs

/-! ## Frames and calls -/

/-- Inside a frame of its own, a computation finds the same innermost store on both sides. -/
theorem withFrame (f : Frame) {x y : Eval α} (h : Mirrors SameEnds x y) :
    Mirrors SameOutermost (withFrame f x) (withFrame f y) := by
  intro m fs hfs
  obtain ⟨hxy, hback⟩ := h { m with memory := m.memory.push f } (f :: fs) (hfs.push f)
  have hpush : { m.withFrames fs with memory := (m.withFrames fs).memory.push f } =
      Machine.withFrames { m with memory := m.memory.push f } (f :: fs) := rfl
  rw [withFrame_eq, withFrame_eq, hpush, hxy]
  generalize x _ = r at hback
  cases r with
  | ok a m₁ => exact ⟨rfl, congrArg List.tail hback⟩
  | error e m₁ => exact ⟨rfl, congrArg List.tail hback⟩

theorem withCall (limit o : Nat) {x y : Eval α} (h : Mirrors S x y) :
    Mirrors S (withCall limit o x) (withCall limit o y) := by
  intro m fs hfs
  rcases Nat.lt_or_ge m.depth limit with hd | hd
  · obtain ⟨hxy, hback⟩ := h { m with depth := m.depth + 1 } fs hfs
    have hdeeper : { m.withFrames fs with depth := (m.withFrames fs).depth + 1 } =
        Machine.withFrames { m with depth := m.depth + 1 } fs := rfl
    rw [withCall_eq hd, withCall_eq (m := m.withFrames fs) hd, hdeeper, hxy]
    generalize x _ = r at hback
    cases r with
    | ok a m₁ => exact ⟨rfl, hback⟩
    | error e m₁ => exact ⟨rfl, hback⟩
  · unfold Eval.withCall
    rw [if_pos hd, if_pos (show limit ≤ (m.withFrames fs).depth from hd)]
    exact ⟨rfl, rfl⟩

theorem congruence (limit : Nat) : Congruence limit limit fun _ => Mirrors SameEnds where
  pure := pure
  throw := throw
  bind := bind
  startAt _ := of_ok fun _ => ⟨_, _, rfl, rfl, fun _ _ => rfl⟩
  print _ _ := of_ok fun _ => ⟨_, _, rfl, rfl, fun _ _ => rfl⟩
  currentStore := currentStore
  globalStore o := (globalStore o).mono fun _ _ => SameEnds.outermost
  read := read
  write _ _ _ := of_ok fun _ => ⟨_, _, rfl, rfl, fun _ _ => rfl⟩
  writeAll := writeAll
  capture mode h := capture mode (some h)
  captureHere := captureHere
  makeFunction _ _ _ := of_ok fun _ => ⟨_, _, rfl, rfl, fun _ _ => rfl⟩
  recordCall _ _ := of_ok fun _ => ⟨_, _, rfl, rfl, fun _ _ => rfl⟩
  withFrame f h := (withFrame f h).mono fun _ _ => SameEnds.outermost
  withCall o h := withCall limit o h

/-- A call brings its innermost store along. -/
theorem callFunction {run : Node → Eval Flow} (hrun : ∀ n, Mirrors SameEnds (run n) (run n))
    (s : Setup) (c : Closure) (args : List Value) (o : Nat) :
    Mirrors SameOutermost (callFunction run s c args o) (callFunction run s c args o) := by
  have hscope : Mirrors SameOutermost (scope s.program c.body o) (scope s.program c.body o) := by
    unfold scope
    split
    · exact pure _
    · exact throw _
  unfold Eval.callFunction
  split
  · exact throw _
  · refine bind hscope fun sc => bind (capture sc.capture _) fun store => ?_
    refine bind (writeAll store _) fun _ => bind (withCall _ o (withFrame _ ?_)) fun _ => pure _
    exact (congruence s.limit).runAll hrun sc.statements

theorem exec (s : Setup) (fuel : Nat) (n : Node) :
    Mirrors SameEnds (exec s fuel n) (exec s fuel n) :=
  (congruence s.limit).exec s fuel n

theorem eval (s : Setup) (fuel : Nat) (n : Node) :
    Mirrors SameEnds (eval s fuel n) (eval s fuel n) :=
  (congruence s.limit).eval s fuel n

end Mirrors

/-! ## Scopes in place -/

variable {s : Setup} {fuel o : Nat} {id : ScopeId} {sc : Scope} {m : Machine}

/-- A scope with the store around it does what its statements do in its place. -/
theorem runScope_shared (hsc : s.program.scope? id = some sc) (hcap : sc.capture = .shared)
    (hm : m.memory.frames ≠ []) :
    runScope (exec s fuel) s.program id o m = runAll (exec s fuel) sc.statements m := by
  obtain ⟨f, fs, hfs⟩ := List.exists_cons_of_ne_nil hm
  have hcur : m.memory.current?.map (·.store) = some f.store := by
    rw [Memory.current?, hfs]
    rfl
  have henter : m.enter sc (some f.store) [] = m.withFrames (⟨sc.id, f.store⟩ :: f :: fs) := by
    rw [Machine.enter, hcap, ← hfs]
    rfl
  have hall : Mirrors SameEnds (runAll (exec s fuel) sc.statements) _ :=
    (Mirrors.congruence s.limit).runAll (Mirrors.exec s fuel) sc.statements
  have hends := SameEnds.push_self sc.id f fs
  rw [← hfs] at hends
  obtain ⟨hin, hback⟩ := hall m _ hends
  rw [runScope_eq hsc, hcur, henter, hfs.symm, hin]
  generalize runAll (exec s fuel) sc.statements m = r at hback
  -- the frame that was put on top goes, and what is left is the stack that was there
  cases r with
  | ok flow m₁ => exact congrArg (EStateM.Result.ok flow) (Machine.withFrames_self hback)
  | error e m₁ => exact congrArg (EStateM.Result.error e) (Machine.withFrames_self hback)

theorem exec_scope_shared (hsc : s.program.scope? id = some sc) (hcap : sc.capture = .shared)
    (hm : m.memory.frames ≠ []) :
    exec s (fuel + 1) (.scope id o) m =
      runAll (exec s fuel) sc.statements { m with location := o } := by
  simp only [exec]
  exact runScope_shared (m := { m with location := o }) hsc hcap hm

theorem exec_branch_shared {e : Node} {v : Value} {m₁ : Machine}
    (he : eval s fuel e { m with location := o } = .ok v m₁) (hv : v.isTruthy)
    (hsc : s.program.scope? id = some sc) (hcap : sc.capture = .shared)
    (hm : m.memory.frames ≠ []) :
    exec s (fuel + 1) (.branch e id o) m = runAll (exec s fuel) sc.statements m₁ := by
  have hback := (Mirrors.eval s fuel e { m with location := o } m.memory.frames ⟨rfl, rfl⟩).2
  rw [he] at hback
  have hm₁ : m₁.memory.frames ≠ [] := fun h => hm (hback.symm.trans h)
  simp only [exec]
  change EStateM.bind (eval s fuel e) _ { m with location := o } = _
  unfold EStateM.bind
  rw [he]
  dsimp only
  rw [if_pos hv]
  exact runScope_shared hsc hcap hm₁

end Eval

namespace Setup

/-- Evaluation depends on the stack through its ends alone. With another stack that has the same
innermost and the same outermost store, a statement or an expression of any program gives the same
result or fault on the same machine but for the frames, which are put back; for a call the outermost
store is enough. In a compiled program a block does what its statements do in its place, and so does
the body of a branch that is taken. -/
theorem stack_seen_at_ends (s : Setup) (fuel : Nat) :
    (∀ n, Eval.Mirrors SameEnds (Eval.exec s fuel n) (Eval.exec s fuel n)) ∧
    (∀ n, Eval.Mirrors SameEnds (Eval.eval s fuel n) (Eval.eval s fuel n)) ∧
    (∀ c args o, Eval.Mirrors SameOutermost (Eval.callFunction (Eval.exec s fuel) s c args o)
      (Eval.callFunction (Eval.exec s fuel) s c args o)) ∧
    ∀ source, compile source = .ok s.program → ∀ m : Machine, m.memory.frames ≠ [] →
      (∀ i id o, s.program.States i (.scope id o) →
        ∃ sc, s.program.scope? id = some sc ∧ Eval.exec s (fuel + 1) (.scope id o) m =
          Eval.runAll (Eval.exec s fuel) sc.statements { m with location := o }) ∧
      ∀ i e id o v m₁, s.program.States i (.branch e id o) →
        Eval.eval s fuel e { m with location := o } = .ok v m₁ → v.isTruthy →
        ∃ sc, s.program.scope? id = some sc ∧ Eval.exec s (fuel + 1) (.branch e id o) m =
          Eval.runAll (Eval.exec s fuel) sc.statements m₁ := by
  refine ⟨Eval.Mirrors.exec s fuel, Eval.Mirrors.eval s fuel,
    Eval.Mirrors.callFunction (Eval.Mirrors.exec s fuel) s, ?_⟩
  intro source h m hm
  have hp := Program.wellFormed_of_compile h
  constructor
  · intro i id o hst
    obtain ⟨-, sc, hsc, hcap⟩ := hp.body hst rfl
    exact ⟨sc, hsc, Eval.exec_scope_shared hsc hcap hm⟩
  · intro i e id o v m₁ hst he hv
    obtain ⟨-, sc, hsc, hcap⟩ := hp.body hst rfl
    exact ⟨sc, hsc, Eval.exec_branch_shared he hv hsc hcap hm⟩

/-- A branch with a block in it, where a run comes to it in the body of a function: the block reads
the parameter and publishes what it binds. It is run there, on a stack with another frame in the
middle, and in place; and the function is called again from there, and from the outermost scope. -/
theorem stack_seen_at_ends_nested :
    let source := "let x = true; fn f(a) { if a { { pub let y = a } }; y }; f(x)"
    ∃ (s : Setup) (m : Machine), compile source = .ok s.program ∧
      let branch : Node := .branch (.var "a" 27) 2 24
      let stack : List Frame := [⟨2, 1⟩, ⟨0, 5⟩, ⟨0, 0⟩]
      let f : Closure := ⟨["a"], 1, 0, 0⟩
      let left := Eval.after (Eval.exec s 6 branch m)
      s.Reaches {} 6 (.exec branch) m ∧
      m.memory.frames = [⟨1, 1⟩, ⟨0, 0⟩] ∧ SameEnds m.memory.frames stack ∧
      Eval.exec s 6 branch (m.withFrames stack) = Eval.reframe stack (Eval.exec s 6 branch m) ∧
      m.memory.read 0 "y" = none ∧ left.memory.read 0 "y" = some (.bool true) ∧
      Eval.callFunction (Eval.exec s 6) s f [.bool true] 58 (m.withFrames [⟨0, 0⟩]) =
        Eval.reframe [⟨0, 0⟩] (Eval.callFunction (Eval.exec s 6) s f [.bool true] 58 m) ∧
      Eval.exec s 6 branch m = Eval.runAll (Eval.exec s 5) [.scope 3 31]
        (Eval.after (Eval.eval s 5 (.var "a" 27) { m with location := 24 })) ∧
      Eval.exec s 6 (.scope 3 31) m =
        Eval.runAll (Eval.exec s 5) [.bind "y" (.var "a" 45) true 33]
          { m with location := 31 } := by
  let root : Scope :=
    ⟨0, none, .fresh,
      [.bind "x" (.bool true 8) false 0, .bind "f" (.function ["a"] 1 14) false 14,
        .result (.call (.var "f" 57) [.var "x" 59] 58) 58], 0⟩
  let body : Scope :=
    ⟨1, some 0, .copied, [.branch (.var "a" 27) 2 24, .result (.var "y" 52) 52], 22⟩
  let taken : Scope := ⟨2, some 1, .shared, [.scope 3 31], 29⟩
  let block : Scope := ⟨3, some 2, .shared, [.bind "y" (.var "a" 45) true 33], 31⟩
  let s : Setup := { program := { scopes := #[root, body, taken, block], root := 0 } }
  have h : compile "let x = true; fn f(a) { if a { { pub let y = a } }; y }; f(x)" =
      .ok s.program := by cbv
  let f : Closure := ⟨["a"], 1, 0, 0⟩
  let m₁ := Eval.after (Eval.exec s 8 (.bind "x" (.bool true 8) false 0) (s.inside root {}))
  let m₂ := Eval.after (Eval.exec s 8 (.bind "f" (.function ["a"] 1 14) false 14) m₁)
  let m₃ := Eval.after (Eval.eval s 6 (.var "f" 57) { m₂ with location := 58 })
  let m₄ := Eval.after (Eval.computeAll (Eval.eval s 6) [.var "x" 59] [] m₃)
  let m := m₄.enterCall body f [.bool true]
  have hroot : s.Reaches {} 8 (.run root.statements) (s.inside root {}) := .root rfl
  have hlast : s.Reaches {} 8 (.run [.result (.call (.var "f" 57) [.var "x" 59] 58) 58]) m₂ :=
    .tail (.tail hroot (Eval.eq_ok_of_value? (by decide +kernel)))
      (Eval.eq_ok_of_value? (by decide +kernel))
  have hcall : s.Reaches {} 6 (.call f [.bool true] 58) m₄ :=
    .call (.subject (.head hlast) rfl) (Eval.eq_ok_of_value? (by decide +kernel))
      (Eval.eq_ok_of_value? (by decide +kernel))
  have hr : s.Reaches {} 6 (.exec (.branch (.var "a" 27) 2 24)) m :=
    .head (.body hcall (Nat.le_refl _) rfl (by decide +kernel))
  obtain ⟨hexec, -, hcalls, -⟩ := s.stack_seen_at_ends 6
  obtain ⟨-, -, -, hplace⟩ := s.stack_seen_at_ends 5
  obtain ⟨hblock, hbranch⟩ := hplace _ h m (List.cons_ne_nil _ _)
  have hframes : m.memory.frames = [⟨1, 1⟩, ⟨0, 0⟩] := by decide +kernel
  have hends : SameEnds m.memory.frames [⟨2, 1⟩, ⟨0, 5⟩, ⟨0, 0⟩] := by
    rw [hframes]
    exact ⟨rfl, rfl⟩
  refine ⟨s, m, h, hr, hframes, hends, (hexec _ _ _ hends).1, by decide +kernel, by decide +kernel,
    (hcalls _ _ _ _ _ ?_).1, ?_, ?_⟩
  · rw [hframes]
    rfl
  · obtain ⟨sc, hsc, hb⟩ := hbranch 1 (.var "a" 27) 2 24 (.bool true) _
      ⟨body, rfl, List.mem_cons_self⟩ (Eval.eq_ok_of_value? (by decide +kernel)) rfl
    cases hsc
    exact hb
  · obtain ⟨sc, hsc, hb⟩ := hblock 2 3 31 ⟨taken, rfl, List.mem_cons_self⟩
    cases hsc
    exact hb

end Setup

end ScopeScript
