import ScopeScript.Proofs.Machine.Lockstep

/-!
# Running again

What an earlier run leaves is not all cleared away. Its frames, its lines and its depth are, but its
stores stay in memory, the count of function values goes on, and so do the location and the record
of native calls. A run without natives looks at none of this: its own stores come behind the old
ones, and its function values are numbered on. So the machine of the run is always that of a first
run, with handles and identities moved up (`Machine.Behind`), and however often a program was run
before, and wherever those runs ended, the next run shows what the first one does (`rerun_repeats`).
-/

namespace ScopeScript

/-- The value, where its store comes behind so many others and it is numbered from there on. -/
def Value.moved (stores functions : Nat) : Value → Value
  | .function c => .function { c with env := stores + c.env, identity := functions + c.identity }
  | v => v

def Store.moved (stores functions : Nat) (t : Store) : Store :=
  t.map fun _ v => v.moved stores functions

theorem Value.moved_zero (v : Value) : v.moved 0 0 = v := by
  cases v with
  | function c => rw [moved, Nat.zero_add, Nat.zero_add]
  | _ => rfl

namespace Store

variable (stores functions : Nat)

theorem getElem?_moved (t : Store) (name : String) :
    (t.moved stores functions)[name]? = t[name]?.map (·.moved stores functions) :=
  Std.ExtTreeMap.getElem?_map

theorem moved_empty : Store.moved stores functions ∅ = ∅ := by
  refine Std.ExtTreeMap.ext_getElem? fun {name} => ?_
  rw [getElem?_moved]
  simp

theorem moved_insert (t : Store) (name : String) (v : Value) :
    Store.moved stores functions (t.insert name v) =
      (t.moved stores functions).insert name (v.moved stores functions) := by
  refine Std.ExtTreeMap.ext_getElem? fun {name'} => ?_
  rw [getElem?_moved, Std.ExtTreeMap.getElem?_insert, Std.ExtTreeMap.getElem?_insert,
    getElem?_moved]
  split <;> rfl

theorem bindings_moved (t : Store) :
    (t.moved stores functions).bindings =
      t.bindings.map fun b => (b.1, b.2.moved stores functions) :=
  Std.ExtTreeMap.toList_map

theorem moved_zero (t : Store) : t.moved 0 0 = t := by
  refine Std.ExtTreeMap.ext_getElem? fun {name} => ?_
  rw [getElem?_moved]
  cases t[name]? with
  | none => rfl
  | some v => exact congrArg some v.moved_zero

end Store

/-- Handles and identities stand for those that come as much later. -/
def Renaming.behind (old : Machine) : Renaming where
  name _ := True
  handle h h' := h' = old.memory.stores.size + h
  identity i i' := i' = old.functions + i

theorem Value.renamed_behind {old : Machine} {v v' : Value} :
    v.Renamed (.behind old) v' ↔ v' = v.moved old.memory.stores.size old.functions := by
  constructor
  · intro h
    cases h with
    | function _ _ henv hi =>
      rw [henv, hi]
      rfl
    | _ => rfl
  · rintro rfl
    cases v with
    | number x => exact .number x
    | text s => exact .text s
    | bool b => exact .bool b
    | nil => exact .nil
    | error message => exact .error message
    | native name => exact .native trivial
    | function c => exact .function c.body (fun _ _ => trivial) rfl rfl

/-! ## A run behind the stores of others -/

namespace Memory

variable {n : Nat} {old m m' : Memory}

/-- Behind the stores of `old`, the second memory has those of the first, moved up. -/
structure Behind (n : Nat) (old m m' : Memory) : Prop where
  size : m'.stores.size = old.stores.size + m.stores.size
  stores : ∀ h, m'.store (old.stores.size + h) = (m.store h).moved old.stores.size n
  kept : ∀ h < old.stores.size, m'.store h = old.store h

namespace Behind

variable (hm : Behind n old m m')
include hm

theorem read (h : Handle) (name : String) :
    m'.read (old.stores.size + h) name = (m.read h name).map (·.moved old.stores.size n) := by
  rw [Memory.read, hm.stores, Store.getElem?_moved]
  rfl

omit hm in
theorem add_ne {h' : Handle} (hh' : h' < old.stores.size) (h : Handle) :
    old.stores.size + h ≠ h' :=
  Nat.ne_of_gt (Nat.lt_add_right h hh')

theorem write (h : Handle) (name : String) (v : Value) :
    Behind n old (m.write h name v)
      (m'.write (old.stores.size + h) name (v.moved old.stores.size n)) := by
  refine ⟨by rw [size_write, size_write, hm.size], fun h' => ?_, fun h' hh' => ?_⟩
  · by_cases hh : h < m.stores.size
    · have hlt : old.stores.size + h < m'.stores.size := by
        rw [hm.size]
        exact Nat.add_lt_add_left hh _
      rw [store_write m hh, store_write m' hlt, hm.stores, hm.stores]
      simp only [Nat.add_left_cancel_iff]
      split
      · exact (Store.moved_insert ..).symm
      · rfl
    · have hle : m'.stores.size ≤ old.stores.size + h := by
        rw [hm.size]
        exact Nat.add_le_add_left (Nat.not_lt.1 hh) _
      rw [write_of_le (Nat.not_lt.1 hh), write_of_le hle, hm.stores]
  · rw [store_write_of_ne (add_ne hh' h), hm.kept h' hh']

theorem alloc (t : Store) :
    Behind n old (m.alloc t).2 (m'.alloc (t.moved old.stores.size n)).2 := by
  refine ⟨by rw [size_alloc, size_alloc, hm.size, Nat.add_assoc], fun h => ?_, fun h hh => ?_⟩
  · rw [store_alloc, store_alloc, hm.size, hm.stores]
    simp only [Nat.add_left_cancel_iff]
    split <;> rfl
  · rw [store_alloc, hm.size, if_neg (add_ne hh _).symm, hm.kept h hh]

theorem capture (mode : Capture) {source source' : Option Handle}
    (hsource : Option.Rel (fun h h' => h' = old.stores.size + h) source source') :
    (m'.capture mode source').1 = old.stores.size + (m.capture mode source).1 ∧
      Behind n old (m.capture mode source).2 (m'.capture mode source').2 := by
  have hempty : (m'.alloc ∅).1 = old.stores.size + (m.alloc ∅).1 ∧
      Behind n old (m.alloc ∅).2 (m'.alloc ∅).2 := by
    refine ⟨hm.size, ?_⟩
    have halloc := hm.alloc ∅
    rwa [Store.moved_empty] at halloc
  cases hsource with
  | none => cases mode <;> exact hempty
  | @some h _ hh =>
    cases hh
    cases mode with
    | shared => exact ⟨rfl, hm⟩
    | copied =>
      refine ⟨hm.size, ?_⟩
      have halloc := hm.alloc (m.store h)
      rwa [← hm.stores] at halloc
    | fresh => exact hempty

end Behind

end Memory

/-- The second machine is the first, with its stores behind those of `old` and its function values
numbered from those of `old` on. The location and the record of native calls are not compared. -/
structure Machine.Behind (old m m' : Machine) : Prop where
  memory : Memory.Behind old.functions old.memory m.memory m'.memory
  frames : List.Forall₂ (Frame.Renamed (.behind old)) m.memory.frames m'.memory.frames
  globals : m'.globals = old.memory.stores.size + m.globals
  transcript : m'.transcript = m.transcript
  depth : m'.depth = m.depth
  functions : m'.functions = old.functions + m.functions

namespace Setup

variable {s : Setup}

/-- A call of a native faults where none is registered. -/
theorem callNative_of_natives_nil (hs : s.natives = []) {ρ : Renaming}
    {S : Machine → Machine → Prop} (name : String) {args args' : List Value}
    (hargs : List.Forall₂ (Value.Renamed ρ) args args') (o : Nat) :
    Eval.Parallel S (Value.Renamed ρ) (Eval.callNative s name args o)
      (Eval.callNative s name args' o) := by
  cases hargs with
  | nil => exact .fault _ o
  | cons hv _ =>
    cases hv with
    | text snippet =>
      have hnone : s.native? name = none := by
        rw [native?, hs]
        rfl
      rw [Eval.callNative_text, Eval.callNative_text, hnone]
      exact .fault _ o
    | _ => exact .fault _ o

theorem lockstep_behind (hs : s.natives = []) (old : Machine) :
    Eval.Lockstep (.behind old) s s (Machine.Behind old) where
  program := rfl
  limit := rfl
  names _ _ := trivial
  identities hi hj := by
    cases hi
    cases hj
    exact Nat.add_left_cancel_iff.symm
  frames h := h.frames
  depth h := h.depth
  functions h := h.functions
  reads h a _ name hh _ := by
    cases hh
    rw [h.memory.read]
    cases Memory.read _ a name with
    | none => exact .none
    | some v => exact .some (Value.renamed_behind.2 rfl)
  captured h mode _ _ hsource := (h.memory.capture mode hsource).1
  locate h _ := { h with }
  print h line := { h with transcript := congrArg (Array.push · line) h.transcript }
  count h := { h with functions := congrArg (· + 1) h.functions }
  nest h _ := { h with depth := rfl }
  write h _ _ _ _ _ hh _ hv := by
    cases hh
    cases Value.renamed_behind.1 hv
    exact { h with memory := h.memory.write .. }
  capture {m m'} h mode source source' hsource := by
    obtain ⟨hsize, hstores, hkept⟩ := (h.memory.capture mode hsource).2
    refine { h with memory := ⟨hsize, hstores, hkept⟩, frames := ?_ }
    rw [Memory.frames_capture, Memory.frames_capture]
    exact h.frames
  stack h _ _ hfs :=
    { h with memory := ⟨h.memory.size, h.memory.stores, h.memory.kept⟩, frames := hfs }
  callNative _ _ _ hargs o := callNative_of_natives_nil hs _ hargs o

/-- A run enters the outermost scope with a store behind those that it found. -/
theorem behind_inside (hs : s.natives = []) (root : Scope) (m : Machine) :
    m.Behind (s.inside root {}) (s.inside root m) := by
  let first : Machine := {}
  have hreset : Memory.Behind m.functions m.memory first.reset.memory m.reset.memory := by
    refine ⟨rfl, fun h => ?_, fun _ _ => rfl⟩
    have hnone : m.reset.memory.store (m.memory.stores.size + h) = ∅ :=
      Memory.store_of_le (Nat.le_add_right _ h)
    rw [hnone, Memory.store_of_le (Nat.zero_le h), Store.moved_empty]
  obtain ⟨hglobals, hsize, hstores, hkept⟩ := hreset.capture root.capture .none
  have hinside (m : Machine) : s.inside root m =
      let captured := m.reset.memory.capture root.capture none
      { m.reset with memory := captured.2.push ⟨root.id, captured.1⟩, globals := captured.1 } := by
    rw [inside, start, hs]
    rfl
  have houter : List.Forall₂ (Frame.Renamed (.behind m))
      (first.reset.memory.capture root.capture none).2.frames
      (m.reset.memory.capture root.capture none).2.frames := by
    rw [Memory.frames_capture, Memory.frames_capture]
    exact .nil
  rw [hinside first, hinside m]
  exact ⟨⟨hsize, hstores, hkept⟩, .cons (.mk root.id hglobals) houter, hglobals, rfl, rfl, rfl⟩

/-- Where there is a scope to run, the run from any machine is the first one, moved up. -/
theorem runWith_behind (hs : s.natives = []) {root : Scope}
    (hroot : s.program.scope? s.program.root = some root) (fuel : Nat) (m : Machine) :
    Eval.Alike m.Behind Eq (s.runWith fuel {}) (s.runWith fuel m) :=
  (lockstep_behind hs m).runWith hroot (behind_inside hs root m) fuel

end Setup

/-! ## What a run shows -/

/-- How a run halted, if it did, the lines that it printed, and the bindings of the outermost
scope. -/
structure Setup.Outcome where
  halt : Option Halt
  lines : Transcript
  globals : List (String × Value)
  deriving DecidableEq

namespace Setup.Outcome

def ofResult (r : EStateM.Result Halt Machine Unit) : Outcome :=
  ⟨Eval.halt? r, (Eval.after r).transcript, (Eval.after r).bindings⟩

def moved (stores functions : Nat) (x : Outcome) : Outcome :=
  { x with globals := x.globals.map fun b => (b.1, b.2.moved stores functions) }

theorem moved_zero (x : Outcome) : x.moved 0 0 = x := by
  have hid : (fun b : String × Value => (b.1, b.2.moved 0 0)) = id := by
    funext b
    rw [b.2.moved_zero]
    rfl
  rw [moved, hid, List.map_id]

end Setup.Outcome

namespace Setup

variable {s : Setup}

def outcome (s : Setup) (fuel : Nat) (m : Machine) : Outcome := .ofResult (s.runWith fuel m)

/-- The machine after runs with these amounts of fuel, one after the other. -/
def afterRuns (s : Setup) (fuels : List Nat) : Machine :=
  fuels.foldl (fun m fuel => Eval.after (s.runWith fuel m)) {}

theorem runWith_of_no_root (hroot : s.program.scope? s.program.root = none) (fuel : Nat)
    (m : Machine) : s.runWith fuel m = .error (.fault (.unsupported .noRootScope) 0) m.reset := by
  unfold runWith
  rw [hroot]
  rfl

/-- Where there is no scope to run, nothing is ever put into memory. -/
theorem afterRuns_of_no_root (hroot : s.program.scope? s.program.root = none)
    (fuels : List Nat) : s.afterRuns fuels = {} := by
  have hrun (fuel : Nat) : Eval.after (s.runWith fuel {}) = {} := by
    rw [runWith_of_no_root hroot]
    rfl
  unfold afterRuns
  induction fuels with
  | nil => rfl
  | cons fuel fuels ih => rw [List.foldl_cons, hrun, ih]

/-- The run from `old` shows what the first run does. Its stores are those of the first run, behind
the ones that it found, and these it leaves as they are. Its function values are numbered on from
those made before. -/
structure Repeats (s : Setup) (fuel : Nat) (old : Machine) : Prop where
  outcome : s.outcome fuel old = (s.outcome fuel {}).moved old.memory.stores.size old.functions
  stores : ∀ h, (Eval.after (s.runWith fuel old)).memory.store (old.memory.stores.size + h) =
    ((Eval.after (s.runWith fuel {})).memory.store h).moved old.memory.stores.size old.functions
  kept : ∀ h < old.memory.stores.size,
    (Eval.after (s.runWith fuel old)).memory.store h = old.memory.store h

theorem repeats_of_root (hs : s.natives = []) {root : Scope}
    (hroot : s.program.scope? s.program.root = some root) (fuel : Nat) (old : Machine) :
    s.Repeats fuel old := by
  have hrun := runWith_behind hs hroot fuel old
  have hafter := hrun.after
  refine ⟨?_, hafter.memory.stores, hafter.memory.kept⟩
  rw [outcome, outcome, Outcome.ofResult, Outcome.ofResult, hrun.halt?_eq, hafter.transcript,
    Machine.bindings, hafter.globals, hafter.memory.stores, Store.bindings_moved]
  rfl

theorem repeats_first (s : Setup) (fuel : Nat) : s.Repeats fuel {} where
  outcome := (Outcome.moved_zero _).symm
  stores h := by
    let left : Machine := Eval.after (s.runWith fuel {})
    show left.memory.store (0 + h) = (left.memory.store h).moved 0 0
    rw [Nat.zero_add, Store.moved_zero]
  kept h hh := absurd hh (Nat.not_lt_zero h)

/-- Whatever runs there were before, each cut off wherever its fuel ran out if it did not end before
that, a run repeats the first one. With `s.fuel` for each, these are the runs of `run`. -/
theorem rerun_repeats (hs : s.natives = []) (earlier : List Nat) (fuel : Nat) :
    s.Repeats fuel (s.afterRuns earlier) := by
  cases hroot : s.program.scope? s.program.root with
  | none =>
    rw [afterRuns_of_no_root hroot]
    exact s.repeats_first fuel
  | some root => exact repeats_of_root hs hroot fuel _

/-- A program that faults in a function, after a run to that fault and one that was cut off. -/
theorem rerun_repeats_faulting :
    ∃ s : Setup, compile "let a = true; fn f(x) { print x; y }; f(a)" = .ok s.program ∧
      s.natives = [] ∧
      s.outcome 10 {} =
        ⟨some (.fault (.undefined "y") 33), #[⟨"true", 24⟩],
          [("a", .bool true), ("f", .function ⟨["x"], 1, 0, 0⟩)]⟩ ∧
      (s.afterRuns [10, 2]).memory.stores.size = 3 ∧ (s.afterRuns [10, 2]).functions = 2 ∧
      s.outcome 10 (s.afterRuns [10, 2]) = (s.outcome 10 {}).moved 3 2 ∧
      (s.outcome 10 {}).moved 3 2 =
        ⟨some (.fault (.undefined "y") 33), #[⟨"true", 24⟩],
          [("a", .bool true), ("f", .function ⟨["x"], 1, 3, 2⟩)]⟩ := by
  let root : Scope :=
    ⟨0, none, .fresh,
      [.bind "a" (.bool true 8) false 0, .bind "f" (.function ["x"] 1 14) false 14,
        .result (.call (.var "f" 38) [.var "a" 40] 39) 39], 0⟩
  let body : Scope :=
    ⟨1, some 0, .copied, [.print (.var "x" 30) 24, .result (.var "y" 33) 33], 22⟩
  let s : Setup := { program := { scopes := #[root, body], root := 0 } }
  have h : compile "let a = true; fn f(x) { print x; y }; f(a)" = .ok s.program := by cbv
  have hstores : (s.afterRuns [10, 2]).memory.stores.size = 3 := by decide +kernel
  have hfunctions : (s.afterRuns [10, 2]).functions = 2 := by decide +kernel
  have hagain := (rerun_repeats (s := s) rfl [10, 2] 10).outcome
  rw [hstores, hfunctions] at hagain
  exact ⟨s, h, rfl, by decide +kernel, hstores, hfunctions, hagain, by decide +kernel⟩

end Setup

end ScopeScript
