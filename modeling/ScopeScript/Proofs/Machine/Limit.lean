import ScopeScript.Proofs.Machine.Congruence
import ScopeScript.Proofs.Machine.Safety

/-!
# The limit is only a guard

`Guards x y`: `y` does what `x` does, unless `x` ends because the call depth would pass the limit;
then `y` has printed what `x` has printed, and maybe more. The evaluator with a limit guards the
evaluator with a larger one: both are at the same depth all along, because a call that ends in any
way leaves the depth as it found it.
-/

namespace ScopeScript

/-- The run stopped at the limit on the call depth. -/
def Halt.Exhausted : Halt → Prop
  | .fault (.stackExhausted _) _ => True
  | _ => False

/-- What was printed on `m` stands at the start of what was printed on `m'`. -/
def Machine.Precedes (m m' : Machine) : Prop := m.transcript.toList <+: m'.transcript.toList

theorem Machine.Precedes.refl (m : Machine) : m.Precedes m := List.prefix_rfl

theorem Machine.Precedes.trans {m m' m'' : Machine} (h : m.Precedes m') (h' : m'.Precedes m'') :
    m.Precedes m'' := List.IsPrefix.trans h h'

namespace Eval

variable {α β : Type}

/-- The computation ended at the limit. -/
def Exhausted : EStateM.Result Halt Machine α → Prop
  | .ok _ _ => False
  | .error e _ => e.Exhausted

/-- `y` only ever prints more, does what `x` does where `x` does not end at the limit, and where it
does, has printed at least what `x` has. -/
structure Guards (x y : Eval α) : Prop where
  grows : ∀ m : Machine, m.Precedes (after (y m))
  same : ∀ m, ¬Exhausted (x m) → y m = x m
  stops : ∀ m, Exhausted (x m) → (after (x m)).Precedes (after (y m))

namespace Guards

theorem refl {x : Eval α} (h : ∀ m : Machine, m.Precedes (after (x m))) : Guards x x :=
  ⟨h, fun _ _ => rfl, fun _ _ => .refl _⟩

/-- A computation that ends on the machine it started on. -/
theorem of_after {x : Eval α} (h : ∀ m, after (x m) = m) : Guards x x :=
  refl fun m => by rw [h]; exact .refl m

/-- A computation that always succeeds and prints nothing. -/
theorem of_ok {x : Eval α} (h : ∀ m, ∃ a m', x m = .ok a m' ∧ m'.transcript = m.transcript) :
    Guards x x := by
  refine refl fun m => ?_
  obtain ⟨a, m', hx, ht⟩ := h m
  rw [hx, Machine.Precedes, after, ht]

theorem bind {x y : Eval α} {f g : α → Eval β} (hx : Guards x y) (hf : ∀ a, Guards (f a) (g a)) :
    Guards (x >>= f) (y >>= g) := by
  have hgrows (m : Machine) : (after (y m)).Precedes (after ((y >>= g) m)) := by
    change Machine.Precedes _ (after (EStateM.bind y g m))
    unfold EStateM.bind
    cases y m with
    | ok a m₁ => exact (hf a).grows m₁
    | error e m₁ => exact .refl m₁
  refine ⟨fun m => (hx.grows m).trans (hgrows m), fun m => ?_, fun m => ?_⟩
  · change ¬Exhausted (EStateM.bind x f m) → EStateM.bind y g m = EStateM.bind x f m
    have hm := hx.same m
    unfold EStateM.bind
    cases h : x m with
    | ok a m₁ =>
      rw [h] at hm
      rw [hm id]
      exact (hf a).same m₁
    | error e m₁ =>
      rw [h] at hm
      intro he
      rw [hm he]
  · have hsame := hx.same m
    have hstops := hx.stops m
    change Exhausted (EStateM.bind x f m) → (after (EStateM.bind x f m)).Precedes _
    unfold EStateM.bind
    cases h : x m with
    | ok a m₁ =>
      rw [h] at hsame
      have hy : (y >>= g) m = g a m₁ := by
        change EStateM.bind y g m = _
        rw [EStateM.bind, hsame id]
      rw [hy]
      exact (hf a).stops m₁
    | error e m₁ =>
      rw [h] at hstops
      exact fun he => (hstops he).trans (hgrows m)

section

variable {f : α → β} {depart : Machine → Machine} {r : EStateM.Result Halt Machine α}

theorem exhausted_leaving : Exhausted (leaving f depart r) ↔ Exhausted r := by
  cases r <;> exact Iff.rfl

theorem transcript_leaving (h : ∀ m, (depart m).transcript = m.transcript) :
    (after (leaving f depart r)).transcript = (after r).transcript := by
  cases r <;> exact h _

end

/-- Leaving a scope or a call prints nothing. -/
theorem leaving {x y : Eval α} (enter depart : Machine → Machine) (h : Guards x y)
    (henter : ∀ m, (enter m).transcript = m.transcript)
    (hdepart : ∀ m, (depart m).transcript = m.transcript) :
    Guards (fun m => leaving id depart (x (enter m))) fun m => leaving id depart (y (enter m)) := by
  refine ⟨fun m => ?_, fun m hm => ?_, fun m hm => ?_⟩
  · rw [Machine.Precedes, transcript_leaving hdepart, ← henter]
    exact h.grows (enter m)
  · rw [exhausted_leaving] at hm
    exact congrArg _ (h.same _ hm)
  · rw [exhausted_leaving] at hm
    rw [Machine.Precedes, transcript_leaving hdepart, transcript_leaving hdepart]
    exact h.stops _ hm

theorem withFrame (f : Frame) {x y : Eval α} (h : Guards x y) :
    Guards (withFrame f x) (withFrame f y) :=
  h.leaving (fun m => { m with memory := m.memory.push f }) Machine.leave (fun _ => rfl)
    fun _ => rfl

/-- A larger limit lets every call through that a smaller one does. -/
theorem withCall {d d' : Nat} (hd : d ≤ d') (o : Nat) {x y : Eval α} (h : Guards x y) :
    Guards (withCall d o x) (withCall d' o y) := by
  have hbody := h.leaving (fun m => { m with depth := m.depth + 1 })
    (fun m => { m with depth := m.depth - 1 }) (fun _ => rfl) fun _ => rfl
  have hgrows (m : Machine) : m.Precedes (after (Eval.withCall d' o y m)) := by
    by_cases hm : m.depth < d'
    · rw [withCall_eq hm]
      exact hbody.grows m
    · rw [Eval.withCall, if_pos (Nat.not_lt.1 hm)]
      exact .refl m
  refine ⟨hgrows, fun m => ?_, fun m => ?_⟩
  · by_cases hm : m.depth < d
    · rw [withCall_eq hm, withCall_eq (show m.depth < d' by omega)]
      exact hbody.same m
    · rw [Eval.withCall, if_pos (Nat.not_lt.1 hm)]
      exact fun he => absurd trivial he
  · by_cases hm : m.depth < d
    · rw [withCall_eq hm, withCall_eq (show m.depth < d' by omega)]
      exact hbody.stops m
    · rw [Eval.withCall, if_pos (Nat.not_lt.1 hm)]
      exact fun _ => hgrows m

theorem congruence {d d' : Nat} (hd : d ≤ d') : Congruence d d' fun _ => Guards where
  pure _ := of_after fun _ => rfl
  throw _ := of_after fun _ => rfl
  bind := bind
  startAt _ := of_ok fun _ => ⟨_, _, rfl, rfl⟩
  print text o := refl fun m => by
    rw [Machine.Precedes]
    exact ⟨[⟨text, o⟩], (Array.toList_push ..).symm⟩
  currentStore o := of_after fun m => by
    rw [currentStore_eq]
    cases m.memory.current?.map (·.store) <;> rfl
  globalStore o := of_after fun m => by
    rw [globalStore_eq]
    cases m.memory.global?.map (·.store) <;> rfl
  read h name o := of_after fun m => by
    rw [read_eq]
    cases m.memory.read h name <;> rfl
  write _ _ _ := of_ok fun _ => ⟨_, _, rfl, rfl⟩
  writeAll _ _ := of_ok fun _ => ⟨_, _, rfl, rfl⟩
  capture _ _ := of_ok fun _ => ⟨_, _, rfl, rfl⟩
  captureHere _ := of_ok fun _ => ⟨_, _, rfl, rfl⟩
  makeFunction _ _ _ := of_ok fun _ => ⟨_, _, rfl, rfl⟩
  recordCall _ _ := of_ok fun _ => ⟨_, _, rfl, rfl⟩
  withFrame f h := withFrame f h
  withCall o h := withCall hd o h

end Guards

end Eval

namespace Setup

variable {s : Setup} {d d' : Nat}

/-- With the same fuel, the run with the smaller limit guards the other one. -/
theorem runWith_guards (hd : d ≤ d') {root : Scope}
    (hroot : s.program.scope? s.program.root = some root) (fuel : Nat) (m : Machine) :
    let r := runWith { s with limit := d } fuel m
    let r' := runWith { s with limit := d' } fuel m
    (¬Eval.Exhausted r → r' = r) ∧
      (Eval.Exhausted r → (Eval.after r).Precedes (Eval.after r')) := by
  have hall : Eval.Guards (Eval.runAll (Eval.exec { s with limit := d } fuel) root.statements)
      (Eval.runAll (Eval.exec { s with limit := d' } fuel) root.statements) :=
    (Eval.Guards.congruence hd).runAll ((Eval.Guards.congruence hd).exec s fuel) _
  have hrunWith (d : Nat) := runWith_eq { s with limit := d } hroot fuel m
  dsimp only
  rw [hrunWith d, hrunWith d', Eval.Guards.exhausted_leaving]
  refine ⟨fun hr => congrArg _ (hall.same (s.inside root m) hr), fun hr => ?_⟩
  have hclear (m : Machine) : m.clear.transcript = m.transcript := rfl
  rw [Machine.Precedes, Eval.Guards.transcript_leaving hclear,
    Eval.Guards.transcript_leaving hclear]
  exact hall.stops (s.inside root m) hr

/-- The fuel of a run does not tell limits apart. -/
theorem run_guards (hp : s.program.WellFormed) (hd : d ≤ d') (m : Machine) :
    let r := run { s with limit := d } m
    let r' := run { s with limit := d' } m
    (¬Eval.Exhausted r → r' = r) ∧
      (Eval.Exhausted r → (Eval.after r).Precedes (Eval.after r')) := by
  obtain ⟨root, hroot⟩ := hp.root
  have hfuel : fuel { s with limit := d } ≤ fuel { s with limit := d' } := by
    have hle : (d + 1) * (4 * s.program.size + 4) ≤ (d' + 1) * (4 * s.program.size + 4) :=
      Nat.mul_le_mul_right _ (Nat.succ_le_succ hd)
    exact Nat.add_le_add hle (Nat.le_refl _)
  have hfin : Eval.Finished (runWith { s with limit := d } (fuel { s with limit := d }) m) :=
    runWith_finished (s := { s with limit := d }) hp (bound_le_fuel { s with limit := d }) m
  have hrun : run { s with limit := d } m =
      runWith { s with limit := d } (fuel { s with limit := d' }) m :=
    (runWith_of_finished _ hfuel hfin).symm
  dsimp only
  rw [hrun]
  exact runWith_guards hd hroot _ m

end Setup

def Execution.Exhausted (e : Execution) : Prop := ∃ h, e.fault = some (.run h) ∧ h.Exhausted

/-- The limit on the call depth is only a guard. An execution that does not stop at its limit is the
same with a larger limit: in its output, its bindings, its fault and where it ended. One that does
has printed what stands at the start of the output with a larger limit. -/
theorem execute_of_limit_le {source : String} {p : Program} (h : compile source = .ok p)
    {d d' : Nat} (hd : d ≤ d') :
    (¬(execute source d).Exhausted → execute source d' = execute source d) ∧
      ((execute source d).Exhausted →
        (execute source d).output.toList <+: (execute source d').output.toList) := by
  have hp := Program.wellFormed_of_compile h
  obtain ⟨hsame, hstops⟩ := Setup.run_guards (s := { program := p }) hp hd {}
  unfold execute
  rw [h]
  dsimp only
  generalize Setup.run { program := p, limit := d } {} = r at hsame hstops ⊢
  generalize Setup.run { program := p, limit := d' } {} = r' at hsame hstops ⊢
  constructor
  · intro hr
    rw [hsame fun hex => hr ?_]
    cases r with
    | ok _ m => exact hex.elim
    | error e m => exact ⟨e, rfl, hex⟩
  · rintro ⟨e, he, hex⟩
    cases r with
    | ok _ m => cases he
    | error e' m =>
      cases he
      have hpre := hstops hex
      cases r' <;> exact hpre

/-- A function that calls itself without end, and one that does not call itself. -/
theorem execute_of_limit_le_calls :
    (∃ p, compile "fn f() { print true; f() }; f()" = .ok p ∧ 1 ≤ 3 ∧
      (execute "fn f() { print true; f() }; f()" 1).Exhausted ∧
      (execute "fn f() { print true; f() }; f()" 1).output.toList <+:
        (execute "fn f() { print true; f() }; f()" 3).output.toList) ∧
    ∃ p, compile "fn f() { true }; f()" = .ok p ∧ 1 ≤ 2000 ∧
      ¬(execute "fn f() { true }; f()" 1).Exhausted ∧
      execute "fn f() { true }; f()" 2000 = execute "fn f() { true }; f()" 1 := by
  constructor
  · have h : compile "fn f() { print true; f() }; f()" = .ok
        { scopes := #[
            ⟨0, none, .fresh,
              [.bind "f" (.function [] 1 0) false 0, .result (.call (.var "f" 28) [] 29) 29], 0⟩,
            ⟨1, some 0, .copied,
              [.print (.bool true 15) 9, .result (.call (.var "f" 21) [] 22) 22], 7⟩],
          root := 0 } := by cbv
    have hfault : (execute "fn f() { print true; f() }; f()" 1).fault =
        some (.run (.fault (.stackExhausted 1) 22)) := by decide +kernel
    have hex : (execute "fn f() { print true; f() }; f()" 1).Exhausted := ⟨_, hfault, trivial⟩
    exact ⟨_, h, by decide, hex, (execute_of_limit_le h (by decide)).2 hex⟩
  · have h : compile "fn f() { true }; f()" = .ok
        { scopes := #[
            ⟨0, none, .fresh,
              [.bind "f" (.function [] 1 0) false 0, .result (.call (.var "f" 17) [] 18) 18], 0⟩,
            ⟨1, some 0, .copied, [.result (.bool true 9) 9], 7⟩],
          root := 0 } := by cbv
    have hfault : (execute "fn f() { true }; f()" 1).fault = none := by decide +kernel
    have hex : ¬(execute "fn f() { true }; f()" 1).Exhausted := by
      rintro ⟨e, he, -⟩
      rw [hfault] at he
      cases he
    exact ⟨_, h, by decide, hex, (execute_of_limit_le h (by decide)).1 hex⟩

end ScopeScript
