import ScopeScript.Proofs.Machine.Assigns
import ScopeScript.Proofs.Offset.Running

/-!
# Compound assignment

`let x op= e` binds `x` to the expression `x op e`, and reads `x` before it computes `e`; the
statement `x op= e` computes `e` first and reads `x` then. Both put what the operator makes into the
innermost store, on the machine that `e` leaves (`Updates`). So they come to the same end if `e`
leaves the name as it was, and need not if it does not.

Both come to an end, whatever node `e` is: the scopes and functions that it can get at are those of
the program (`finishes_eval`).
-/

namespace ScopeScript

namespace Eval

/-- Whatever a node is made of, the scopes that it enters are those of the program. -/
theorem finishes_eval {s : Setup} (hp : s.program.WellFormed) {k : Nat} :
    ∀ {fuel : Nat} {n : Node}, k * s.program.size + s.program.size + n.size ≤ fuel →
      Finishes s.limit k (eval s fuel n)
  | 0, n, h => by
    have hpos := n.size_pos
    omega
  | fuel + 1, n, h => by
    have hpart {e : Node} (hlt : e.size < n.size) : Finishes s.limit k (eval s fuel e) :=
      finishes_eval hp (by omega)
    have hpos := n.size_pos
    have hsuff := suffices_of_wellFormed hp fuel
    cases n <;> simp only [eval]
    case var name o => exact .bind (.currentStore o) fun h => .read h name o
    case unary op e o => exact .bind (hpart (by simp [Node.size])) fun v => .operate _ o
    case binary op l r o =>
      refine .bind (hpart (by simp only [Node.size]; omega)) fun a => ?_
      exact .bind (hpart (by simp only [Node.size]; omega)) fun b => .operate _ o
    case function params body o =>
      exact .bind (.currentStore o) fun h => .of_ok fun _ => ⟨_, _, rfl, rfl⟩
    case scope id o =>
      refine .bind (.runScope fun n hn => hsuff.exec hn ?_) fun _ => .pure _
      have hsize := hn.size_lt
      have hle := s.program.sizeFrom_le_size id
      unfold demand
      omega
    case call f args o =>
      refine .bind (hpart (by simp only [Node.size]; omega)) fun v => ?_
      refine .bind (.computeAll fun a ha => hpart ?_) fun vs => hsuff.call (by omega)
      have hle := Node.size_le_sizeAll ha
      simp only [Node.size]
      omega
    case number | text | bool | nil => exact .pure _
    all_goals exact .fault _ _

end Eval

/-! ## The location is not looked at -/

/-- Offsets count in printed lines only. -/
def Alignment.printed : Alignment := ⟨fun _ _ => True, Eq⟩

theorem Alignment.printed_reflexive : Alignment.printed.Reflexive :=
  ⟨fun _ => trivial, fun _ => rfl⟩

theorem Line.eq_of_matches {l l' : Line} (h : Line.Matches .printed l l') : l = l' := by
  cases h with
  | mk text _ ho => rw [show _ = _ from ho]

namespace Machine

variable {m m' : Machine}

theorem matches_locate (m : Machine) (o : Nat) : Matches .printed m { m with location := o } where
  memory := rfl
  globals := rfl
  transcript := List.forall₂_same.2 fun _ _ => .mk _ trivial rfl
  location := trivial
  depth := rfl
  calls := rfl
  functions := rfl

theorem Matches.eq_locate (h : Matches .printed m m') :
    m' = { m with location := m'.location } := by
  have htranscript : m'.transcript = m.transcript := by
    have hlines := h.transcript.imp fun _ _ => Line.eq_of_matches
    rw [List.forall₂_eq_eq_eq] at hlines
    exact (Array.toList_inj.1 hlines).symm
  obtain ⟨memory, globals, transcript, location, depth, calls, functions⟩ := m'
  obtain ⟨hmemory, hglobals, -, -, hdepth, hcalls, hfunctions⟩ := h
  dsimp only at *
  subst hmemory hglobals htranscript hdepth hcalls hfunctions
  rfl

end Machine

namespace Eval

/-- Wherever a statement stands, its expression is computed alike. -/
theorem eval_locate {s : Setup} {fuel : Nat} {e : Node} {m : Machine}
    (hfin : Finished (eval s fuel e m)) (o : Nat) :
    (∃ halt m₁ cause o' m₂, eval s fuel e m = .error halt m₁ ∧
      eval s fuel e { m with location := o } = .error (.fault cause o') m₂) ∨
    ∃ v m₁ m₂, eval s fuel e m = .ok v m₁ ∧ eval s fuel e { m with location := o } = .ok v m₂ ∧
      m₂ = { m₁ with location := m₂.location } := by
  have hs : Setup.Matches .printed s s :=
    ⟨s.program.matches_self Alignment.printed_reflexive, rfl⟩
  have heval := ((aligned_correspondence .printed s.limit).exec_eval hs fuel).2
    (e.matches_self Alignment.printed_reflexive)
  have hmatch : ResultsMatch .printed _ _ := heval (m.matches_locate o)
  generalize eval s fuel e m = r at hmatch hfin
  generalize eval s fuel e { m with location := o } = r' at hmatch
  cases hmatch with
  | error hhalt _ =>
    cases hhalt with
    | fault cause _ => exact .inl ⟨_, _, _, _, _, rfl, rfl⟩
    | outOfFuel _ => exact hfin.elim
  | ok hv hm =>
    cases hv
    exact .inr ⟨_, _, _, rfl, rfl, hm.eq_locate⟩

/-! ## The two statements -/

/-- How an assignment of `old op v` to a name ends, where `v` is what the expression gave. -/
inductive Updates (op : BinaryOp) (h : Handle) (name : String) (old : Option Value) :
    EStateM.Result Halt Machine Value → EStateM.Result Halt Machine Flow → Prop where
  | done {a v new : Value} {m : Machine} (o : Nat) : old = some a → op.apply a v = .ok new →
      Updates op h name old (.ok v m)
        (.ok .next { m with memory := m.memory.write h name new, location := o })
  | fault {r : EStateM.Result Halt Machine Value} (cause : Cause) (o : Nat) (m : Machine) :
      (∀ a v new m', old = some a → r = .ok v m' → op.apply a v ≠ .ok new) →
      Updates op h name old r (.error (.fault cause o) m)

/-- Both end at a fault, or both succeed on machines that are the same but for the statement that
was started last. -/
inductive EndAlike :
    EStateM.Result Halt Machine Flow → EStateM.Result Halt Machine Flow → Prop where
  | done (flow : Flow) {m m' : Machine} : m' = { m with location := m'.location } →
      EndAlike (.ok flow m) (.ok flow m')
  | fault (cause cause' : Cause) (o o' : Nat) (m m' : Machine) :
      EndAlike (.error (.fault cause o) m) (.error (.fault cause' o') m')

section

variable {op : BinaryOp} {h : Handle} {name : String} {old old' : Option Value}
  {r : EStateM.Result Halt Machine Value} {r₁ r₂ : EStateM.Result Halt Machine Flow}

/-- If the old values are the same where the expression gives a value, the ends are alike. -/
theorem Updates.endAlike (h₁ : Updates op h name old r r₁) (h₂ : Updates op h name old' r r₂)
    (hsame : ∀ v m, r = .ok v m → old' = old) : EndAlike r₁ r₂ := by
  cases h₁ with
  | @done a v new m o hold hnew =>
    obtain rfl := hsame v m rfl
    cases h₂ with
    | done o' hold' hnew' =>
      cases hold.symm.trans hold'
      cases hnew.symm.trans hnew'
      exact .done _ rfl
    | fault _ _ _ hnone => exact absurd hnew (hnone a v new m hold rfl)
  | fault cause o m hnone =>
    cases h₂ with
    | @done a v new m o hold hnew =>
      obtain rfl := hsame v m rfl
      exact absurd hnew (hnone a v new m hold rfl)
    | fault cause' o' m' _ => exact .fault cause cause' o o' m m'

end

section

variable {s : Setup} {fuel n o : Nat} {e : Node} {x : String} {op : BinaryOp} {h : Handle}
  {m m' : Machine}

theorem currentStore_of_some (hh : m.memory.current?.map (·.store) = some h) (o : Nat) :
    currentStore o m = .ok h m := by
  rw [currentStore_eq, hh]
  rfl

theorem read_of_some {v : Value} (hv : m.memory.read h x = some v) (o : Nat) :
    read h x o m = .ok v m := by
  rw [read_eq, hv]
  rfl

theorem read_of_none (hv : m.memory.read h x = none) (o : Nat) :
    read h x o m = .error (.fault (.undefined x) o) m := by
  rw [read_eq, hv]
  rfl

/-- The innermost store is the same after an expression is computed. -/
theorem current?_of_eval {v : Value} (he : eval s fuel e m = .ok v m')
    (hh : m.memory.current?.map (·.store) = some h) :
    m'.memory.current?.map (·.store) = some h := by
  have hframes := (Mirrors.eval s fuel e m m.memory.frames ⟨rfl, rfl⟩).2
  rw [he] at hframes
  rwa [Memory.current?, show m'.memory.frames = m.memory.frames from hframes]

/-- Puts what the operator makes of two values into a store. -/
def combine (op : BinaryOp) (h : Handle) (x : String) (a v : Value) (o : Nat) : Eval Flow := do
  let new ← operate (op.apply a v) o
  write h x new
  return .next

theorem updates_combine {a v : Value} (hm : m' = { m with location := m'.location }) (o : Nat) :
    Updates op h x (some a) (.ok v m) (combine op h x a v o m') := by
  unfold combine
  cases hnew : op.apply a v with
  | ok new =>
    rw [hm]
    exact .done _ rfl hnew
  | error mismatch =>
    refine .fault (.operation mismatch) o m' fun b w new m'' hb hw => ?_
    cases hb
    cases hw
    simp [hnew]

/-- `let x op= e` uses what `x` was before `e`. -/
theorem updates_bind (hh : m.memory.current?.map (·.store) = some h) (hfuel : 0 < fuel)
    (hfin : Finished (eval s fuel e m)) (n o : Nat) :
    Updates op h x (m.memory.read h x) (eval s fuel e m)
      (exec s (fuel + 2) (.bind x (.binary op (.var x n) e n) false o) m) := by
  let here : Machine := { m with location := o }
  have hh' : here.memory.current?.map (·.store) = some h := hh
  have hexec : exec s (fuel + 2) (.bind x (.binary op (.var x n) e n) false o) m =
      (eval s fuel (.var x n) >>= fun a => eval s fuel e >>= fun v =>
        operate (op.apply a v) n >>= fun new => currentStore o >>= fun h =>
          write h x new >>= fun _ => pure .next) here := by
    simp only [exec, eval, publish, Bool.false_eq_true, if_false, pure_bind, bind_assoc]
    rfl
  have hvar : eval s fuel (.var x n) here = read h x n here := by
    obtain ⟨fuel, rfl⟩ := Nat.exists_eq_succ_of_ne_zero (Nat.ne_of_gt hfuel)
    simp only [eval]
    exact bind_of_ok (currentStore_of_some hh' n)
  rw [hexec]
  cases hread : m.memory.read h x with
  | none =>
    rw [bind_error.2 (.inl (hvar.trans (read_of_none (m := here) hread n)))]
    exact .fault _ _ _ (by simp)
  | some a =>
    rw [bind_of_ok (hvar.trans (read_of_some (m := here) hread n))]
    obtain ⟨halt, m₁, cause, o', m₂, hr, hr'⟩ | ⟨v, m₁, m₂, hr, hr', hm⟩ := eval_locate hfin o
    · rw [hr, bind_error.2 (.inl hr')]
      exact .fault _ _ _ (by simp)
    · have hstore := current?_of_eval hr' hh'
      have hcombine : (operate (op.apply a v) n >>= fun new => currentStore o >>= fun h =>
          write h x new >>= fun _ => pure .next) m₂ = combine op h x a v n m₂ := by
        unfold combine
        cases op.apply a v with
        | ok new => exact bind_of_ok (currentStore_of_some hstore o)
        | error mismatch => rfl
      rw [hr, bind_of_ok hr', hcombine]
      exact updates_combine hm n

/-- `x op= e` uses what `x` is after `e`. -/
theorem updates_set (hh : m.memory.current?.map (·.store) = some h) (hop : op ≠ .assign)
    (hfin : Finished (eval s fuel e m)) (o : Nat) :
    Updates op h x ((after (eval s fuel e m)).memory.read h x) (eval s fuel e m)
      (exec s (fuel + 1) (.set x op e o) m) := by
  let here : Machine := { m with location := o }
  have hh' : here.memory.current?.map (·.store) = some h := hh
  have hexec : exec s (fuel + 1) (.set x op e o) m = (eval s fuel e >>= fun v =>
      currentStore o >>= fun h => read h x o >>= fun a => combine op h x a v o) here := by
    simp only [exec, reassigned, if_neg hop, bind_assoc, combine]
    rfl
  rw [hexec]
  obtain ⟨halt, m₁, cause, o', m₂, hr, hr'⟩ | ⟨v, m₁, m₂, hr, hr', hm⟩ := eval_locate hfin o
  · rw [hr, bind_error.2 (.inl hr')]
    exact .fault _ _ _ (by simp)
  · have hstore := current?_of_eval hr' hh'
    have hsame : m₂.memory.read h x = m₁.memory.read h x := by rw [hm]
    rw [hr, bind_of_ok hr', bind_of_ok (currentStore_of_some hstore o), after, ← hsame]
    cases hread : m₂.memory.read h x with
    | none =>
      rw [bind_error.2 (.inl (read_of_none hread o))]
      exact .fault _ _ _ (by simp)
    | some a =>
      rw [bind_of_ok (read_of_some hread o)]
      exact updates_combine hm o

end

end Eval

namespace Setup

open Eval
open ScopeScript.Tree (Expr)

variable {s : Setup} {op : BinaryOp} {m : Machine} {h : Handle}

/-- The statement `let x op= e` binds `x` to `x op e`. -/
theorem layout_boundValue (hop : op ≠ .assign) (x : String) (ex : Expr) (i next : ScopeId)
    (n o : Nat) :
    (Layout.stmt i next (.bind x (Tree.Parse.boundValue x n op ex) false o)).1 =
      .bind x (.binary op (.var x n) (Layout.expr i next ex).1 n) false o := by
  cases op <;> first | exact absurd rfl hop | rfl

/-- With fuel for the expression, both statements come to an end. -/
theorem updates_both (hp : s.program.WellFormed) (hh : m.memory.current?.map (·.store) = some h)
    (hop : op ≠ .assign) (x : String) (e : Node) (n o o' : Nat) {fuel : Nat}
    (hfuel : bound s.program s.limit + e.size + 2 ≤ fuel) :
    Updates op h x (m.memory.read h x) (eval s fuel e m)
        (exec s fuel (.bind x (.binary op (.var x n) e n) false o) m) ∧
      Updates op h x ((after (eval s fuel e m)).memory.read h x) (eval s fuel e m)
        (exec s fuel (.set x op e o') m) := by
  rw [bound, Nat.succ_mul] at hfuel
  have hpos := e.size_pos
  obtain ⟨k, rfl⟩ : ∃ k, fuel = k + 2 := ⟨fuel - 2, by omega⟩
  have hfin : Finished (eval s k e m) :=
    (finishes_eval hp (k := s.limit) (by omega)).finished (Nat.le_add_left _ _)
  have hmore {j : Nat} (hj : k ≤ j) : eval s j e m = eval s k e m :=
    (refines_of_le s hj).2 e m hfin
  rw [hmore (Nat.le_add_right k 2)]
  constructor
  · exact updates_bind hh (by omega) hfin n o
  · rw [← hmore (Nat.le_add_right k 1)] at hfin ⊢
    exact updates_set hh hop hfin o'

/-- From any state of a run, `let x op= e` and `x op= e` come to an end and store what `op` makes of
the name's value and that of `e`, on the machine that `e` leaves: the first takes the value that the
name had before `e`, the second the one it has after. Where `e` leaves the name as it was, both
fault or both succeed, on the same machine but for the location; so they do if `e` is an expression
of the program that does not assign the name, and no call can publish the name into this store. -/
theorem compound_assignments {source : String} (hc : compile source = .ok s.program)
    {start : Machine} {fuel₀ : Nat} {t : Task} (hr : s.Reaches start fuel₀ t m)
    (hop : op ≠ .assign) (x : String) (ex : Expr) (i next : ScopeId) (n o o' : Nat) {fuel : Nat}
    (hfuel : bound s.program s.limit + (Layout.expr i next ex).1.size + 2 ≤ fuel) :
    let e := (Layout.expr i next ex).1
    let value := eval s fuel e m
    let viaLet := exec s fuel
      (Layout.stmt i next (.bind x (Tree.Parse.boundValue x n op ex) false o)).1 m
    let viaSet := exec s fuel (Layout.stmt i next (.set x op ex o')).1 m
    ∃ h, m.memory.current?.map (·.store) = some h ∧
      Updates op h x (m.memory.read h x) value viaLet ∧
      Updates op h x ((after value).memory.read h x) value viaSet ∧
      ((∀ v m', value = .ok v m' → m'.memory.read h x = m.memory.read h x) →
        EndAlike viaLet viaSet) ∧
      (s.program.DepictsExpr i ex e → ¬s.program.Assigns x e →
        (h = m.globals → ¬s.program.Publishes x) → EndAlike viaLet viaSet) := by
  intro e value viaLet viaSet
  have hp := Program.wellFormed_of_compile hc
  obtain ⟨⟨fs, hm⟩, -⟩ := hr.ready hp
  obtain ⟨h, hh⟩ : ∃ h, ownStore fs = some h := by
    obtain ⟨f, fs', rfl⟩ := List.exists_cons_of_ne_nil hm.frames_ne_nil
    exact ⟨f.store, rfl⟩
  have hstore : m.memory.current?.map (·.store) = some h := by rwa [Memory.current?, hm.frames]
  obtain ⟨hlet, hset⟩ := updates_both hp hstore hop x e n o o' hfuel
  rw [← layout_boundValue hop] at hlet
  have halike (hsame : ∀ v m', value = .ok v m' → m'.memory.read h x = m.memory.read h x) :
      EndAlike viaLet viaSet := by
    refine hlet.endAlike hset fun v m' hv => ?_
    rw [hv]
    exact hsame v m' hv
  refine ⟨h, hstore, hlet, hset, halike, fun hd hfree hunpub => halike fun v m' hv => ?_⟩
  have hown : Owns s fs h x := by
    refine ⟨hh, fun hlast => hunpub ?_⟩
    rw [hm.globals] at hlast
    exact (Option.some.inj hlast).symm
  exact (spares hp hown fuel).eval hd hfree hm hv

/-- A function that assigns `x` in a store of its own leaves the `x` around it alone. -/
theorem compound_assignments_call :
    ∃ s m fuel, compile "fn(x, y) { let x += fn() { x = y; y }() }('a', 'b')" = .ok s.program ∧
      (∃ ns, Reaches s {} 3 (.run ns) m) ∧
      let e : Node := .call (.function [] 2 20) [] 37
      bound s.program s.limit + e.size + 2 ≤ fuel ∧ ¬s.program.Assigns "x" e ∧
      EndAlike (exec s fuel (.bind "x" (.binary .add (.var "x" 15) e 15) false 11) m)
        (exec s fuel (.set "x" .add e 11) m) := by
  let e : Node := .call (.function [] 2 20) [] 37
  let update : Node := .bind "x" (.binary .add (.var "x" 15) e 15) false 11
  let root : Scope := ⟨0, none, .fresh,
    [.result (.call (.function ["x", "y"] 1 0) [.text "a" 42, .text "b" 47] 41) 41], 0⟩
  let outer : Scope := ⟨1, some 0, .copied, [update], 9⟩
  let inner : Scope := ⟨2, some 1, .copied,
    [.set "x" .assign (.var "y" 31) 27, .result (.var "y" 34) 34], 25⟩
  let s : Setup := { program := { scopes := #[root, outer, inner], root := 0 } }
  have hscan : Token.scan "fn(x, y) { let x += fn() { x = y; y }() }('a', 'b')" = .ok (Token.wrap 51
      [⟨.keyword .fn, 0⟩, ⟨.sign .openParen, 2⟩, ⟨.name "x", 3⟩, ⟨.sign .comma, 4⟩, ⟨.name "y", 6⟩,
        ⟨.sign .closeParen, 7⟩, ⟨.sign .openBrace, 9⟩, ⟨.keyword .let, 11⟩, ⟨.name "x", 15⟩,
        ⟨.sign .plus, 17⟩, ⟨.sign .equal, 18⟩, ⟨.keyword .fn, 20⟩, ⟨.sign .openParen, 22⟩,
        ⟨.sign .closeParen, 23⟩, ⟨.sign .openBrace, 25⟩, ⟨.name "x", 27⟩, ⟨.sign .equal, 29⟩,
        ⟨.name "y", 31⟩, ⟨.sign .semicolon, 32⟩, ⟨.name "y", 34⟩, ⟨.sign .closeBrace, 36⟩,
        ⟨.sign .openParen, 37⟩, ⟨.sign .closeParen, 38⟩, ⟨.sign .closeBrace, 40⟩,
        ⟨.sign .openParen, 41⟩, ⟨.text "a", 42⟩, ⟨.sign .comma, 45⟩, ⟨.text "b", 47⟩,
        ⟨.sign .closeParen, 50⟩]) := rfl
  have hc : compile "fn(x, y) { let x += fn() { x = y; y }() }('a', 'b')" = .ok s.program := by
    rw [compile, hscan]
    cbv
  have hroot : s.Reaches {} 5 (.run root.statements) (s.inside root {}) := .root rfl
  have hcall : s.Reaches {} 3 (.call ⟨["x", "y"], 1, 0, 0⟩ [.text "a", .text "b"] 41) _ :=
    .call (.subject (.head hroot) rfl) rfl rfl
  have hr : s.Reaches {} 3 (.run [update]) _ := .body hcall (Nat.le_refl 2) rfl (by decide)
  let ex : Expr := .call (.function []
    (.mk [.set "x" .assign (.var "y" 31) 27, .result (.var "y" 34) 34] 25) 20) [] 37
  have hd : s.program.DepictsExpr 1 ex e := by
    refine .call 37 (.function [] 20 (by decide) (.mk rfl ?_)) (.nil 1)
    exact .cons (.set _ _ _ (.var _ _ _)) (.cons (.result _ (.var _ _ _)) (.nil 2))
  have hfree : ¬s.program.Assigns "x" (.call (.function [] 2 20) [] 37) := by
    rintro (_ | _ | ⟨hpart, ha⟩ | ⟨hbody, -, -⟩)
    · obtain rfl := List.mem_singleton.1 hpart
      rcases ha with _ | _ | ⟨hpart, -⟩ | ⟨hbody, -, -⟩
      · cases hpart
      · cases hbody
    · cases hbody
  obtain ⟨h, hh, -, -, -, halike⟩ :=
    compound_assignments hc hr (show BinaryOp.add ≠ .assign by decide) "x" ex 1 2 15 11 11
      (Nat.le_refl _)
  cases hh
  refine ⟨s, _, _, hc, ⟨_, hr⟩, Nat.le_refl _, hfree, halike hd hfree fun hglobals => ?_⟩
  exact absurd (show 1 = 0 from hglobals) (by decide)

/-- A scope that assigns `x` shares its store with the statement: `let x += e` makes `aaa`, and
`x += e` makes `aaaa`. -/
theorem compound_assignments_differ :
    ∃ s m, compile "let x = 'a'; let x += { x = x + x; x }" = .ok s.program ∧
      (∃ ns, Reaches s {} 5 (.run ns) m) ∧
      let e : Node := .scope 1 22
      bound s.program s.limit + e.size + 2 ≤ 40 ∧
      ¬EndAlike (exec s 40 (.bind "x" (.binary .add (.var "x" 17) e 17) false 13) m)
        (exec s 40 (.set "x" .add e 13) m) := by
  let update : Node := .bind "x" (.binary .add (.var "x" 17) (.scope 1 22) 17) false 13
  let root : Scope := ⟨0, none, .fresh, [.bind "x" (.text "a" 8) false 0, update], 0⟩
  let body : Scope := ⟨1, some 0, .shared,
    [.set "x" .assign (.binary .add (.var "x" 28) (.var "x" 32) 30) 24,
      .result (.var "x" 35) 35], 22⟩
  let s : Setup := { program := { scopes := #[root, body], root := 0 }, limit := 0 }
  have hscan : Token.scan "let x = 'a'; let x += { x = x + x; x }" = .ok (Token.wrap 38
      [⟨.keyword .let, 0⟩, ⟨.name "x", 4⟩, ⟨.sign .equal, 6⟩, ⟨.text "a", 8⟩,
        ⟨.sign .semicolon, 11⟩, ⟨.keyword .let, 13⟩, ⟨.name "x", 17⟩, ⟨.sign .plus, 19⟩,
        ⟨.sign .equal, 20⟩, ⟨.sign .openBrace, 22⟩, ⟨.name "x", 24⟩, ⟨.sign .equal, 26⟩,
        ⟨.name "x", 28⟩, ⟨.sign .plus, 30⟩, ⟨.name "x", 32⟩, ⟨.sign .semicolon, 33⟩,
        ⟨.name "x", 35⟩, ⟨.sign .closeBrace, 37⟩]) := rfl
  have hc : compile "let x = 'a'; let x += { x = x + x; x }" = .ok s.program := by
    rw [compile, hscan]
    cbv
  have hroot : s.Reaches {} 5 (.run root.statements) (s.inside root {}) := .root rfl
  obtain ⟨m, hfirst, ⟨m₁, hlet, hread₁⟩, m₂, hset, hread₂⟩ : ∃ m,
      exec s 5 (.bind "x" (.text "a" 8) false 0) (s.inside root {}) = .ok .next m ∧
      (∃ m₁, exec s 40 update m = .ok .next m₁ ∧ m₁.memory.read 0 "x" = some (.text "aaa")) ∧
      ∃ m₂, exec s 40 (.set "x" .add (.scope 1 22) 13) m = .ok .next m₂ ∧
        m₂.memory.read 0 "x" = some (.text "aaaa") :=
    ⟨_, rfl, ⟨_, rfl, rfl⟩, _, rfl, rfl⟩
  have hr : s.Reaches {} 5 (.run [update]) m := .tail hroot hfirst
  refine ⟨s, m, hc, ⟨_, hr⟩, by decide, fun halike => ?_⟩
  rw [hlet, hset] at halike
  cases halike with
  | done _ hm =>
    rw [hm] at hread₂
    exact absurd (hread₁.symm.trans hread₂) (by decide)

end Setup

end ScopeScript
