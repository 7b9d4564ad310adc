import ScopeScript.Proofs.Machine.Congruence
import ScopeScript.Proofs.Machine.Safety
import ScopeScript.Proofs.Offset.Matching

/-!
# Layout and evaluation carry offsets along

Trees that match are laid out as programs that match, scope by scope and with the same numbers
(`Program.matches_ofTree`). Programs that match run alike on machines that match: they do the same
to memory, print the same texts and halt for the same cause (`Eval.aligned_correspondence`). A whole
run needs no matching start, because the first statement sets the location (`Setup.matches_run`).
-/

namespace ScopeScript

variable {A : Alignment}

namespace Layout

open ScopeScript.Tree (Expr Stmt Block)

def Matches (A : Alignment) (r r' : Node × List Scope) : Prop :=
  Node.Matches A r.1 r'.1 ∧ List.Forall₂ (Scope.Matches A) r.2 r'.2

def AllMatch (A : Alignment) (r r' : List Node × List Scope) : Prop :=
  List.Forall₂ (Node.Matches A) r.1 r'.1 ∧ List.Forall₂ (Scope.Matches A) r.2 r'.2

theorem next_eq {next next' : ScopeId} {used used' : List Scope} (h : next = next')
    (hused : List.Forall₂ (Scope.Matches A) used used') :
    next + used.length = next' + used'.length := by
  rw [h, hused.length_eq]

-- The recursion is on the first tree: each case of the relation has one constructor for it.
mutual

theorem matches_expr (i : ScopeId) : ∀ (e : Expr) {e' : Expr} {next next' : ScopeId},
    next = next' → Expr.Matches A e e' → Matches A (expr i next e) (expr i next' e')
  | .number x _, _, _, _, _, .number _ ho => ⟨.number x ho, .nil⟩
  | .text s _, _, _, _, _, .text _ ho => ⟨.text s ho, .nil⟩
  | .bool b _, _, _, _, _, .bool _ ho => ⟨.bool b ho, .nil⟩
  | .nil _, _, _, _, _, .nil ho => ⟨.nil ho, .nil⟩
  | .var s _, _, _, _, _, .var _ ho => ⟨.var s ho, .nil⟩
  | .unary op e _, _, _, _, hnext, .unary _ he ho =>
    have h := matches_expr i e hnext he
    ⟨.unary op h.1 ho, h.2⟩
  | .binary op l r _, _, _, _, hnext, .binary _ hl hr ho =>
    have h := matches_expr i l hnext hl
    have h' := matches_expr i r (next_eq hnext h.2) hr
    ⟨.binary op h.1 h'.1 ho, List.rel_append h.2 h'.2⟩
  | .call f args _, _, _, _, hnext, .call hf hargs ho =>
    have h := matches_expr i f hnext hf
    have h' := matches_exprs i args (next_eq hnext h.2) hargs
    ⟨.call h.1 h'.1 ho, List.rel_append h.2 h'.2⟩
  | .function params body _, _, next, _, rfl, .function _ hb ho =>
    ⟨.function params next ho, matches_block (some i) .copied body rfl hb⟩
  | .scope body _, _, next, _, rfl, .scope hb ho =>
    ⟨.scope next ho, matches_block (some i) .shared body rfl hb⟩
termination_by structural e => e

theorem matches_exprs (i : ScopeId) : ∀ (es : List Expr) {es' : List Expr} {next next' : ScopeId},
    next = next' → List.Forall₂ (Expr.Matches A) es es' →
      AllMatch A (exprs i next es) (exprs i next' es')
  | [], _, _, _, _, .nil => ⟨.nil, .nil⟩
  | e :: es, _, _, _, hnext, .cons he hes =>
    have h := matches_expr i e hnext he
    have h' := matches_exprs i es (next_eq hnext h.2) hes
    ⟨.cons h.1 h'.1, List.rel_append h.2 h'.2⟩
termination_by structural es => es

theorem matches_stmt (i : ScopeId) : ∀ (s : Stmt) {s' : Stmt} {next next' : ScopeId},
    next = next' → Stmt.Matches A s s' → Matches A (stmt i next s) (stmt i next' s')
  | .bind x e isPublic _, _, _, _, hnext, .bind _ _ he ho =>
    have h := matches_expr i e hnext he
    ⟨.bind x isPublic h.1 ho, h.2⟩
  | .set x op e _, _, _, _, hnext, .set _ _ he ho =>
    have h := matches_expr i e hnext he
    ⟨.set x op h.1 ho, h.2⟩
  | .branch e body o, .branch e' _ o', next, next', hnext, .branch he hb ho => by
    have h := matches_expr i e hnext he
    have hbody : next + (expr i next e).2.length = next' + (expr i next' e').2.length :=
      next_eq hnext h.2
    refine ⟨?_, List.rel_append h.2 (matches_block (some i) .shared body hbody hb)⟩
    show Node.Matches A (.branch (expr i next e).1 (next + (expr i next e).2.length) o)
      (.branch (expr i next' e').1 (next' + (expr i next' e').2.length) o')
    rw [← hbody]
    exact .branch _ h.1 ho
  | .print e _, _, _, _, hnext, .print he ho hp =>
    have h := matches_expr i e hnext he
    ⟨.print h.1 ho hp, h.2⟩
  | .result e _, _, _, _, hnext, .result he ho =>
    have h := matches_expr i e hnext he
    ⟨.result h.1 ho, h.2⟩
  | .block body _, _, next, _, rfl, .block hb ho =>
    ⟨.scope next ho, matches_block (some i) .shared body rfl hb⟩
  | .eval e, _, _, _, hnext, .eval he => matches_expr i e hnext he
  | .empty _, _, _, _, _, .empty ho => ⟨.empty ho, .nil⟩
termination_by structural s => s

theorem matches_stmts (i : ScopeId) : ∀ (ss : List Stmt) {ss' : List Stmt} {next next' : ScopeId},
    next = next' → List.Forall₂ (Stmt.Matches A) ss ss' →
      AllMatch A (stmts i next ss) (stmts i next' ss')
  | [], _, _, _, _, .nil => ⟨.nil, .nil⟩
  | s :: ss, _, _, _, hnext, .cons hs hss =>
    have h := matches_stmt i s hnext hs
    have h' := matches_stmts i ss (next_eq hnext h.2) hss
    ⟨.cons h.1 h'.1, List.rel_append h.2 h'.2⟩
termination_by structural ss => ss

theorem matches_block (parent : Option ScopeId) (capture : Capture) : ∀ (b : Block) {b' : Block}
    {id id' : ScopeId}, id = id' → Block.Matches A b b' →
      List.Forall₂ (Scope.Matches A) (block parent capture id b) (block parent capture id' b')
  | .mk ss _, _, id, _, rfl, .mk hss ho =>
    have h := matches_stmts id ss rfl hss
    .cons (.mk id parent capture h.1 ho) h.2
termination_by structural b => b

end

end Layout

namespace Program

theorem matches_ofTree {b b' : Tree.Block} (h : Tree.Block.Matches A b b') :
    Program.Matches A (ofTree b) (ofTree b') :=
  ⟨Layout.matches_block none .fresh b rfl h, rfl⟩

end Program

namespace Node

mutual

theorem size_eq : ∀ (n : Node) {n' : Node}, Node.Matches A n n' → n'.size = n.size
  | .unary _ e _, _, .unary _ h _ | .bind _ e _ _, _, .bind _ _ h _
  | .set _ _ e _, _, .set _ _ h _ | .branch e _ _, _, .branch _ h _
  | .print e _, _, .print h _ _ | .result e _, _, .result h _ => congrArg (· + 1) (size_eq e h)
  | .binary _ l r _, _, .binary _ hl hr _ =>
    congrArg (· + 1) (congrArg₂ (· + ·) (size_eq l hl) (size_eq r hr))
  | .call f args _, _, .call hf hargs _ =>
    congrArg (· + 1) (congrArg₂ (· + ·) (size_eq f hf) (sizeAll_eq args hargs))
  | .number .., _, .number .. | .text .., _, .text .. | .bool .., _, .bool .. | .nil _, _, .nil _
  | .var .., _, .var .. | .function .., _, .function .. | .scope .., _, .scope ..
  | .empty _, _, .empty _ => rfl
termination_by structural n => n

theorem sizeAll_eq : ∀ (ns : List Node) {ns' : List Node}, List.Forall₂ (Node.Matches A) ns ns' →
    sizeAll ns' = sizeAll ns
  | [], _, .nil => rfl
  | n :: ns, _, .cons h hs => congrArg₂ (· + ·) (size_eq n h) (sizeAll_eq ns hs)
termination_by structural ns => ns

end

end Node

theorem Scope.Matches.statements {sc sc' : Scope} (h : Scope.Matches A sc sc') :
    List.Forall₂ (Node.Matches A) sc.statements sc'.statements := by
  cases h with
  | mk _ _ _ hns _ => exact hns

theorem Scope.sizeAll_eq {ss ss' : List Scope} (h : List.Forall₂ (Scope.Matches A) ss ss') :
    Scope.sizeAll ss' = Scope.sizeAll ss := by
  induction h with
  | nil => rfl
  | cons hs _ ih => rw [Scope.sizeAll, Scope.sizeAll, ih, Node.sizeAll_eq _ hs.statements]

theorem Program.Matches.size_eq {p p' : Program} (h : Program.Matches A p p') : p'.size = p.size :=
  Scope.sizeAll_eq h.scopes

/-! ## Primitives of the machine -/

namespace Eval

variable {α : Type} {o o' : Nat}

abbrev ResultsMatch (A : Alignment) : EStateM.Result Halt Machine α →
    EStateM.Result Halt Machine α → Prop :=
  ResultRel (Halt.Matches A) (Machine.Matches A) Eq

abbrev Aligned (A : Alignment) (x x' : Eval α) : Prop :=
  Agree (Halt.Matches A) (Machine.Matches A) Eq x x'

theorem aligned_startAt (ho : A.place o o') : Aligned A (startAt o) (startAt o') :=
  fun _ _ h => .ok rfl { h with location := ho }

theorem aligned_print (text : String) (ho : A.place o o') (hp : A.print o o') :
    Aligned A (print text o) (print text o') := by
  intro m m' h
  refine .ok rfl { h with transcript := ?_ }
  rw [Array.toList_push, Array.toList_push]
  exact List.rel_append h.transcript (.cons (.mk text ho hp) .nil)

theorem aligned_currentStore (ho : A.place o o') :
    Aligned A (currentStore o) (currentStore o') :=
  agree_look (.fault _ ho) (currentStore_eq o) (currentStore_eq o') fun h =>
    optionRel_eq (by rw [h.memory])

theorem aligned_globalStore (ho : A.place o o') :
    Aligned A (globalStore o) (globalStore o') :=
  agree_look (.fault _ ho) (globalStore_eq o) (globalStore_eq o') fun h =>
    optionRel_eq (by rw [h.memory])

theorem aligned_read (h : Handle) (name : String) (ho : A.place o o') :
    Aligned A (read h name o) (read h name o') :=
  agree_look (.fault _ ho) (read_eq h name o) (read_eq h name o') fun hm =>
    optionRel_eq (by rw [hm.memory])

theorem aligned_write (h : Handle) (name : String) (v : Value) :
    Aligned A (write h name v) (write h name v) :=
  fun _ _ hm => .ok rfl { hm with memory := congrArg (·.write h name v) hm.memory }

theorem aligned_writeAll (h : Handle) (bs : List (String × Value)) :
    Aligned A (writeAll h bs) (writeAll h bs) :=
  fun _ _ hm => .ok rfl { hm with memory := congrArg (·.writeAll h bs) hm.memory }

theorem aligned_capture (mode : Capture) (source : Option Handle) :
    Aligned A (capture mode source) (capture mode source) := by
  intro m m' hm
  have hcapture := congrArg (·.capture mode source) hm.memory
  exact .ok (congrArg Prod.fst hcapture).symm { hm with memory := congrArg Prod.snd hcapture }

theorem aligned_captureHere (mode : Capture) :
    Aligned A (captureHere mode) (captureHere mode) := by
  refine Agree.get_bind fun hm => ?_
  rw [hm.memory]
  exact aligned_capture mode _ hm

theorem aligned_makeFunction (params : List String) (body : ScopeId) (h : Handle) :
    Aligned A (makeFunction params body h) (makeFunction params body h) := by
  intro m m' hm
  refine .ok ?_ { hm with functions := congrArg (· + 1) hm.functions }
  rw [hm.functions]

theorem aligned_recordCall (name snippet : String) :
    Aligned A (recordCall name snippet) (recordCall name snippet) := by
  intro m m' hm
  refine .ok ?_ { hm with calls := congrArg (Array.push · ⟨name, snippet⟩) hm.calls }
  rw [hm.calls]

theorem ResultsMatch.leaving {β : Type} {f : α → β} {depart : Machine → Machine}
    {r r' : EStateM.Result Halt Machine α} (h : ResultsMatch A r r')
    (hd : ∀ {m m'}, Machine.Matches A m m' → Machine.Matches A (depart m) (depart m')) :
    ResultsMatch A (leaving f depart r) (leaving f depart r') :=
  resultRel_leaving h hd (congrArg f)

theorem matches_push (f : Frame) {m m' : Machine} (h : Machine.Matches A m m') :
    Machine.Matches A { m with memory := m.memory.push f } { m' with memory := m'.memory.push f } :=
  { h with memory := congrArg (Memory.push · f) h.memory }

theorem matches_leave {m m' : Machine} (h : Machine.Matches A m m') :
    Machine.Matches A m.leave m'.leave :=
  { h with memory := congrArg Memory.pop h.memory }

theorem matches_clear {m m' : Machine} (h : Machine.Matches A m m') :
    Machine.Matches A m.clear m'.clear :=
  { h with memory := congrArg Memory.clear h.memory }

theorem aligned_withFrame (f : Frame) {x x' : Eval α} (hx : Aligned A x x') :
    Aligned A (withFrame f x) (withFrame f x') :=
  agree_withFrame (matches_push f) matches_leave hx

theorem aligned_withCall (limit : Nat) (ho : A.place o o') {x x' : Eval α}
    (hx : Aligned A x x') : Aligned A (withCall limit o x) (withCall limit o' x') :=
  agree_withCall limit (.fault _ ho) (·.depth) (fun _ hm => { hm with depth := rfl }) hx

/-- Evaluation relates computations that agree on machines that match. -/
theorem aligned_correspondence (A : Alignment) (limit : Nat) :
    Correspondence A limit limit fun _ => Aligned A where
  pure _ := Agree.pure rfl
  fault cause _ _ ho := Agree.throw (.fault cause ho)
  outOfFuel ho := Agree.throw (.outOfFuel ho)
  bind := Agree.bind_eq
  startAt := aligned_startAt
  print text _ _ := aligned_print text
  currentStore := aligned_currentStore
  globalStore := aligned_globalStore
  read h name _ _ := aligned_read h name
  write := aligned_write
  writeAll := aligned_writeAll
  capture mode h := aligned_capture mode (some h)
  captureHere := aligned_captureHere
  makeFunction := aligned_makeFunction
  recordCall := aligned_recordCall
  withFrame f h := aligned_withFrame f h
  withCall ho h := aligned_withCall limit ho h

end Eval

/-! ## Whole runs -/

namespace Setup

variable {s s' : Setup}

theorem Matches.fuel_eq (h : Setup.Matches A s s') (hlimit : s'.limit = s.limit) :
    s'.fuel = s.fuel := by
  rw [fuel, fuel, hlimit, h.program.size_eq]

theorem Matches.exists_root (h : Setup.Matches A s s') {root : Scope}
    (hroot : s.program.scope? s.program.root = some root) :
    ∃ root', s'.program.scope? s'.program.root = some root' ∧ Scope.Matches A root root' := by
  have hscope := h.program.scope? s.program.root
  rw [hroot] at hscope
  rw [h.program.root]
  generalize s'.program.scope? s.program.root = q at hscope ⊢
  cases hscope with
  | some hsc => exact ⟨_, rfl, hsc⟩

/-- A statement sets the location before it does anything else. -/
theorem runAll_located (s : Setup) (fuel : Nat) (n : Node) (ns : List Node) (m : Machine) :
    Eval.runAll (Eval.exec s (fuel + 1)) (n :: ns) m =
      Eval.runAll (Eval.exec s (fuel + 1)) (n :: ns) { m with location := n.offset } := by
  simp only [Eval.runAll, Eval.exec]
  rfl

theorem exists_fuel_eq (s : Setup) : ∃ k, s.fuel = k + 1 :=
  Nat.exists_eq_succ_of_ne_zero (Nat.ne_of_gt (Nat.add_pos_right _ (twoPow_pos 60)))

/-- The machines inside matching outermost scopes match, once the first statement is started. -/
theorem matches_inside (hs : Setup.Matches A s s') {root root' : Scope}
    (hroot : Scope.Matches A root root') (m : Machine) {o o' : Nat} (ho : A.place o o') :
    Machine.Matches A { s.inside root m with location := o }
      { s'.inside root' m with location := o' } := by
  have hinside : s'.inside root' m = s.inside root m := by
    cases hroot
    rw [inside, inside, start, start, hs.natives]
  rw [hinside]
  exact ⟨rfl, rfl, .nil, ho, rfl, rfl, rfl⟩

/-- Programs that match run alike, if the outermost scope has a statement that sets the location. -/
theorem matches_run (hs : Setup.Matches A s s') (hlimit : s'.limit = s.limit) {root : Scope}
    {n : Node} {ns : List Node} (hroot : s.program.scope? s.program.root = some root)
    (hns : root.statements = n :: ns) (m : Machine) :
    Eval.ResultsMatch A (s.run m) (s'.run m) := by
  obtain ⟨root', hroot', hsc⟩ := hs.exists_root hroot
  obtain ⟨n', ns', hn, hall, hns'⟩ := List.forall₂_cons_left_iff.1 (hns ▸ hsc.statements)
  have hR : Eval.Correspondence A s.limit s'.limit fun _ => Eval.Aligned A :=
    hlimit ▸ Eval.aligned_correspondence A s.limit
  obtain ⟨k, hk⟩ := s.exists_fuel_eq
  have hexec := (List.Forall₂.cons hn hall).imp fun _ _ => (hR.exec_eval hs (k + 1)).1
  have hrun := hR.runAll hexec (matches_inside hs hsc m hn.offset)
  rw [run, run, hs.fuel_eq hlimit, hk, runWith_eq s hroot, runWith_eq s' hroot',
    hns, hns', runAll_located, runAll_located]
  exact Eval.ResultsMatch.leaving hrun Eval.matches_clear

end Setup

end ScopeScript
