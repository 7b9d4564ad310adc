import ScopeScript.Proofs.Grammar.Filled
import ScopeScript.Proofs.Parser.Exact

/-!
# The arena of a program

Nodes refer to scopes by number: `p.references` lists all of these, each with the scope whose
statements it stands in. In the arena of a parsed program (`Program.Arranged`) scope 0 is the
outermost one, and every other scope is referred to once, in its parent: by a function if its store
is a copy, by a block, a scope used as a value or a branch if it shares the store around it.

The links of a part of a tree, from a host to a scope it refers to, are counted twice, once in the
nodes and once in the scopes that the part takes up (`Segment.links`).
-/

namespace ScopeScript

/-- How a node refers to a scope. -/
inductive Role where
  | function
  | scope
  | branch
  deriving DecidableEq, Repr

/-- How the store of a scope is made that is referred to in this way. -/
def Role.capture : Role → Capture
  | .function => .copied
  | .scope | .branch => .shared

/-- A place at which a scope is referred to: in the statements of `host`, deep inside them or
not. -/
structure Reference where
  host : ScopeId
  role : Role
  target : ScopeId
  deriving DecidableEq, Repr

namespace Node

mutual

/-- The references in a node of the scope `host`. -/
def references (host : ScopeId) : Node → List Reference
  | .unary _ e _ | .bind _ e _ _ | .set _ _ e _ | .print e _ | .result e _ => e.references host
  | .binary _ l r _ => l.references host ++ r.references host
  | .call f args _ => f.references host ++ allReferences host args
  | .function _ id _ => [⟨host, .function, id⟩]
  | .scope id _ => [⟨host, .scope, id⟩]
  | .branch e id _ => e.references host ++ [⟨host, .branch, id⟩]
  | _ => []

def allReferences (host : ScopeId) : List Node → List Reference
  | [] => []
  | n :: ns => n.references host ++ allReferences host ns

end

end Node

def Scope.references (scs : List Scope) : List Reference :=
  scs.flatMap fun sc => Node.allReferences sc.id sc.statements

def Program.references (p : Program) : List Reference := Scope.references p.scopes.toList

/-- What the parser says of a scope that a node refers to: its parent, its store, its number. -/
structure Link where
  parent : Option ScopeId
  capture : Capture
  id : ScopeId
  deriving DecidableEq

def Reference.link (r : Reference) : Link := ⟨some r.host, r.role.capture, r.target⟩

def Scope.link (sc : Scope) : Link := ⟨sc.parent, sc.capture, sc.id⟩

/-! ## Parts of a layout -/

/-- The scopes `used` are numbered from `next` on and lie inside others, and the links to them are
those of `refs` and of the references in themselves. -/
structure Segment (next : ScopeId) (refs : List Reference) (used : List Scope) : Prop where
  ids : used.map (·.id) = List.range' next used.length
  inner : ∀ sc ∈ used, sc.statements ≠ [] ∧ sc.capture ≠ .fresh ∧
    ∃ j, sc.parent = some j ∧ j < sc.id
  links : ∀ a, ((refs ++ Scope.references used).map (·.link)).count a =
    (used.map (·.link)).count a

namespace Segment

theorem nil (next : ScopeId) : Segment next [] [] := ⟨rfl, nofun, fun _ => rfl⟩

theorem append {next : ScopeId} {refs refs' : List Reference} {used used' : List Scope}
    (h : Segment next refs used) (h' : Segment (next + used.length) refs' used') :
    Segment next (refs ++ refs') (used ++ used') where
  ids := by
    rw [List.map_append, List.length_append, h.ids, h'.ids, List.range'_append_1]
  inner := List.forall_mem_append.2 ⟨h.inner, h'.inner⟩
  links a := by
    have hl := h.links a
    have hl' := h'.links a
    simp only [Scope.references, List.flatMap_append, List.map_append,
      List.count_append] at hl hl' ⊢
    omega

/-- A block with its scopes inside hangs on one reference. -/
theorem block {parent id : ScopeId} {role : Role} {ns : List Node} {used : List Scope}
    (h : Segment (id + 1) (Node.allReferences id ns) used) (hns : ns ≠ []) (hlt : parent < id)
    (o : Nat) :
    Segment id [⟨parent, role, id⟩] (⟨id, some parent, role.capture, ns, o⟩ :: used) where
  ids := by
    rw [List.map_cons, h.ids, List.length_cons, List.range'_succ]
  inner := by
    refine List.forall_mem_cons.2 ⟨⟨hns, ?_, parent, rfl, hlt⟩, h.inner⟩
    cases role <;> exact nofun
  links a := by
    have hl := h.links a
    have hhead : Reference.link ⟨parent, role, id⟩ =
        Scope.link ⟨id, some parent, role.capture, ns, o⟩ := rfl
    simp only [Scope.references, List.flatMap_cons, List.map_append, List.map_cons, List.map_nil,
      List.count_append, List.count_cons, List.count_nil, hhead] at hl ⊢
    omega

end Segment

namespace Layout

open ScopeScript.Tree (Expr Stmt Block)

theorem length_stmts (parent next : ScopeId) (ss : List Stmt) :
    (stmts parent next ss).1.length = ss.length := by
  induction ss generalizing next with
  | nil => rfl
  | cons s ss ih => simp [stmts, ih]

theorem stmts_ne_nil {ss : List Stmt} (h : ss ≠ []) (parent next : ScopeId) :
    (stmts parent next ss).1 ≠ [] := by
  rw [← List.length_pos_iff, length_stmts]
  exact List.length_pos_iff.2 h

mutual

theorem segment_expr (parent next : ScopeId) (hlt : parent < next) :
    ∀ e : Expr, e.Filled → Segment next ((expr parent next e).1.references parent)
      (expr parent next e).2
  | .number _ _, _ | .text _ _, _ | .bool _ _, _ | .nil _, _ | .var _ _, _ => .nil next
  | .unary _ e _, h => segment_expr parent next hlt e h
  | .binary _ l r _, h =>
    (segment_expr parent next hlt l h.1).append
      (segment_expr parent _ (Nat.lt_add_right _ hlt) r h.2)
  | .call f args _, h =>
    (segment_expr parent next hlt f h.1).append
      (segment_exprs parent _ (Nat.lt_add_right _ hlt) args h.2)
  | .function _ body _, h => segment_block .function hlt body h
  | .scope body _, h => segment_block .scope hlt body h

theorem segment_exprs (parent next : ScopeId) (hlt : parent < next) :
    ∀ es : List Expr, Expr.AllFilled es → Segment next
      (Node.allReferences parent (exprs parent next es).1) (exprs parent next es).2
  | [], _ => .nil next
  | e :: es, h =>
    (segment_expr parent next hlt e h.1).append
      (segment_exprs parent _ (Nat.lt_add_right _ hlt) es h.2)

theorem segment_stmt (parent next : ScopeId) (hlt : parent < next) :
    ∀ s : Stmt, s.Filled → Segment next ((stmt parent next s).1.references parent)
      (stmt parent next s).2
  | .bind _ e _ _, h | .set _ _ e _, h | .print e _, h | .result e _, h | .eval e, h =>
    segment_expr parent next hlt e h
  | .branch e body _, h =>
    (segment_expr parent next hlt e h.1).append
      (segment_block .branch (Nat.lt_add_right _ hlt) body h.2)
  | .block body _, h => segment_block .scope hlt body h
  | .empty _, _ => .nil next

theorem segment_stmts (parent next : ScopeId) (hlt : parent < next) :
    ∀ ss : List Stmt, Stmt.AllFilled ss → Segment next
      (Node.allReferences parent (stmts parent next ss).1) (stmts parent next ss).2
  | [], _ => .nil next
  | s :: ss, h =>
    (segment_stmt parent next hlt s h.1).append
      (segment_stmts parent _ (Nat.lt_add_right _ hlt) ss h.2)

theorem segment_block {parent id : ScopeId} (role : Role) (hlt : parent < id) :
    ∀ b : Block, b.Filled → Segment id [⟨parent, role, id⟩]
      (block (some parent) role.capture id b)
  | .mk ss o, h =>
    (segment_stmts id (id + 1) (Nat.lt_succ_self id) ss h.2).block (stmts_ne_nil h.1 _ _) hlt o

end

end Layout

/-! ## The arena -/

namespace Segment

variable {next : ScopeId} {refs : List Reference} {used : List Scope}

theorem id_eq (h : Segment next refs used) {j : Nat} {sc : Scope} (hsc : used[j]? = some sc) :
    sc.id = next + j := by
  have hj : j < used.length := (List.getElem?_eq_some_iff.1 hsc).1
  have hid : (used.map (·.id))[j]? = some sc.id := by rw [List.getElem?_map, hsc]; rfl
  rw [h.ids, List.getElem?_range' hj, Nat.one_mul, Option.some.injEq] at hid
  exact hid.symm

theorem perm (h : Segment next refs used) :
    ((refs ++ Scope.references used).map (·.link)).Perm (used.map (·.link)) :=
  List.perm_iff_count.2 h.links

/-- What is referred to is one of the scopes. -/
theorem exists_scope (h : Segment next refs used) {r : Reference}
    (hr : r ∈ refs ++ Scope.references used) :
    ∃ j sc, used[j]? = some sc ∧ r.target = next + j ∧ sc.link = r.link := by
  obtain ⟨sc, hsc, hlink⟩ := List.mem_map.1 (h.perm.subset (List.mem_map_of_mem hr))
  obtain ⟨j, hj⟩ := List.mem_iff_getElem?.1 hsc
  refine ⟨j, sc, hj, ?_, hlink⟩
  rw [← h.id_eq hj]
  exact (congrArg Link.id hlink).symm

/-- Each of the scopes is referred to once. -/
theorem length_filter (h : Segment next refs used) {j : Nat} (hj : j < used.length) :
    ((refs ++ Scope.references used).filter (·.target = next + j)).length = 1 := by
  have htargets : ((refs ++ Scope.references used).map (·.target)).Perm
      (List.range' next used.length) := by
    have := h.perm.map Link.id
    rw [List.map_map, List.map_map] at this
    rw [← h.ids]
    exact this
  rw [← List.countP_eq_length_filter]
  calc List.countP (fun r => decide (r.target = next + j)) (refs ++ Scope.references used)
      = ((refs ++ Scope.references used).map (·.target)).count (next + j) := by
        rw [List.count, List.countP_map]
        rfl
    _ = (List.range' next used.length).count (next + j) := htargets.count_eq _
    _ = 1 := by rw [List.count_range', if_pos ⟨j, hj, by rw [Nat.one_mul]⟩]

end Segment

namespace Program

/-- Each scope stands at its number and has statements. The first one is the outermost: it alone has
a fresh store and no parent. Each other one opens inside its parent and is referred to once in the
whole program, in a statement of its parent: by a function if its store is a copy, by a scope node
or a branch if it shares the store around it. Nothing else is referred to. -/
structure Arranged (p : Program) : Prop where
  root : p.root = 0
  outermost : ∃ sc, p.scope? 0 = some sc ∧ sc.capture = .fresh ∧ sc.parent = none
  scopes : ∀ {i sc}, p.scope? i = some sc → sc.id = i ∧ sc.statements ≠ []
  inner : ∀ {i sc}, p.scope? i = some sc → i ≠ 0 → sc.capture ≠ .fresh ∧
    ∃ r, p.references.filter (·.target = i) = [r] ∧ sc.parent = some r.host ∧ r.host < i ∧
      (r.role = .function ↔ sc.capture = .copied) ∧
      (r.role = .scope ∨ r.role = .branch ↔ sc.capture = .shared)
  targets : ∀ r ∈ p.references, r.target ≠ 0 ∧ ∃ sc, p.scope? r.target = some sc

/-- The scopes after the outermost one are those that its statements take up. -/
theorem exists_segment {root : Tree.Block} (h : root.Filled) :
    ∃ ns o used, ns ≠ [] ∧ Segment 1 (Node.allReferences 0 ns) used ∧
      (ofTree root).scopes.toList = ⟨0, none, .fresh, ns, o⟩ :: used := by
  obtain ⟨ss, o⟩ := root
  refine ⟨_, o, (Layout.stmts 0 1 ss).2, Layout.stmts_ne_nil h.1 0 1, ?_, ?_⟩
  · exact Layout.segment_stmts 0 1 Nat.zero_lt_one ss h.2
  · simp only [ofTree, Layout.block]

theorem arranged_ofTree {root : Tree.Block} (h : root.Filled) : (ofTree root).Arranged := by
  obtain ⟨ns, o, used, hns, hseg, hscopes⟩ := exists_segment h
  have hscope (i : ScopeId) : (ofTree root).scope? i =
      (⟨0, none, .fresh, ns, o⟩ :: used : List Scope)[i]? := by
    rw [scope?, ← hscopes, Array.getElem?_toList]
  have hrefs : (ofTree root).references = Node.allReferences 0 ns ++ Scope.references used := by
    rw [references, hscopes]
    rfl
  refine ⟨rfl, ⟨_, hscope 0, rfl, rfl⟩, ?_, ?_, ?_⟩
  · intro i sc hsc
    rw [hscope] at hsc
    cases i with
    | zero =>
      cases hsc
      exact ⟨rfl, hns⟩
    | succ j =>
      have hmem : sc ∈ used := List.mem_of_getElem? hsc
      exact ⟨(hseg.id_eq hsc).trans (Nat.add_comm 1 j), (hseg.inner sc hmem).1⟩
  · intro i sc hsc hi
    rw [hscope] at hsc
    obtain ⟨j, rfl⟩ := Nat.exists_eq_succ_of_ne_zero hi
    have hsc : used[j]? = some sc := hsc
    obtain ⟨-, hfresh, k, hparent, hk⟩ := hseg.inner sc (List.mem_of_getElem? hsc)
    have hone := hseg.length_filter (List.getElem?_eq_some_iff.1 hsc).1
    rw [Nat.add_comm 1 j, ← hrefs] at hone
    obtain ⟨r, hr⟩ := List.length_eq_one_iff.1 hone
    obtain ⟨hmem, htarget⟩ := List.mem_filter.1 (hr ▸ List.mem_singleton_self r)
    -- the reference is to a scope with its number, and there is only one
    obtain ⟨j', sc', hsc', htarget', hlink⟩ := hseg.exists_scope (hrefs ▸ hmem)
    have hnumber : j + 1 = 1 + j' := (of_decide_eq_true htarget).symm.trans htarget'
    obtain rfl : j = j' := by omega
    obtain rfl : sc = sc' := Option.some.inj (hsc.symm.trans hsc')
    have hhost : sc.parent = some r.host := congrArg Link.parent hlink
    have hcapture : sc.capture = r.role.capture := congrArg Link.capture hlink
    refine ⟨hfresh, r, hr, hhost, ?_, ?_⟩
    · rw [hhost, Option.some.injEq] at hparent
      rw [hparent, Nat.succ_eq_one_add, ← hseg.id_eq hsc]
      exact hk
    · rw [hcapture]
      cases r.role <;> simp [Role.capture]
  · intro r hr
    obtain ⟨j, sc, hsc, htarget, -⟩ := hseg.exists_scope (hrefs ▸ hr)
    rw [htarget, Nat.add_comm 1 j]
    exact ⟨Nat.succ_ne_zero j, sc, (hscope _).trans hsc⟩

/-- The tree of a parsed program has no empty blocks. -/
theorem exists_filled {ts : List Token} {p : Program} (h : ofTokens ts = .ok p) :
    ∃ root : Tree.Block, root.Filled ∧ p = ofTree root := by
  unfold ofTokens at h
  split at h
  · cases h
  · next root hroot =>
    cases h
    obtain ⟨d, -, rfl⟩ := Tree.parse_eq_ok_iff.1 hroot
    exact ⟨d.tree, d.filled, rfl⟩

/-- The arena of every program that is read from tokens is arranged. -/
theorem arranged_of_ofTokens {ts : List Token} {p : Program} (h : ofTokens ts = .ok p) :
    p.Arranged := by
  obtain ⟨root, hfilled, rfl⟩ := exists_filled h
  exact arranged_ofTree hfilled

/-- A branch around a function, and a block in last place. -/
theorem arranged_of_ofTokens_nested :
    let ts : List Token :=
      [⟨.sign .openBrace, 0⟩, ⟨.keyword .if, 1⟩, ⟨.keyword .true, 2⟩, ⟨.sign .openBrace, 3⟩,
        ⟨.keyword .fn, 4⟩, ⟨.sign .openParen, 5⟩, ⟨.sign .closeParen, 6⟩, ⟨.sign .openBrace, 7⟩,
        ⟨.sign .closeBrace, 8⟩, ⟨.sign .closeBrace, 9⟩, ⟨.sign .semicolon, 10⟩,
        ⟨.sign .openBrace, 11⟩, ⟨.sign .closeBrace, 12⟩, ⟨.sign .closeBrace, 13⟩, ⟨.finish, 14⟩]
    let p : Program :=
      { scopes := #[
          ⟨0, none, .fresh, [.branch (.bool true 2) 1 1, .result (.scope 3 11) 11], 0⟩,
          ⟨1, some 0, .shared, [.function [] 2 4], 3⟩,
          ⟨2, some 1, .copied, [.empty 8], 7⟩,
          ⟨3, some 0, .shared, [.empty 12], 11⟩],
        root := 0 }
    ofTokens ts = .ok p ∧ p.Arranged := by
  intro ts p
  have h : ofTokens ts = .ok p := rfl
  exact ⟨h, arranged_of_ofTokens h⟩

end Program

end ScopeScript
