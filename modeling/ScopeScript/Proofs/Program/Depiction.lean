import ScopeScript.Program.Layout

/-!
# Programs that depict trees

`p.DepictsBlock parent capture id b`: scope `id` of the program holds the statements of the block
`b`, with each block inside them in a scope of its own that is numbered later. `Program.ofTree` lays
a tree out so that the program depicts it, and so that every scope of the arena depicts some block
(`Program.depicts_ofTree`, `Program.exists_block`).
-/

namespace ScopeScript

open ScopeScript.Tree (Expr Stmt Block)

namespace Program

mutual

/-- Node `n` in scope `i` depicts an expression. A function body is a copied scope, a scope used as
a value a shared one. -/
inductive DepictsExpr (p : Program) : ScopeId → Expr → Node → Prop where
  | number (i : ScopeId) (x : Float) (o : Nat) : DepictsExpr p i (.number x o) (.number x o)
  | text (i : ScopeId) (s : String) (o : Nat) : DepictsExpr p i (.text s o) (.text s o)
  | bool (i : ScopeId) (b : Bool) (o : Nat) : DepictsExpr p i (.bool b o) (.bool b o)
  | nil (i : ScopeId) (o : Nat) : DepictsExpr p i (.nil o) (.nil o)
  | var (i : ScopeId) (s : String) (o : Nat) : DepictsExpr p i (.var s o) (.var s o)
  | unary {i : ScopeId} {e : Expr} {n : Node} (op : UnaryOp) (o : Nat) :
      DepictsExpr p i e n → DepictsExpr p i (.unary op e o) (.unary op n o)
  | binary {i : ScopeId} {e e' : Expr} {n n' : Node} (op : BinaryOp) (o : Nat) :
      DepictsExpr p i e n → DepictsExpr p i e' n' →
      DepictsExpr p i (.binary op e e' o) (.binary op n n' o)
  | call {i : ScopeId} {e : Expr} {es : List Expr} {n : Node} {ns : List Node} (o : Nat) :
      DepictsExpr p i e n → DepictsExprs p i es ns →
      DepictsExpr p i (.call e es o) (.call n ns o)
  | function {i id : ScopeId} {b : Block} (params : List String) (o : Nat) : i < id →
      DepictsBlock p (some i) .copied id b →
      DepictsExpr p i (.function params b o) (.function params id o)
  | scope {i id : ScopeId} {b : Block} (o : Nat) : i < id →
      DepictsBlock p (some i) .shared id b → DepictsExpr p i (.scope b o) (.scope id o)

inductive DepictsExprs (p : Program) : ScopeId → List Expr → List Node → Prop where
  | nil (i : ScopeId) : DepictsExprs p i [] []
  | cons {i : ScopeId} {e : Expr} {es : List Expr} {n : Node} {ns : List Node} :
      DepictsExpr p i e n → DepictsExprs p i es ns → DepictsExprs p i (e :: es) (n :: ns)

inductive DepictsStmt (p : Program) : ScopeId → Stmt → Node → Prop where
  | bind {i : ScopeId} {e : Expr} {n : Node} (s : String) (isPublic : Bool) (o : Nat) :
      DepictsExpr p i e n → DepictsStmt p i (.bind s e isPublic o) (.bind s n isPublic o)
  | set {i : ScopeId} {e : Expr} {n : Node} (s : String) (op : BinaryOp) (o : Nat) :
      DepictsExpr p i e n → DepictsStmt p i (.set s op e o) (.set s op n o)
  | branch {i id : ScopeId} {e : Expr} {n : Node} {b : Block} (o : Nat) :
      DepictsExpr p i e n → i < id → DepictsBlock p (some i) .shared id b →
      DepictsStmt p i (.branch e b o) (.branch n id o)
  | print {i : ScopeId} {e : Expr} {n : Node} (o : Nat) :
      DepictsExpr p i e n → DepictsStmt p i (.print e o) (.print n o)
  | result {i : ScopeId} {e : Expr} {n : Node} (o : Nat) :
      DepictsExpr p i e n → DepictsStmt p i (.result e o) (.result n o)
  | block {i id : ScopeId} {b : Block} (o : Nat) : i < id →
      DepictsBlock p (some i) .shared id b → DepictsStmt p i (.block b o) (.scope id o)
  | eval {i : ScopeId} {e : Expr} {n : Node} : DepictsExpr p i e n → DepictsStmt p i (.eval e) n
  | empty (i : ScopeId) (o : Nat) : DepictsStmt p i (.empty o) (.empty o)

inductive DepictsStmts (p : Program) : ScopeId → List Stmt → List Node → Prop where
  | nil (i : ScopeId) : DepictsStmts p i [] []
  | cons {i : ScopeId} {s : Stmt} {ss : List Stmt} {n : Node} {ns : List Node} :
      DepictsStmt p i s n → DepictsStmts p i ss ns → DepictsStmts p i (s :: ss) (n :: ns)

inductive DepictsBlock (p : Program) : Option ScopeId → Capture → ScopeId → Block → Prop where
  | mk {parent : Option ScopeId} {capture : Capture} {id : ScopeId} {ss : List Stmt}
      {ns : List Node} {o : Nat} : p.scope? id = some ⟨id, parent, capture, ns, o⟩ →
      DepictsStmts p id ss ns → DepictsBlock p parent capture id (.mk ss o)

end

/-- A program depicts a tree: its root scope does, starting from a fresh store. -/
def Depicts (p : Program) (root : Block) : Prop := p.DepictsBlock none .fresh p.root root

/-- The scopes `used` stand in the arena from number `next` on. -/
def Holds (p : Program) (next : ScopeId) (used : List Scope) : Prop :=
  ∀ j sc, used[j]? = some sc → p.scope? (next + j) = some sc

theorem Holds.append {p : Program} {next : ScopeId} {l l' : List Scope}
    (h : p.Holds next (l ++ l')) : p.Holds next l ∧ p.Holds (next + l.length) l' := by
  constructor
  · intro j sc hj
    refine h j sc ?_
    rw [List.getElem?_append_left (List.getElem?_eq_some_iff.1 hj).1, hj]
  · intro j sc hj
    rw [Nat.add_assoc]
    refine h _ sc ?_
    rw [List.getElem?_append_right (by omega), Nat.add_sub_cancel_left, hj]

theorem Holds.cons {p : Program} {next : ScopeId} {sc : Scope} {l : List Scope}
    (h : p.Holds next (sc :: l)) : p.scope? next = some sc ∧ p.Holds (next + 1) l := by
  obtain ⟨h₁, h₂⟩ := Holds.append (l := [sc]) h
  exact ⟨h₁ 0 sc rfl, h₂⟩

/-- Each of these scopes depicts a block. -/
def AllDepict (p : Program) (next : ScopeId) (used : List Scope) : Prop :=
  ∀ j sc, used[j]? = some sc → ∃ b, p.DepictsBlock sc.parent sc.capture (next + j) b

theorem AllDepict.nil {p : Program} {next : ScopeId} : p.AllDepict next [] := by
  intro j sc h
  simp at h

theorem AllDepict.append {p : Program} {next : ScopeId} {l l' : List Scope}
    (h : p.AllDepict next l) (h' : p.AllDepict (next + l.length) l') :
    p.AllDepict next (l ++ l') := by
  intro j sc hj
  rcases Nat.lt_or_ge j l.length with hlt | hge
  · rw [List.getElem?_append_left hlt] at hj
    exact h j sc hj
  · rw [List.getElem?_append_right hge] at hj
    have := h' _ sc hj
    rwa [Nat.add_assoc, Nat.add_sub_cancel' hge] at this

theorem AllDepict.cons {p : Program} {next : ScopeId} {sc : Scope} {l : List Scope} {b : Block}
    (h : p.DepictsBlock sc.parent sc.capture next b) (h' : p.AllDepict (next + 1) l) :
    p.AllDepict next (sc :: l) := by
  refine AllDepict.append (l := [sc]) ?_ h'
  intro j sc' hj
  obtain ⟨rfl, rfl⟩ : j = 0 ∧ sc = sc' := by
    cases j <;> simp_all
  exact ⟨b, h⟩

/-! ## Laying a tree out -/

mutual

theorem depicts_expr {p : Program} (parent next : ScopeId) (hlt : parent < next) :
    ∀ e, p.Holds next (Layout.expr parent next e).2 →
      p.DepictsExpr parent e (Layout.expr parent next e).1 ∧
        p.AllDepict next (Layout.expr parent next e).2
  | .number x o, _ => ⟨.number _ x o, .nil⟩
  | .text s o, _ => ⟨.text _ s o, .nil⟩
  | .bool b o, _ => ⟨.bool _ b o, .nil⟩
  | .nil o, _ => ⟨.nil _ o, .nil⟩
  | .var s o, _ => ⟨.var _ s o, .nil⟩
  | .unary op e o, h => by
    obtain ⟨hd, hall⟩ := depicts_expr parent next hlt e h
    exact ⟨.unary op o hd, hall⟩
  | .binary op l r o, h => by
    obtain ⟨hl, hr⟩ := Holds.append h
    obtain ⟨hdl, hall⟩ := depicts_expr parent next hlt l hl
    obtain ⟨hdr, hall'⟩ := depicts_expr parent _ (Nat.lt_add_right _ hlt) r hr
    exact ⟨.binary op o hdl hdr, hall.append hall'⟩
  | .call f args o, h => by
    obtain ⟨hf, ha⟩ := Holds.append h
    obtain ⟨hdf, hall⟩ := depicts_expr parent next hlt f hf
    obtain ⟨hda, hall'⟩ := depicts_exprs parent _ (Nat.lt_add_right _ hlt) args ha
    exact ⟨.call o hdf hda, hall.append hall'⟩
  | .function params body o, h => by
    obtain ⟨hd, hall⟩ := depicts_block (some parent) .copied next body h
    exact ⟨.function params o hlt hd, hall⟩
  | .scope body o, h => by
    obtain ⟨hd, hall⟩ := depicts_block (some parent) .shared next body h
    exact ⟨.scope o hlt hd, hall⟩

theorem depicts_exprs {p : Program} (parent next : ScopeId) (hlt : parent < next) :
    ∀ es, p.Holds next (Layout.exprs parent next es).2 →
      p.DepictsExprs parent es (Layout.exprs parent next es).1 ∧
        p.AllDepict next (Layout.exprs parent next es).2
  | [], _ => ⟨.nil _, .nil⟩
  | e :: es, h => by
    obtain ⟨he, hes⟩ := Holds.append h
    obtain ⟨hd, hall⟩ := depicts_expr parent next hlt e he
    obtain ⟨hds, hall'⟩ := depicts_exprs parent _ (Nat.lt_add_right _ hlt) es hes
    exact ⟨.cons hd hds, hall.append hall'⟩

theorem depicts_stmt {p : Program} (parent next : ScopeId) (hlt : parent < next) :
    ∀ s, p.Holds next (Layout.stmt parent next s).2 →
      p.DepictsStmt parent s (Layout.stmt parent next s).1 ∧
        p.AllDepict next (Layout.stmt parent next s).2
  | .bind s e isPublic o, h => by
    obtain ⟨hd, hall⟩ := depicts_expr parent next hlt e h
    exact ⟨.bind s isPublic o hd, hall⟩
  | .set s op e o, h => by
    obtain ⟨hd, hall⟩ := depicts_expr parent next hlt e h
    exact ⟨.set s op o hd, hall⟩
  | .branch e body o, h => by
    obtain ⟨he, hb⟩ := Holds.append h
    obtain ⟨hd, hall⟩ := depicts_expr parent next hlt e he
    obtain ⟨hdb, hall'⟩ := depicts_block (some parent) .shared _ body hb
    exact ⟨.branch o hd (Nat.lt_add_right _ hlt) hdb, hall.append hall'⟩
  | .print e o, h => by
    obtain ⟨hd, hall⟩ := depicts_expr parent next hlt e h
    exact ⟨.print o hd, hall⟩
  | .result e o, h => by
    obtain ⟨hd, hall⟩ := depicts_expr parent next hlt e h
    exact ⟨.result o hd, hall⟩
  | .block body o, h => by
    obtain ⟨hd, hall⟩ := depicts_block (some parent) .shared next body h
    exact ⟨.block o hlt hd, hall⟩
  | .eval e, h => by
    obtain ⟨hd, hall⟩ := depicts_expr parent next hlt e h
    exact ⟨.eval hd, hall⟩
  | .empty o, _ => ⟨.empty _ o, .nil⟩

theorem depicts_stmts {p : Program} (parent next : ScopeId) (hlt : parent < next) :
    ∀ ss, p.Holds next (Layout.stmts parent next ss).2 →
      p.DepictsStmts parent ss (Layout.stmts parent next ss).1 ∧
        p.AllDepict next (Layout.stmts parent next ss).2
  | [], _ => ⟨.nil _, .nil⟩
  | s :: ss, h => by
    obtain ⟨hs, hss⟩ := Holds.append h
    obtain ⟨hd, hall⟩ := depicts_stmt parent next hlt s hs
    obtain ⟨hds, hall'⟩ := depicts_stmts parent _ (Nat.lt_add_right _ hlt) ss hss
    exact ⟨.cons hd hds, hall.append hall'⟩

theorem depicts_block {p : Program} (parent : Option ScopeId) (capture : Capture)
    (id : ScopeId) :
    ∀ b, p.Holds id (Layout.block parent capture id b) →
      p.DepictsBlock parent capture id b ∧ p.AllDepict id (Layout.block parent capture id b)
  | .mk ss o, h => by
    obtain ⟨hsc, hss⟩ := Holds.cons h
    obtain ⟨hds, hall⟩ := depicts_stmts id (id + 1) (Nat.lt_succ_self id) ss hss
    have hd : p.DepictsBlock parent capture id (.mk ss o) := .mk hsc hds
    exact ⟨hd, AllDepict.cons hd hall⟩

end

theorem holds_ofTree (root : Block) :
    (ofTree root).Holds 0 (Layout.block none .fresh 0 root) := by
  intro j sc hj
  simpa [scope?, ofTree] using hj

/-- The program of a tree depicts it. -/
theorem depicts_ofTree (root : Block) : (ofTree root).Depicts root :=
  (depicts_block none .fresh 0 root (holds_ofTree root)).1

/-- Every scope of the program of a tree depicts a block. -/
theorem exists_block {root : Block} {i : ScopeId} {sc : Scope}
    (h : (ofTree root).scope? i = some sc) :
    ∃ b, (ofTree root).DepictsBlock sc.parent sc.capture i b := by
  have hall := (depicts_block none .fresh 0 root (holds_ofTree root)).2
  simpa using hall i sc (by simpa [scope?, ofTree] using h)

end Program

end ScopeScript
