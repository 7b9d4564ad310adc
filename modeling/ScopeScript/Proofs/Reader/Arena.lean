import ScopeScript.Program.Layout
import ScopeScript.Proofs.Reader.Cursor
import ScopeScript.Reader.Parser

/-!
# The arena while it is built

`Built lay parent outer base a b c`: since the arena was `base`, the part `b` of a tree has been
read into `a`, and its scopes have been put behind `base` as the layout does it (`lay`, one of the
functions of `Layout`); the scope `parent` is the innermost open one again. One lemma for each way
to put parts together.
-/

namespace ScopeScript.Reader

open ScopeScript.Tree (Expr Stmt Block)

namespace Cursor

theorem opened_next (c : Cursor) : c.next.opened = c.opened := by
  unfold next
  split <;> rfl

theorem scopes_next (c : Cursor) : c.next.scopes = c.scopes := by
  unfold next
  split <;> rfl

end Cursor

/-- A node in last place as the value of its scope. -/
def promote (n : Node) : Node := if n.isExpression then .result n n.offset else n

theorem promoteHead_cons (n : Node) (ns : List Node) : promoteHead (n :: ns) = promote n :: ns :=
  rfl

theorem exprs_concat (parent next : ScopeId) (es : List Expr) (e : Expr) :
    Layout.exprs parent next (es ++ [e]) =
      ((Layout.exprs parent next es).1 ++
          [(Layout.expr parent (next + (Layout.exprs parent next es).2.length) e).1],
        (Layout.exprs parent next es).2 ++
          (Layout.expr parent (next + (Layout.exprs parent next es).2.length) e).2) := by
  induction es generalizing next with
  | nil => simp [Layout.exprs]
  | cons d es ih => simp [Layout.exprs, ih, Nat.add_assoc]

theorem stmts_concat (parent next : ScopeId) (ss : List Stmt) (s : Stmt) :
    Layout.stmts parent next (ss ++ [s]) =
      ((Layout.stmts parent next ss).1 ++
          [(Layout.stmt parent (next + (Layout.stmts parent next ss).2.length) s).1],
        (Layout.stmts parent next ss).2 ++
          (Layout.stmt parent (next + (Layout.stmts parent next ss).2.length) s).2) := by
  induction ss generalizing next with
  | nil => simp [Layout.stmts]
  | cons d ss ih => simp [Layout.stmts, ih, Nat.add_assoc]

theorem isExpression_expr (parent next : ScopeId) (e : Expr) :
    (Layout.expr parent next e).1.isExpression = true := by
  cases e <;> rfl

theorem offset_expr (parent next : ScopeId) (e : Expr) :
    (Layout.expr parent next e).1.offset = e.offset := by
  cases e <;> rfl

theorem stmt_promote (parent next : ScopeId) (s : Stmt) :
    Layout.stmt parent next s.promote =
      (promote (Layout.stmt parent next s).1, (Layout.stmt parent next s).2) := by
  cases s with
  | eval e => simp [Stmt.promote, Layout.stmt, promote, isExpression_expr, offset_expr]
  | _ => rfl

/-! ## Putting parts together -/

section

variable {α β : Type}

structure Built (lay : ScopeId → ScopeId → β → α × List Scope) (parent : ScopeId)
    (outer : List ScopeId) (base : List Scope) (a : α) (b : β) (c : Cursor) : Prop where
  opened : c.opened = parent :: outer
  scopes : c.scopes = base ++ (lay parent base.length b).2
  value : a = (lay parent base.length b).1

/-- No scope has been opened or closed. -/
structure Kept (c c' : Cursor) : Prop where
  opened : c'.opened = c.opened
  scopes : c'.scopes = c.scopes

theorem Kept.trans {c c' c'' : Cursor} (h : Kept c c') (h' : Kept c' c'') : Kept c c'' :=
  ⟨h'.opened.trans h.opened, h'.scopes.trans h.scopes⟩

theorem kept_next (c : Cursor) : Kept c c.next := ⟨c.opened_next, c.scopes_next⟩

/-- The scope `parent` is the innermost open one, and the arena is `base`. -/
structure At (parent : ScopeId) (outer : List ScopeId) (base : List Scope) (c : Cursor) :
    Prop where
  opened : c.opened = parent :: outer
  scopes : c.scopes = base

/-- The scope of the block `b` has been put behind the arena of `c`, with all the scopes inside. -/
structure Enclosed (capture : Capture) (c : Cursor) (id : ScopeId) (b : Block) (c' : Cursor) :
    Prop where
  opened : c'.opened = c.opened
  scopes : c'.scopes = c.scopes ++ Layout.block c.opened.head? capture c.scopes.length b
  id_eq : id = c.scopes.length

variable {parent : ScopeId} {outer : List ScopeId} {base : List Scope} {c c' : Cursor}
  {n m : Node} {ns : List Node} {e d : Expr} {es : List Expr} {s : Stmt} {ss : List Stmt}
  {id : ScopeId} {b : Block}

theorem At.kept (h : At parent outer base c) (hk : Kept c c') : At parent outer base c' :=
  ⟨hk.opened.trans h.opened, hk.scopes.trans h.scopes⟩

theorem At.next (h : At parent outer base c) : At parent outer base c.next := h.kept (kept_next c)

namespace Built

theorem at_scopes {lay : ScopeId → ScopeId → β → α × List Scope} {a : α} {b : β}
    (h : Built lay parent outer base a b c) : At parent outer c.scopes c :=
  ⟨h.opened, rfl⟩

theorem next {lay : ScopeId → ScopeId → β → α × List Scope} {a : α} {b : β}
    (h : Built lay parent outer base a b c) : Built lay parent outer base a b c.next :=
  ⟨c.opened_next.trans h.opened, c.scopes_next.trans h.scopes, h.value⟩

/-- A part without scopes. -/
theorem leaf {lay : ScopeId → ScopeId → β → α × List Scope} {a : α} {b : β}
    (h : At parent outer base c) (hlay : lay parent base.length b = (a, [])) :
    Built lay parent outer base a b c :=
  ⟨h.opened, by rw [hlay, List.append_nil, h.scopes], by rw [hlay]⟩

/-- A part with the scopes of another one. -/
theorem wrap {γ δ : Type} {lay : ScopeId → ScopeId → β → α × List Scope}
    {lay' : ScopeId → ScopeId → δ → γ × List Scope} {a : α} {b : β} {a' : γ} {b' : δ}
    (h : Built lay parent outer base a b c)
    (hlay : lay' parent base.length b' = (a', (lay parent base.length b).2)) :
    Built lay' parent outer base a' b' c :=
  ⟨h.opened, by rw [hlay, h.scopes], by rw [hlay]⟩

theorem unary (h : Built Layout.expr parent outer base n e c) (op : UnaryOp) (o : Nat) :
    Built Layout.expr parent outer base (.unary op n o) (.unary op e o) c :=
  h.wrap (by rw [h.value]; rfl)

theorem binary (h : Built Layout.expr parent outer base n e c)
    (h' : Built Layout.expr parent outer c.scopes m d c') (op : BinaryOp) (o : Nat) :
    Built Layout.expr parent outer base (.binary op n m o) (.binary op e d o) c' where
  opened := h'.opened
  scopes := by rw [h'.scopes, h.scopes]; simp [Layout.expr]
  value := by rw [h'.value, h.value, h.scopes]; simp [Layout.expr]

theorem boundValue (h : Built Layout.expr parent outer base n e c) (x : String) (o : Nat)
    (op : BinaryOp) :
    Built Layout.expr parent outer base (boundValue x o op n) (Tree.Parse.boundValue x o op e)
      c := by
  cases op with
  | assign => exact h
  | _ => exact h.wrap (by rw [h.value]; rfl)

theorem call (h : Built Layout.expr parent outer base n e c)
    (h' : Built Layout.exprs parent outer c.scopes ns es c') (o : Nat) :
    Built Layout.expr parent outer base (.call n ns o) (.call e es o) c' where
  opened := h'.opened
  scopes := by rw [h'.scopes, h.scopes]; simp [Layout.expr]
  value := by rw [h'.value, h.value, h.scopes]; simp [Layout.expr]

theorem firstArgument (h : Built Layout.expr parent outer base n e c) :
    Built Layout.exprs parent outer base [n] [e] c where
  opened := h.opened
  scopes := by rw [h.scopes]; simp [Layout.exprs]
  value := by rw [h.value]; simp [Layout.exprs]

theorem argument (h : Built Layout.exprs parent outer base ns es c)
    (h' : Built Layout.expr parent outer c.scopes n e c') :
    Built Layout.exprs parent outer base (ns ++ [n]) (es ++ [e]) c' where
  opened := h'.opened
  scopes := by rw [h'.scopes, h.scopes, exprs_concat]; simp
  value := by rw [h'.value, h.value, h.scopes, exprs_concat]; simp

theorem bind (h : Built Layout.expr parent outer base n e c) (x : String) (isPublic : Bool)
    (o : Nat) :
    Built Layout.stmt parent outer base (.bind x n isPublic o) (.bind x e isPublic o) c :=
  h.wrap (by rw [h.value]; rfl)

theorem set (h : Built Layout.expr parent outer base n e c) (x : String) (op : BinaryOp)
    (o : Nat) : Built Layout.stmt parent outer base (.set x op n o) (.set x op e o) c :=
  h.wrap (by rw [h.value]; rfl)

theorem print (h : Built Layout.expr parent outer base n e c) (o : Nat) :
    Built Layout.stmt parent outer base (.print n o) (.print e o) c :=
  h.wrap (by rw [h.value]; rfl)

theorem result (h : Built Layout.expr parent outer base n e c) (o : Nat) :
    Built Layout.stmt parent outer base (.result n o) (.result e o) c :=
  h.wrap (by rw [h.value]; rfl)

theorem eval (h : Built Layout.expr parent outer base n e c) :
    Built Layout.stmt parent outer base n (.eval e) c :=
  h.wrap (by rw [h.value]; rfl)

theorem firstStatement (h : Built Layout.stmt parent outer base n s c) :
    Built Layout.stmts parent outer base [n] [s] c where
  opened := h.opened
  scopes := by rw [h.scopes]; simp [Layout.stmts]
  value := by rw [h.value]; simp [Layout.stmts]

theorem statement (h : Built Layout.stmts parent outer base ns ss c)
    (h' : Built Layout.stmt parent outer c.scopes n s c') :
    Built Layout.stmts parent outer base (ns ++ [n]) (ss ++ [s]) c' where
  opened := h'.opened
  scopes := by rw [h'.scopes, h.scopes, stmts_concat]; simp
  value := by rw [h'.value, h.value, h.scopes, stmts_concat]; simp

/-- The last statement becomes the value of its scope. -/
theorem promoteHead (h : Built Layout.stmts parent outer base ns.reverse ss.reverse c) :
    Built Layout.stmts parent outer base (promoteHead ns).reverse (Tree.promoteHead ss).reverse
      c := by
  have hlength := congrArg List.length h.value
  cases ns with
  | nil =>
    cases ss with
    | nil => exact h
    | cons s ss => simp [stmts_concat] at hlength
  | cons n ns =>
    cases ss with
    | nil => simp [Layout.stmts] at hlength
    | cons s ss =>
      obtain ⟨hopened, hscopes, hvalue⟩ := h
      simp only [List.reverse_cons, stmts_concat, List.append_singleton_inj] at hscopes hvalue
      refine ⟨hopened, ?_, ?_⟩
      · simp only [Tree.promoteHead, List.reverse_cons, stmts_concat, stmt_promote, hscopes]
      · simp only [Tree.promoteHead, promoteHead_cons, List.reverse_cons, stmts_concat,
          stmt_promote, hvalue.1, hvalue.2]

end Built

namespace Enclosed

theorem of_kept {capture : Capture} {d : Cursor} (h : Enclosed capture c id b c') (hd : Kept d c) :
    Enclosed capture d id b c' where
  opened := h.opened.trans hd.opened
  scopes := by rw [h.scopes, hd.opened, hd.scopes]
  id_eq := by rw [h.id_eq, hd.scopes]

theorem function (h : Enclosed .copied c id b c') (hc : At parent outer base c)
    (params : List String) (o : Nat) :
    Built Layout.expr parent outer base (.function params id o) (.function params b o) c' where
  opened := h.opened.trans hc.opened
  scopes := by rw [h.scopes, hc.opened, hc.scopes]; rfl
  value := by rw [h.id_eq, hc.scopes]; rfl

theorem scope (h : Enclosed .shared c id b c') (hc : At parent outer base c) (o : Nat) :
    Built Layout.expr parent outer base (.scope id o) (.scope b o) c' where
  opened := h.opened.trans hc.opened
  scopes := by rw [h.scopes, hc.opened, hc.scopes]; rfl
  value := by rw [h.id_eq, hc.scopes]; rfl

theorem block (h : Enclosed .shared c id b c') (hc : At parent outer base c) (o : Nat) :
    Built Layout.stmt parent outer base (.scope id o) (.block b o) c' where
  opened := h.opened.trans hc.opened
  scopes := by rw [h.scopes, hc.opened, hc.scopes]; rfl
  value := by rw [h.id_eq, hc.scopes]; rfl

theorem branch (h : Built Layout.expr parent outer base n e c) (h' : Enclosed .shared c id b c')
    (o : Nat) : Built Layout.stmt parent outer base (.branch n id o) (.branch e b o) c' where
  opened := h'.opened.trans h.opened
  scopes := by rw [h'.scopes, h.scopes, h.opened]; simp [Layout.stmt]
  value := by rw [h'.id_eq, h.value, h.scopes]; simp [Layout.stmt]

end Enclosed

/-- A scope that was opened at `c` and is closed again with its statements. -/
theorem Built.enclosed {capture : Capture} {o : Nat}
    (h : Built Layout.stmts c.scopes.length c.opened (c.openScope capture o).scopes ns ss c') :
    Enclosed capture c c.scopes.length (.mk ss o) (c'.closeScope ns) where
  opened := congrArg List.tail h.opened
  scopes := by
    have hscopes := h.scopes
    have hvalue := h.value
    simp only [Cursor.openScope, List.length_append, List.length_singleton,
      List.append_assoc, List.singleton_append] at hscopes hvalue
    simp only [Cursor.closeScope, h.opened, hscopes, hvalue, Layout.block]
    rw [List.modify_eq_take_cons_drop (by simp)]
    simp
  id_eq := rfl

end

end ScopeScript.Reader
