import ScopeScript.Proofs.Grammar.Derivation

/-!
# Blocks with statements

A tree is filled when every block in it has a statement. What the grammar derives is filled: between
two braces there is a statement, or else the empty one stands for it.
-/

namespace ScopeScript

namespace Tree

mutual

/-- No block in the expression is without statements. -/
def Expr.Filled : Expr → Prop
  | .unary _ e _ => e.Filled
  | .binary _ l r _ => l.Filled ∧ r.Filled
  | .call f args _ => f.Filled ∧ Expr.AllFilled args
  | .function _ body _ | .scope body _ => body.Filled
  | _ => True

def Expr.AllFilled : List Expr → Prop
  | [] => True
  | e :: es => e.Filled ∧ Expr.AllFilled es

def Stmt.Filled : Stmt → Prop
  | .bind _ e _ _ | .set _ _ e _ | .print e _ | .result e _ | .eval e => e.Filled
  | .branch e body _ => e.Filled ∧ body.Filled
  | .block body _ => body.Filled
  | .empty _ => True

def Stmt.AllFilled : List Stmt → Prop
  | [] => True
  | s :: ss => s.Filled ∧ Stmt.AllFilled ss

def Block.Filled : Block → Prop
  | .mk ss _ => ss ≠ [] ∧ Stmt.AllFilled ss

end

theorem Stmt.Filled.promote {s : Stmt} (h : s.Filled) : s.promote.Filled := by
  cases s <;> exact h

end Tree

namespace Grammar

open ScopeScript.Tree (Expr Stmt Block)

theorem promoteLast_ne_nil {ss : List Stmt} (h : ss ≠ []) : promoteLast ss ≠ [] := by
  fun_cases promoteLast ss
  · exact absurd rfl h
  · exact List.cons_ne_nil _ _
  · exact List.cons_ne_nil _ _

theorem filled_promoteLast {ss : List Stmt} (h : Stmt.AllFilled ss) :
    Stmt.AllFilled (promoteLast ss) := by
  fun_induction promoteLast ss with
  | case1 => trivial
  | case2 s => exact ⟨h.1.promote, trivial⟩
  | case3 s ss _ ih => exact ⟨h.1, ih h.2⟩

/-- What the phrases of a class mean is filled; operands and calls keep an expression filled. -/
def Symbol.Filled : (s : Symbol) → s.Meaning → Prop
  | .scope _ => Block.Filled
  | .statements => fun p => Stmt.AllFilled p.1
  | .statement => Stmt.Filled
  | .binding | .definition => fun f => ∀ isPublic o, (f isPublic o).Filled
  | .expr _ _ | .primary _ => Expr.Filled
  | .operands _ | .calls => fun f => ∀ e, e.Filled → (f e).Filled
  | .arguments | .moreArguments => Expr.AllFilled
  | .assignment | .parameters | .moreParameters => fun _ => True

theorem Derivation.filled {s : Symbol} (d : Derivation s) : s.Filled d.tree := by
  induction d with
  | unit o c => exact ⟨List.cons_ne_nil _ _, trivial, trivial⟩
  | scope o first more c ih ihs =>
    have hfilled : Stmt.AllFilled (first.tree :: more.tree.1) := ⟨ih, ihs⟩
    rw [tree]
    split
    · exact ⟨promoteLast_ne_nil (List.cons_ne_nil _ _), filled_promoteLast hfilled⟩
    · exact ⟨List.cons_ne_nil _ _, hfilled⟩
  | next o s more ih ihs => exact ⟨ih, ihs⟩
  | block body ih | braces body ih | eval value ih | parens o value c ih => exact ih
  | bind o d ih | define o d ih | publicBind o o' d ih | publicDefine o o' d ih => exact ih _ _
  | branch o condition body ih ih' => exact ⟨ih, ih'⟩
  | leaveWith o value ih | print o value ih | set s o sign value _ ih => exact ih
  | binding s n sign value _ ih =>
    intro isPublic o
    rw [tree]
    split
    · exact ih
    · exact ⟨trivial, ih⟩
  | definition s o params body _ ih => exact fun _ _ => ih
  | prefixed k op h o e ih => exact ih
  | joined h first rest ih ihs | called first rest ih ihs => exact ihs _ ih
  | noOperand | noCall => exact fun _ h => h
  | operand k op h o right rest ih ihs => exact fun _ hleft => ihs _ ⟨hleft, ih⟩
  | function o params body _ ih => exact ih
  | call o args rest ih ihs => exact fun _ hcallee => ihs _ ⟨hcallee, ih⟩
  | arguments first more ih ihs | argument o first more ih ihs => exact ⟨ih, ihs⟩
  | _ => trivial

end Grammar

end ScopeScript
