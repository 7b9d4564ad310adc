import Mathlib.Data.List.Forall2
import ScopeScript.Execution

/-!
# Matching up to offsets

An alignment says which offsets of one text stand for which of another. Two tokens match along it
when they are of one kind and their offsets are aligned, and so on for trees, programs, machines
and whole executions: all but the offsets is the same.

`Agree`: two computations, started in related states, end in related states with related results.
A stage that only carries offsets along agrees with itself, whatever the alignment.
-/

namespace ScopeScript

/-- Which offsets stand for which: `place` relates all of them, `print` those of the keyword
`print` and of the lines that it prints. -/
structure Alignment where
  place : Nat → Nat → Prop
  print : Nat → Nat → Prop

inductive Token.Matches (A : Alignment) : Token → Token → Prop where
  | mk {k : Token.Kind} {o o' : Nat} : A.place o o' → (k = .keyword .print → A.print o o') →
      Token.Matches A ⟨k, o⟩ ⟨k, o'⟩

abbrev Token.AllMatch (A : Alignment) : List Token → List Token → Prop :=
  List.Forall₂ (Token.Matches A)

namespace Tree

mutual

inductive Expr.Matches (A : Alignment) : Expr → Expr → Prop where
  | number (x : Float) {o o' : Nat} : A.place o o' → Expr.Matches A (.number x o) (.number x o')
  | text (s : String) {o o' : Nat} : A.place o o' → Expr.Matches A (.text s o) (.text s o')
  | bool (b : Bool) {o o' : Nat} : A.place o o' → Expr.Matches A (.bool b o) (.bool b o')
  | nil {o o' : Nat} : A.place o o' → Expr.Matches A (.nil o) (.nil o')
  | var (s : String) {o o' : Nat} : A.place o o' → Expr.Matches A (.var s o) (.var s o')
  | unary (op : UnaryOp) {e e' : Expr} {o o' : Nat} : Expr.Matches A e e' → A.place o o' →
      Expr.Matches A (.unary op e o) (.unary op e' o')
  | binary (op : BinaryOp) {l l' r r' : Expr} {o o' : Nat} : Expr.Matches A l l' →
      Expr.Matches A r r' → A.place o o' → Expr.Matches A (.binary op l r o) (.binary op l' r' o')
  | call {f f' : Expr} {args args' : List Expr} {o o' : Nat} : Expr.Matches A f f' →
      List.Forall₂ (Expr.Matches A) args args' → A.place o o' →
      Expr.Matches A (.call f args o) (.call f' args' o')
  | function (params : List String) {b b' : Block} {o o' : Nat} : Block.Matches A b b' →
      A.place o o' → Expr.Matches A (.function params b o) (.function params b' o')
  | scope {b b' : Block} {o o' : Nat} : Block.Matches A b b' → A.place o o' →
      Expr.Matches A (.scope b o) (.scope b' o')

inductive Stmt.Matches (A : Alignment) : Stmt → Stmt → Prop where
  | bind (s : String) (isPublic : Bool) {e e' : Expr} {o o' : Nat} : Expr.Matches A e e' →
      A.place o o' → Stmt.Matches A (.bind s e isPublic o) (.bind s e' isPublic o')
  | set (s : String) (op : BinaryOp) {e e' : Expr} {o o' : Nat} : Expr.Matches A e e' →
      A.place o o' → Stmt.Matches A (.set s op e o) (.set s op e' o')
  | branch {e e' : Expr} {b b' : Block} {o o' : Nat} : Expr.Matches A e e' →
      Block.Matches A b b' → A.place o o' → Stmt.Matches A (.branch e b o) (.branch e' b' o')
  | print {e e' : Expr} {o o' : Nat} : Expr.Matches A e e' → A.place o o' → A.print o o' →
      Stmt.Matches A (.print e o) (.print e' o')
  | result {e e' : Expr} {o o' : Nat} : Expr.Matches A e e' → A.place o o' →
      Stmt.Matches A (.result e o) (.result e' o')
  | block {b b' : Block} {o o' : Nat} : Block.Matches A b b' → A.place o o' →
      Stmt.Matches A (.block b o) (.block b' o')
  | eval {e e' : Expr} : Expr.Matches A e e' → Stmt.Matches A (.eval e) (.eval e')
  | empty {o o' : Nat} : A.place o o' → Stmt.Matches A (.empty o) (.empty o')

inductive Block.Matches (A : Alignment) : Block → Block → Prop where
  | mk {ss ss' : List Stmt} {o o' : Nat} : List.Forall₂ (Stmt.Matches A) ss ss' → A.place o o' →
      Block.Matches A (.mk ss o) (.mk ss' o')

end

end Tree

inductive Node.Matches (A : Alignment) : Node → Node → Prop where
  | number (x : Float) {o o' : Nat} : A.place o o' → Matches A (.number x o) (.number x o')
  | text (s : String) {o o' : Nat} : A.place o o' → Matches A (.text s o) (.text s o')
  | bool (b : Bool) {o o' : Nat} : A.place o o' → Matches A (.bool b o) (.bool b o')
  | nil {o o' : Nat} : A.place o o' → Matches A (.nil o) (.nil o')
  | var (s : String) {o o' : Nat} : A.place o o' → Matches A (.var s o) (.var s o')
  | unary (op : UnaryOp) {n n' : Node} {o o' : Nat} : Matches A n n' → A.place o o' →
      Matches A (.unary op n o) (.unary op n' o')
  | binary (op : BinaryOp) {l l' r r' : Node} {o o' : Nat} : Matches A l l' → Matches A r r' →
      A.place o o' → Matches A (.binary op l r o) (.binary op l' r' o')
  | call {f f' : Node} {args args' : List Node} {o o' : Nat} : Matches A f f' →
      List.Forall₂ (Node.Matches A) args args' → A.place o o' →
      Matches A (.call f args o) (.call f' args' o')
  | function (params : List String) (body : ScopeId) {o o' : Nat} : A.place o o' →
      Matches A (.function params body o) (.function params body o')
  | scope (id : ScopeId) {o o' : Nat} : A.place o o' → Matches A (.scope id o) (.scope id o')
  | bind (s : String) (isPublic : Bool) {n n' : Node} {o o' : Nat} : Matches A n n' →
      A.place o o' → Matches A (.bind s n isPublic o) (.bind s n' isPublic o')
  | set (s : String) (op : BinaryOp) {n n' : Node} {o o' : Nat} : Matches A n n' →
      A.place o o' → Matches A (.set s op n o) (.set s op n' o')
  | branch (body : ScopeId) {n n' : Node} {o o' : Nat} : Matches A n n' → A.place o o' →
      Matches A (.branch n body o) (.branch n' body o')
  | print {n n' : Node} {o o' : Nat} : Matches A n n' → A.place o o' → A.print o o' →
      Matches A (.print n o) (.print n' o')
  | result {n n' : Node} {o o' : Nat} : Matches A n n' → A.place o o' →
      Matches A (.result n o) (.result n' o')
  | empty {o o' : Nat} : A.place o o' → Matches A (.empty o) (.empty o')

inductive Scope.Matches (A : Alignment) : Scope → Scope → Prop where
  | mk (id : ScopeId) (parent : Option ScopeId) (capture : Capture) {ns ns' : List Node}
      {o o' : Nat} : List.Forall₂ (Node.Matches A) ns ns' → A.place o o' →
      Scope.Matches A ⟨id, parent, capture, ns, o⟩ ⟨id, parent, capture, ns', o'⟩

structure Program.Matches (A : Alignment) (p p' : Program) : Prop where
  scopes : List.Forall₂ (Scope.Matches A) p.scopes.toList p'.scopes.toList
  root : p'.root = p.root

/-- The limits on the call depth may differ. -/
structure Setup.Matches (A : Alignment) (s s' : Setup) : Prop where
  program : Program.Matches A s.program s'.program
  natives : s'.natives = s.natives

theorem Node.Matches.offset {A : Alignment} {n n' : Node} (h : Node.Matches A n n') :
    A.place n.offset n'.offset := by
  cases h <;> assumption

theorem rel_getElem? {α : Type} {R : α → α → Prop} {as as' : List α} (h : List.Forall₂ R as as')
    (i : Nat) : Option.Rel R as[i]? as'[i]? := by
  induction h generalizing i with
  | nil => exact .none
  | cons ha _ ih =>
    cases i with
    | zero => exact .some ha
    | succ i => exact ih i

theorem Program.Matches.scope? {A : Alignment} {p p' : Program} (h : Program.Matches A p p')
    (id : ScopeId) : Option.Rel (Scope.Matches A) (p.scope? id) (p'.scope? id) := by
  unfold Program.scope?
  rw [← Array.getElem?_toList, ← Array.getElem?_toList]
  exact rel_getElem? h.scopes id

/-! ## Matching with itself -/

/-- Every offset stands at least for itself. -/
structure Alignment.Reflexive (A : Alignment) : Prop where
  place : ∀ o, A.place o o
  print : ∀ o, A.print o o

mutual

theorem Node.matches_self {A : Alignment} (hA : A.Reflexive) : ∀ n : Node, Node.Matches A n n
  | .number x _ => .number x (hA.place _)
  | .text s _ => .text s (hA.place _)
  | .bool b _ => .bool b (hA.place _)
  | .nil _ => .nil (hA.place _)
  | .var s _ => .var s (hA.place _)
  | .unary op n _ => .unary op (n.matches_self hA) (hA.place _)
  | .binary op l r _ => .binary op (l.matches_self hA) (r.matches_self hA) (hA.place _)
  | .call f args _ => .call (f.matches_self hA) (Node.allMatch_self hA args) (hA.place _)
  | .function params body _ => .function params body (hA.place _)
  | .scope id _ => .scope id (hA.place _)
  | .bind s n isPublic _ => .bind s isPublic (n.matches_self hA) (hA.place _)
  | .set s op n _ => .set s op (n.matches_self hA) (hA.place _)
  | .branch n body _ => .branch body (n.matches_self hA) (hA.place _)
  | .print n _ => .print (n.matches_self hA) (hA.place _) (hA.print _)
  | .result n _ => .result (n.matches_self hA) (hA.place _)
  | .empty _ => .empty (hA.place _)

theorem Node.allMatch_self {A : Alignment} (hA : A.Reflexive) :
    ∀ ns : List Node, List.Forall₂ (Node.Matches A) ns ns
  | [] => .nil
  | n :: ns => .cons (n.matches_self hA) (Node.allMatch_self hA ns)

end

theorem Program.matches_self {A : Alignment} (hA : A.Reflexive) (p : Program) :
    Program.Matches A p p := by
  refine ⟨List.forall₂_same.2 fun sc _ => ?_, rfl⟩
  exact .mk sc.id sc.parent sc.capture (Node.allMatch_self hA sc.statements) (hA.place _)

def Alignment.diagonal : Alignment := ⟨Eq, fun _ _ => True⟩

theorem Alignment.diagonal_reflexive : Alignment.diagonal.Reflexive :=
  ⟨fun _ => rfl, fun _ => trivial⟩

/-! ## Machines and executions -/

inductive Line.Matches (A : Alignment) : Line → Line → Prop where
  | mk (text : String) {o o' : Nat} : A.place o o' → A.print o o' →
      Line.Matches A ⟨text, o⟩ ⟨text, o'⟩

inductive Halt.Matches (A : Alignment) : Halt → Halt → Prop where
  | fault (cause : Cause) {o o' : Nat} : A.place o o' → Matches A (.fault cause o) (.fault cause o')
  | outOfFuel {o o' : Nat} : A.place o o' → Matches A (.outOfFuel o) (.outOfFuel o')

/-- A fault of the lexer is about characters, not about tokens; its offset is aligned as it is. -/
inductive Fault.Matches (A : Alignment) : Fault → Fault → Prop where
  | lex (cause : LexCause) {o o' : Nat} : A.place o o' →
      Matches A (.lex ⟨cause, o⟩) (.lex ⟨cause, o'⟩)
  | parse (e : Tree.Expected) (k : Token.Kind) {o o' : Nat} : A.place o o' →
      Matches A (.parse ⟨e, k, o⟩) (.parse ⟨e, k, o'⟩)
  | run {h h' : Halt} : Halt.Matches A h h' → Matches A (.run h) (.run h')

structure Machine.Matches (A : Alignment) (m m' : Machine) : Prop where
  memory : m'.memory = m.memory
  globals : m'.globals = m.globals
  transcript : List.Forall₂ (Line.Matches A) m.transcript.toList m'.transcript.toList
  location : A.place m.location m'.location
  depth : m'.depth = m.depth
  calls : m'.calls = m.calls
  functions : m'.functions = m.functions

structure Execution.Matches (A : Alignment) (e e' : Execution) : Prop where
  output : List.Forall₂ (Line.Matches A) e.output.toList e'.output.toList
  globals : e'.globals = e.globals
  fault : Option.Rel (Fault.Matches A) e.fault e'.fault
  last : A.place e.last e'.last

section Agreement

variable {ε σ : Type} {E : ε → ε → Prop} {S : σ → σ → Prop} {α β : Type}
  {R : α → α → Prop} {Q : β → β → Prop}

/-- Both results are values, or both are errors, and they and the states are related. -/
inductive ResultRel (E : ε → ε → Prop) (S : σ → σ → Prop) (R : α → α → Prop) :
    EStateM.Result ε σ α → EStateM.Result ε σ α → Prop where
  | ok {a a' : α} {s s' : σ} : R a a' → S s s' → ResultRel E S R (.ok a s) (.ok a' s')
  | error {e e' : ε} {s s' : σ} : E e e' → S s s' → ResultRel E S R (.error e s) (.error e' s')

/-- From related states the computations come to related results. -/
def Agree (E : ε → ε → Prop) (S : σ → σ → Prop) (R : α → α → Prop)
    (x x' : EStateM ε σ α) : Prop :=
  ∀ ⦃s s' : σ⦄, S s s' → ResultRel E S R (x s) (x' s')

theorem ResultRel.bind {x x' : EStateM ε σ α} {f f' : α → EStateM ε σ β} {s s' : σ}
    (h : ResultRel E S R (x s) (x' s')) (hf : ∀ {a a'}, R a a' → Agree E S Q (f a) (f' a')) :
    ResultRel E S Q ((x >>= f) s) ((x' >>= f') s') := by
  change ResultRel E S Q (EStateM.bind x f s) (EStateM.bind x' f' s')
  unfold EStateM.bind
  generalize x s = r at h ⊢
  generalize x' s' = r' at h ⊢
  cases h with
  | ok ha hs => exact hf ha hs
  | error he hs => exact .error he hs

namespace Agree

theorem pure {a a' : α} (h : R a a') : Agree E S R (pure a) (pure a') :=
  fun _ _ hs => .ok h hs

theorem throw {e e' : ε} (h : E e e') : Agree E S R (throw e) (throw e') :=
  fun _ _ hs => .error h hs

theorem bind {x x' : EStateM ε σ α} {f f' : α → EStateM ε σ β} (h : Agree E S R x x')
    (hf : ∀ {a a'}, R a a' → Agree E S Q (f a) (f' a')) : Agree E S Q (x >>= f) (x' >>= f') :=
  fun _ _ hs => (h hs).bind hf

theorem bind_eq {x x' : EStateM ε σ α} {f f' : α → EStateM ε σ β} (h : Agree E S Eq x x')
    (hf : ∀ a, Agree E S Q (f a) (f' a)) : Agree E S Q (x >>= f) (x' >>= f') := by
  refine h.bind fun {a _} ha => ?_
  cases ha
  exact hf a

theorem get_bind {f f' : σ → EStateM ε σ β}
    (h : ∀ {s s'}, S s s' → ResultRel E S Q (f s s) (f' s' s')) :
    Agree E S Q (get >>= f) (get >>= f') :=
  fun _ _ hs => h hs

theorem set_bind {s s' : σ} {f f' : PUnit → EStateM ε σ β} (hs : S s s')
    (hf : Agree E S Q (f ⟨⟩) (f' ⟨⟩)) : Agree E S Q (set s >>= f) (set s' >>= f') :=
  fun _ _ _ => hf hs

end Agree

end Agreement

end ScopeScript
