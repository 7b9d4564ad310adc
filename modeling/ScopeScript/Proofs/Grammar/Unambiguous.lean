import ScopeScript.Proofs.Grammar.Boundary

/-!
# The grammar is unambiguous

`Derivation.unique`: two derivations of one class whose texts begin the same token list, each
followed by something that cannot belong to it, are the same derivation. In front of a statement
`form` tells which production it is; in every other class the next token does.
-/

namespace ScopeScript.Grammar

open ScopeScript.Tree (Level)
open Tree.Parse (startsWith assignment?)
open Token (Kind)

inductive Form where
  | block | bind | define | publicBind | publicDefine | branch | leave | leaveWith | print | set
  | eval
  deriving DecidableEq

/-- The production that the tokens ahead belong to. -/
def form : List Token → Form
  | ⟨.sign .openBrace, _⟩ :: _ => .block
  | ⟨.keyword .let, _⟩ :: _ => .bind
  | ⟨.keyword .fn, _⟩ :: ⟨.name _, _⟩ :: _ => .define
  | ⟨.keyword .pub, _⟩ :: ⟨.keyword .let, _⟩ :: _ => .publicBind
  | ⟨.keyword .pub, _⟩ :: _ => .publicDefine
  | ⟨.keyword .if, _⟩ :: _ => .branch
  | ⟨.keyword .return, _⟩ :: r =>
    if startsWith .semicolon r || startsWith .closeBrace r then .leave else .leaveWith
  | ⟨.keyword .print, _⟩ :: _ => .print
  | ⟨.name _, _⟩ :: r => if (assignment? r).isSome then .set else .eval
  | _ => .eval

namespace Derivation

def form : Derivation .statement → Form
  | .block _ => .block
  | .bind _ _ => .bind
  | .define _ _ => .define
  | .publicBind _ _ _ => .publicBind
  | .publicDefine _ _ _ => .publicDefine
  | .branch _ _ _ => .branch
  | .leave _ => .leave
  | .leaveWith _ _ => .leaveWith
  | .print _ _ => .print
  | .set _ _ _ _ => .set
  | .eval _ => .eval

theorem assignment?_tokens (d : Derivation .assignment) (r : List Token) :
    assignment? (d.tokens ++ r) = some (d.tree, r) := by
  cases d with
  | plain o => rfl
  | compound k op h o o' =>
    unfold compounds? at h
    split at h <;> cases h <;> rfl

theorem form_eval (value : Derivation (.expr .or false)) {r : List Token} (hr : AtEnd r) :
    Grammar.form (value.tokens ++ r) = .eval := by
  obtain ⟨t, ts, e, ho, hb, hf⟩ := value.opening r
  have hu : ∀ x o us, value.tokens = ⟨.name x, o⟩ :: us → assignment? (us ++ r) = none :=
    fun x o us h => value.unassigned x o us r h hr.unassigned
  obtain ⟨u, us, hv, -⟩ := value.starts
  rw [hv, List.cons_append, List.cons.injEq] at e
  obtain ⟨rfl, rfl⟩ := e
  rw [hv, List.cons_append]
  unfold Grammar.form
  split <;> simp_all [opens, leads?, startsWith]

/-- The tokens of a statement tell its production. -/
theorem form_tokens (d : Derivation .statement) {r : List Token} (hr : AtEnd r) :
    Grammar.form (d.tokens ++ r) = d.form := by
  cases d with
  | block body =>
    obtain ⟨o, ts, e⟩ := startsWith_iff.1 body.starts
    rw [tokens, e]
    rfl
  | define o d => cases d; rfl
  | leave o =>
    rcases hr with h | h <;> simp [tokens, Grammar.form, form, h]
  | leaveWith o value =>
    have h := (value.opening r).not_startsWith (g := .semicolon) rfl
    have h' := (value.opening r).not_startsWith (g := .closeBrace) rfl
    simp [tokens, Grammar.form, form, h, h']
  | set s o sign value =>
    simp [tokens, Grammar.form, form, assignment?_tokens]
  | eval value => exact form_eval value hr
  | _ => rfl

theorem form_eq {d d' : Derivation .statement} {r r' : List Token} (hr : AtEnd r) (hr' : AtEnd r')
    (h : d.tokens ++ r = d'.tokens ++ r') : d.form = d'.form := by
  rw [← form_tokens d hr, h, form_tokens d' hr']

/-! ## All phrases -/

/-- No other derivation of the class has a text that begins the same way. -/
def Unique {s : Symbol} (d : Derivation s) : Prop :=
  ∀ (d' : Derivation s) (r r' : List Token), s.Ends r → s.Ends r' →
    d.tokens ++ r = d'.tokens ++ r' → d = d' ∧ r = r'

/-- The first token of an expression tells whether it is braced. -/
theorem Unique.expr {ℓ : Level} {b b' : Bool} {d : Derivation (.expr ℓ b)} (hd : d.Unique)
    (d' : Derivation (.expr ℓ b')) {r r' : List Token} (hr : Closed ℓ r) (hr' : Closed ℓ r')
    (h : d.tokens ++ r = d'.tokens ++ r') : b = b' ∧ d ≍ d' ∧ r = r' := by
  obtain ⟨t, ts, e, -, hb, -⟩ := d.opening r
  obtain ⟨t', ts', e', -, hb', -⟩ := d'.opening r'
  obtain ⟨rfl, -⟩ : t = t' ∧ ts = ts' := by simpa [e, e'] using h
  obtain rfl : b = b' := Bool.eq_iff_iff.2 (hb.trans hb'.symm)
  obtain ⟨rfl, rfl⟩ := hd d' r r' hr hr' h
  exact ⟨rfl, HEq.rfl, rfl⟩

theorem statement_ne_closeBrace (d : Derivation .statement) (o : Nat) (r us : List Token) :
    ⟨.sign .closeBrace, o⟩ :: us ≠ d.tokens ++ r := by
  obtain ⟨t, ts, e, hc, -⟩ := d.starts
  rw [e]
  rintro h
  exact hc (by rw [← (List.cons.inj h).1])

theorem unique_unit {v : Bool} (o c : Nat) : Unique (s := .scope v) (unit o c) := by
  intro d' r r' _ _ h
  cases d' with
  | unit o' c' => simp_all [tokens]
  | scope o' first' more' c' =>
    simp only [tokens, List.cons_append, List.append_assoc, List.cons.injEq] at h
    exact absurd h.2 (first'.statement_ne_closeBrace _ _ _)

theorem unique_scope {v : Bool} (o c : Nat) {first : Derivation .statement}
    {more : Derivation .statements} (ihf : first.Unique) (ihm : more.Unique) :
    Unique (s := .scope v) (scope o first more c) := by
  intro d' r r' _ _ h
  cases d' with
  | unit o' c' =>
    simp only [tokens, List.cons_append, List.append_assoc, List.cons.injEq] at h
    exact absurd h.2.symm (first.statement_ne_closeBrace _ _ _)
  | scope o' first' more' c' =>
    simp only [tokens, List.cons_append, List.append_assoc, List.cons.injEq] at h
    obtain ⟨ho, h⟩ := h
    obtain ⟨rfl, h₁⟩ := ihf first' _ _ (atEnd_statements more rfl) (atEnd_statements more' rfl) h
    obtain ⟨rfl, h₂⟩ := ihm more' _ _ (by rfl) (by rfl) h₁
    simp_all

theorem unique_done : done.Unique := by
  intro d' r r' hr _ h
  obtain ⟨o, ts, rfl⟩ := startsWith_iff.1 hr
  cases d' with
  | done => exact ⟨rfl, h⟩
  | terminated o' => simp [tokens] at h
  | next o' s' more' => simp [tokens] at h

theorem unique_terminated (o : Nat) : (terminated o).Unique := by
  intro d' r r' hr hr' h
  obtain ⟨n, ts, rfl⟩ := startsWith_iff.1 hr
  obtain ⟨n', ts', rfl⟩ := startsWith_iff.1 hr'
  cases d' with
  | done => simp [tokens] at h
  | terminated o' => simp_all [tokens]
  | next o' s' more' =>
    simp only [tokens, List.cons_append, List.append_assoc, List.cons.injEq] at h
    exact absurd h.2 (s'.statement_ne_closeBrace _ _ _)

theorem unique_next (o : Nat) {s : Derivation .statement} {more : Derivation .statements}
    (ihs : s.Unique) (ihm : more.Unique) : (next o s more).Unique := by
  intro d' r r' hr hr' h
  obtain ⟨n', ts', e⟩ := startsWith_iff.1 hr'
  cases d' with
  | done => simp [tokens, e] at h
  | terminated o' =>
    simp only [tokens, e, List.cons_append, List.append_assoc, List.cons.injEq] at h
    exact absurd h.2.symm (s.statement_ne_closeBrace _ _ _)
  | next o' s' more' =>
    simp only [tokens, List.cons_append, List.append_assoc, List.cons.injEq] at h
    obtain ⟨rfl, h₁⟩ := ihs s' _ _ (atEnd_statements more hr) (atEnd_statements more' hr') h.2
    obtain ⟨rfl, rfl⟩ := ihm more' _ _ hr hr' h₁
    simp_all

/-! ### Statements -/

theorem unique_block {body : Derivation (.scope false)} (ih : body.Unique) :
    (block body).Unique := by
  intro d' r r' hr hr' h
  cases d' with
  | block body' =>
    obtain ⟨rfl, rfl⟩ := ih body' r r' trivial trivial h
    exact ⟨rfl, rfl⟩
  | _ => cases form_eq hr hr' h

theorem unique_bind (o : Nat) {d : Derivation .binding} (ih : d.Unique) : (bind o d).Unique := by
  intro d' r r' hr hr' h
  cases d' with
  | bind o' e =>
    simp only [tokens, List.cons_append, List.cons.injEq] at h
    obtain ⟨rfl, rfl⟩ := ih e r r' hr hr' h.2
    simp_all
  | _ => cases form_eq hr hr' h

theorem unique_define (o : Nat) {d : Derivation .definition} (ih : d.Unique) :
    (define o d).Unique := by
  intro d' r r' hr hr' h
  cases d' with
  | define o' e =>
    simp only [tokens, List.cons_append, List.cons.injEq] at h
    obtain ⟨rfl, rfl⟩ := ih e r r' trivial trivial h.2
    simp_all
  | _ => cases form_eq hr hr' h

theorem unique_publicBind (o n : Nat) {d : Derivation .binding} (ih : d.Unique) :
    (publicBind o n d).Unique := by
  intro d' r r' hr hr' h
  cases d' with
  | publicBind o' n' e =>
    simp only [tokens, List.cons_append, List.cons.injEq] at h
    obtain ⟨rfl, rfl⟩ := ih e r r' hr hr' h.2.2
    simp_all
  | _ => cases form_eq hr hr' h

theorem unique_publicDefine (o n : Nat) {d : Derivation .definition} (ih : d.Unique) :
    (publicDefine o n d).Unique := by
  intro d' r r' hr hr' h
  cases d' with
  | publicDefine o' n' e =>
    simp only [tokens, List.cons_append, List.cons.injEq] at h
    obtain ⟨rfl, rfl⟩ := ih e r r' trivial trivial h.2.2
    simp_all
  | _ => cases form_eq hr hr' h

theorem unique_branch (o : Nat) {b : Bool} {condition : Derivation (.expr .or b)}
    {body : Derivation (.scope false)} (ihc : condition.Unique) (ihb : body.Unique) :
    (branch o condition body).Unique := by
  intro d' r r' hr hr' h
  cases d' with
  | branch o' condition' body' =>
    simp only [tokens, List.cons_append, List.append_assoc, List.cons.injEq] at h
    obtain ⟨rfl, hc, h₁⟩ :=
      ihc.expr condition' (body.closed_scope _ _) (body'.closed_scope _ _) h.2
    obtain ⟨rfl, rfl⟩ := ihb body' _ _ trivial trivial h₁
    simp_all
  | _ => cases form_eq hr hr' h

theorem unique_leave (o : Nat) : (leave o).Unique := by
  intro d' r r' hr hr' h
  cases d' with
  | leave o' => simp_all [tokens]
  | _ => cases form_eq hr hr' h

theorem unique_leaveWith (o : Nat) {b : Bool} {value : Derivation (.expr .or b)}
    (ih : value.Unique) : (leaveWith o value).Unique := by
  intro d' r r' hr hr' h
  cases d' with
  | leaveWith o' value' =>
    simp only [tokens, List.cons_append, List.cons.injEq] at h
    obtain ⟨rfl, hv, rfl⟩ := ih.expr value' (hr.closed _) (hr'.closed _) h.2
    simp_all
  | _ => cases form_eq hr hr' h

theorem unique_print (o : Nat) {b : Bool} {value : Derivation (.expr .or b)}
    (ih : value.Unique) : (print o value).Unique := by
  intro d' r r' hr hr' h
  cases d' with
  | print o' value' =>
    simp only [tokens, List.cons_append, List.cons.injEq] at h
    obtain ⟨rfl, hv, rfl⟩ := ih.expr value' (hr.closed _) (hr'.closed _) h.2
    simp_all
  | _ => cases form_eq hr hr' h

theorem unique_set (s : String) (o : Nat) {b : Bool} {sign : Derivation .assignment}
    {value : Derivation (.expr .or b)} (ihs : sign.Unique) (ihv : value.Unique) :
    (set s o sign value).Unique := by
  intro d' r r' hr hr' h
  cases d' with
  | set s' o' sign' value' =>
    simp only [tokens, List.cons_append, List.append_assoc, List.cons.injEq] at h
    obtain ⟨rfl, h₁⟩ := ihs sign' _ _ trivial trivial h.2
    obtain ⟨rfl, hv, rfl⟩ := ihv.expr value' (hr.closed _) (hr'.closed _) h₁
    simp_all
  | _ => cases form_eq hr hr' h

theorem unique_eval {value : Derivation (.expr .or false)} (ih : value.Unique) :
    (eval value).Unique := by
  intro d' r r' hr hr' h
  cases d' with
  | eval value' =>
    obtain ⟨rfl, rfl⟩ := ih value' r r' (hr.closed _) (hr'.closed _) h
    exact ⟨rfl, rfl⟩
  | _ => cases form_eq hr hr' h

theorem unique_binding (s : String) (o : Nat) {b : Bool} {sign : Derivation .assignment}
    {value : Derivation (.expr .or b)} (ihs : sign.Unique) (ihv : value.Unique) :
    (binding s o sign value).Unique := by
  intro d' r r' hr hr' h
  cases d' with
  | binding s' o' sign' value' =>
    simp only [tokens, List.cons_append, List.append_assoc, List.cons.injEq] at h
    obtain ⟨rfl, h₁⟩ := ihs sign' _ _ trivial trivial h.2
    obtain ⟨rfl, hv, rfl⟩ := ihv.expr value' (AtEnd.closed hr _) (AtEnd.closed hr' _) h₁
    simp_all

theorem unique_definition (s : String) (o : Nat) {params : Derivation .parameters}
    {body : Derivation (.scope true)} (ihp : params.Unique) (ihb : body.Unique) :
    (definition s o params body).Unique := by
  intro d' r r' _ _ h
  cases d' with
  | definition s' o' params' body' =>
    simp only [tokens, List.cons_append, List.append_assoc, List.cons.injEq] at h
    obtain ⟨rfl, h₁⟩ := ihp params' _ _ trivial trivial h.2
    obtain ⟨rfl, rfl⟩ := ihb body' _ _ trivial trivial h₁
    simp_all

theorem unique_plain (o : Nat) : (plain o).Unique := by
  intro d' r r' _ _ h
  cases d' with
  | plain o' => simp_all [tokens]
  | compound k op hk n n' =>
    simp only [tokens, List.cons_append, List.cons.injEq, Token.mk.injEq] at h
    rw [← h.1.1] at hk
    cases hk

theorem unique_compound {k : Kind} {op : BinaryOp} (hk : compounds? k = some op) (o o' : Nat) :
    (compound k op hk o o').Unique := by
  intro d' r r' _ _ h
  cases d' with
  | plain n =>
    simp only [tokens, List.cons_append, List.cons.injEq, Token.mk.injEq] at h
    rw [h.1.1] at hk
    cases hk
  | compound k' op' hk' n n' =>
    simp only [tokens, List.cons_append, List.nil_append, List.cons.injEq, Token.mk.injEq] at h
    obtain ⟨⟨rfl, rfl⟩, ⟨-, rfl⟩, rfl⟩ := h
    obtain rfl : op = op' := by simpa [hk] using hk'
    exact ⟨rfl, rfl⟩

theorem unique_noParameters (o c : Nat) : (noParameters o c).Unique := by
  intro d' r r' _ _ h
  cases d' <;> simp_all [tokens]

theorem unique_parameters (o : Nat) (s : String) (n : Nat) {more : Derivation .moreParameters}
    (ih : more.Unique) : (parameters o s n more).Unique := by
  intro d' r r' _ _ h
  cases d' with
  | noParameters o' c' => simp [tokens] at h
  | parameters o' s' n' more' =>
    simp only [tokens, List.cons_append, List.cons.injEq] at h
    obtain ⟨rfl, rfl⟩ := ih more' r r' trivial trivial h.2.2
    simp_all

theorem unique_closeParameters (c : Nat) : (closeParameters c).Unique := by
  intro d' r r' _ _ h
  cases d' <;> simp_all [tokens]

theorem unique_parameter (o : Nat) (s : String) (n : Nat) {more : Derivation .moreParameters}
    (ih : more.Unique) : (parameter o s n more).Unique := by
  intro d' r r' _ _ h
  cases d' with
  | closeParameters c' => simp [tokens] at h
  | parameter o' s' n' more' =>
    simp only [tokens, List.cons_append, List.cons.injEq] at h
    obtain ⟨rfl, rfl⟩ := ih more' r r' trivial trivial h.2.2
    simp_all

theorem expr_ne_closeParen {ℓ : Level} {b : Bool} (d : Derivation (.expr ℓ b)) (o : Nat)
    (r us : List Token) : ⟨.sign .closeParen, o⟩ :: us ≠ d.tokens ++ r := by
  intro h
  have hs := (d.opening r).not_startsWith (g := .closeParen) rfl
  rw [← h] at hs
  cases hs

theorem unique_noArguments (c : Nat) : (noArguments c).Unique := by
  intro d' r r' _ _ h
  cases d' with
  | noArguments c' => simp_all [tokens]
  | arguments first' more' =>
    simp only [tokens, List.cons_append, List.append_assoc] at h
    exact absurd h (first'.expr_ne_closeParen _ _ _)

theorem unique_arguments {b : Bool} {first : Derivation (.expr .or b)}
    {more : Derivation .moreArguments} (ihf : first.Unique) (ihm : more.Unique) :
    (arguments first more).Unique := by
  intro d' r r' _ _ h
  cases d' with
  | noArguments c' =>
    simp only [tokens, List.cons_append, List.append_assoc] at h
    exact absurd h.symm (first.expr_ne_closeParen _ _ _)
  | arguments first' more' =>
    simp only [tokens, List.append_assoc] at h
    obtain ⟨rfl, hf, h₁⟩ :=
      ihf.expr first' (more.closed_moreArguments _ _) (more'.closed_moreArguments _ _) h
    obtain ⟨rfl, rfl⟩ := ihm more' r r' trivial trivial h₁
    simp_all

theorem unique_closeArguments (c : Nat) : (closeArguments c).Unique := by
  intro d' r r' _ _ h
  cases d' <;> simp_all [tokens]

theorem unique_argument (o : Nat) {b : Bool} {e : Derivation (.expr .or b)}
    {more : Derivation .moreArguments} (ihe : e.Unique) (ihm : more.Unique) :
    (argument o e more).Unique := by
  intro d' r r' _ _ h
  cases d' with
  | closeArguments c' => simp [tokens] at h
  | argument o' e' more' =>
    simp only [tokens, List.cons_append, List.append_assoc, List.cons.injEq] at h
    obtain ⟨rfl, he, h₁⟩ :=
      ihe.expr e' (more.closed_moreArguments _ _) (more'.closed_moreArguments _ _) h.2
    obtain ⟨rfl, rfl⟩ := ihm more' r r' trivial trivial h₁
    simp_all

/-! ### Expressions -/

theorem unique_prefixed {ℓ : Level} {b : Bool} {k : Kind} {op : UnaryOp}
    (hk : leads? k = some (ℓ, op)) (o : Nat) {e : Derivation (.expr ℓ b)} (ih : e.Unique) :
    (prefixed k op hk o e).Unique := by
  intro d' r r' hr hr' h
  cases d' with
  | prefixed k' op' hk' o' e' =>
    simp only [tokens, List.cons_append, List.cons.injEq, Token.mk.injEq] at h
    obtain ⟨⟨rfl, rfl⟩, h⟩ := h
    obtain rfl : op = op' := by simpa [hk] using hk'
    obtain ⟨rfl, he, rfl⟩ := ih.expr e' hr hr' h
    simp_all
  | joined hℓ first' rest' =>
    obtain ⟨t, ts, e, ho, -⟩ := first'.opening (rest'.tokens ++ r')
    simp only [tokens, List.cons_append, List.append_assoc, e, List.cons.injEq] at h
    have hle := rank_le_of_opens hk (by rw [← h.1] at ho; exact ho)
    have := rank_tighter hℓ
    omega
  | called callee' rest' => exact absurd rfl (ne_call_of_leads hk)

theorem unique_joined {ℓ : Level} {b : Bool} (hℓ : ℓ ≠ .call)
    {first : Derivation (.expr ℓ.tighter b)} {rest : Derivation (.operands ℓ)}
    (ihf : first.Unique) (ihr : rest.Unique) : (joined hℓ first rest).Unique := by
  intro d' r r' hr hr' h
  cases d' with
  | prefixed k' op' hk' o' e' =>
    obtain ⟨t, ts, e, ho, -⟩ := first.opening (rest.tokens ++ r)
    simp only [tokens, List.cons_append, List.append_assoc, e, List.cons.injEq] at h
    have hle := rank_le_of_opens hk' (by rw [h.1] at ho; exact ho)
    have := rank_tighter hℓ
    omega
  | joined hℓ' first' rest' =>
    simp only [tokens, List.append_assoc] at h
    obtain ⟨rfl, h₁⟩ :=
      ihf first' _ _ (closed_operands hℓ rest hr) (closed_operands hℓ rest' hr') h
    obtain ⟨rfl, rfl⟩ := ihr rest' r r' hr hr' h₁
    exact ⟨rfl, rfl⟩
  | called callee' rest' => exact absurd rfl hℓ

theorem unique_called {b : Bool} {callee : Derivation (.primary b)} {rest : Derivation .calls}
    (ihc : callee.Unique) (ihr : rest.Unique) : (called callee rest).Unique := by
  intro d' r r' hr hr' h
  cases d' with
  | prefixed k' op' hk' o' e' => exact absurd rfl (ne_call_of_leads hk')
  | joined hℓ' first' rest' => exact absurd rfl hℓ'
  | called callee' rest' =>
    simp only [tokens, List.append_assoc] at h
    obtain ⟨rfl, h₁⟩ := ihc callee' _ _ trivial trivial h
    obtain ⟨rfl, rfl⟩ := ihr rest' r r' hr hr' h₁
    exact ⟨rfl, rfl⟩

theorem operand_ne {ℓ : Level} {k : Kind} {op : BinaryOp} (hk : joins? k = some (ℓ, op))
    {o : Nat} {r us : List Token} (hr : Closed ℓ r) : ⟨k, o⟩ :: us ≠ r := by
  rintro rfl
  have := hr _ rfl
  simp [continues_of_joins hk] at this

theorem unique_noOperand {ℓ : Level} : Unique (s := .operands ℓ) noOperand := by
  intro d' r r' hr hr' h
  cases d' with
  | noOperand => exact ⟨rfl, h⟩
  | operand k' op' hk' o' right' rest' =>
    exact absurd h.symm (operand_ne hk' hr)

theorem unique_operand {ℓ : Level} {b : Bool} {k : Kind} {op : BinaryOp}
    (hk : joins? k = some (ℓ, op)) (o : Nat) {right : Derivation (.expr ℓ.tighter b)}
    {rest : Derivation (.operands ℓ)} (ihe : right.Unique) (ihr : rest.Unique) :
    (operand k op hk o right rest).Unique := by
  intro d' r r' hr hr' h
  have hℓ := ne_call_of_joins hk
  cases d' with
  | noOperand => exact absurd h (operand_ne hk hr')
  | operand k' op' hk' o' right' rest' =>
    simp only [tokens, List.cons_append, List.append_assoc, List.cons.injEq, Token.mk.injEq] at h
    obtain ⟨⟨rfl, rfl⟩, h⟩ := h
    obtain rfl : op = op' := by simpa [hk] using hk'
    obtain ⟨rfl, he, h₁⟩ :=
      ihe.expr right' (closed_operands hℓ rest hr) (closed_operands hℓ rest' hr') h
    obtain ⟨rfl, rfl⟩ := ihr rest' r r' hr hr' h₁
    simp_all

theorem unique_parens (o : Nat) {b : Bool} {e : Derivation (.expr .or b)} (c : Nat)
    (ih : e.Unique) : (parens o e c).Unique := by
  intro d' r r' _ _ h
  cases d' with
  | parens o' e' c' =>
    simp only [tokens, List.cons_append, List.append_assoc, List.cons.injEq] at h
    obtain ⟨rfl, he, h₁⟩ := ih.expr e' (Closed.cons rfl c _) (Closed.cons rfl c' _) h.2
    simp_all
  | _ => simp [tokens] at h

theorem unique_function (o : Nat) {params : Derivation .parameters}
    {body : Derivation (.scope true)} (ihp : params.Unique) (ihb : body.Unique) :
    (function o params body).Unique := by
  intro d' r r' _ _ h
  cases d' with
  | function o' params' body' =>
    simp only [tokens, List.cons_append, List.append_assoc, List.cons.injEq] at h
    obtain ⟨rfl, h₁⟩ := ihp params' _ _ trivial trivial h.2
    obtain ⟨rfl, rfl⟩ := ihb body' _ _ trivial trivial h₁
    simp_all
  | _ => simp [tokens] at h

theorem unique_braces {body : Derivation (.scope true)} (ih : body.Unique) :
    (braces body).Unique := by
  intro d' r r' _ _ h
  cases d' with
  | braces body' =>
    obtain ⟨rfl, rfl⟩ := ih body' r r' trivial trivial h
    exact ⟨rfl, rfl⟩

theorem call_ne {o : Nat} {r us : List Token} (hr : Closed .call r) :
    ⟨.sign .openParen, o⟩ :: us ≠ r := by
  rintro rfl
  cases hr _ rfl

theorem unique_noCall : noCall.Unique := by
  intro d' r r' hr _ h
  cases d' with
  | noCall => exact ⟨rfl, h⟩
  | call o' args' rest' => exact absurd h.symm (call_ne hr)

theorem unique_call (o : Nat) {args : Derivation .arguments} {rest : Derivation .calls}
    (iha : args.Unique) (ihr : rest.Unique) : (call o args rest).Unique := by
  intro d' r r' hr hr' h
  cases d' with
  | noCall => exact absurd h (call_ne hr')
  | call o' args' rest' =>
    simp only [tokens, List.cons_append, List.append_assoc, List.cons.injEq] at h
    obtain ⟨rfl, h₁⟩ := iha args' _ _ trivial trivial h.2
    obtain ⟨rfl, rfl⟩ := ihr rest' r r' hr hr' h₁
    simp_all

/-- Each production is told from the others of its class by the tokens ahead, and its parts are
compared from left to right: what follows a part decides where it ends. -/
theorem unique {s : Symbol} (d : Derivation s) : d.Unique := by
  induction d with
  | unit o c => exact unique_unit o c
  | scope o first more c ihf ihm => exact unique_scope o c ihf ihm
  | done => exact unique_done
  | terminated o => exact unique_terminated o
  | next o s more ihs ihm => exact unique_next o ihs ihm
  | block body ih => exact unique_block ih
  | bind o d ih => exact unique_bind o ih
  | define o d ih => exact unique_define o ih
  | publicBind o n d ih => exact unique_publicBind o n ih
  | publicDefine o n d ih => exact unique_publicDefine o n ih
  | branch o condition body ihc ihb => exact unique_branch o ihc ihb
  | leave o => exact unique_leave o
  | leaveWith o value ih => exact unique_leaveWith o ih
  | print o value ih => exact unique_print o ih
  | set s o sign value ihs ihv => exact unique_set s o ihs ihv
  | eval value ih => exact unique_eval ih
  | binding s o sign value ihs ihv => exact unique_binding s o ihs ihv
  | definition s o params body ihp ihb => exact unique_definition s o ihp ihb
  | plain o => exact unique_plain o
  | compound k op h o o' => exact unique_compound h o o'
  | noParameters o c => exact unique_noParameters o c
  | parameters o s n more ih => exact unique_parameters o s n ih
  | closeParameters c => exact unique_closeParameters c
  | parameter o s n more ih => exact unique_parameter o s n ih
  | prefixed k op h o e ih => exact unique_prefixed h o ih
  | joined h first rest ihf ihr => exact unique_joined h ihf ihr
  | called callee rest ihc ihr => exact unique_called ihc ihr
  | noOperand => exact unique_noOperand
  | operand k op h o right rest ihe ihr => exact unique_operand h o ihe ihr
  | number | text | yes | no | name =>
    intro d' r r' _ _ h
    cases d' <;> simp_all [tokens]
  | parens o e c ih => exact unique_parens o c ih
  | function o params body ihp ihb => exact unique_function o ihp ihb
  | braces body ih => exact unique_braces ih
  | noCall => exact unique_noCall
  | call o args rest iha ihr => exact unique_call o iha ihr
  | noArguments c => exact unique_noArguments c
  | arguments first more ihf ihm => exact unique_arguments ihf ihm
  | closeArguments c => exact unique_closeArguments c
  | argument o e more ihe ihm => exact unique_argument o ihe ihm

end Derivation

end ScopeScript.Grammar
