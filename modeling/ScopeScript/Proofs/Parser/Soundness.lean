import ScopeScript.Proofs.Parser.Steps

/-!
# What is read is derivable

`Sound n`: with fuel `n`, whatever a parser takes off the tokens is the text of a derivation, and
what it returns is the tree of that derivation. Each parser calls the others with less fuel, so
`Sound n` gives `Sound (n + 1)`, parser by parser.
-/

namespace ScopeScript.Tree.Parse

open Grammar (Derivation Opening)
open Token (Kind)

variable {n : Nat} {ts r : List Token}

theorem moreParameters_sound {fuel : Nat} {read names : List String}
    (h : moreParameters fuel read ts = .ok names r) :
    ∃ d : Derivation .moreParameters, ts = d.tokens ++ r ∧ read.reverse ++ d.tree = names := by
  induction fuel generalizing read ts with
  | zero => exact (throw_ok.1 h).elim
  | succ fuel ih =>
    rw [moreParameters, get_bind] at h
    split at h
    · next o rest =>
      rw [set_bind, bind_ok] at h
      obtain ⟨⟨s, k⟩, r₁, hs, h⟩ := h
      obtain rfl := name_ok.1 hs
      obtain ⟨d, rfl, rfl⟩ := ih h
      exact ⟨.parameter o s k d, rfl, by simp [Derivation.tree]⟩
    · simp only [bind_ok, expect_ok, pure_ok] at h
      obtain ⟨c, _, rfl, rfl, rfl⟩ := h
      exact ⟨.closeParameters c, rfl, by simp [Derivation.tree]⟩

theorem parameters_sound {names : List String} (h : parameters ts = .ok names r) :
    ∃ d : Derivation .parameters, ts = d.tokens ++ r ∧ d.tree = names := by
  rw [parameters, bind_ok] at h
  obtain ⟨o, r₁, ho, h⟩ := h
  obtain rfl := expect_ok.1 ho
  rw [get_bind] at h
  split at h
  · simp only [bind_ok, expect_ok, pure_ok] at h
    obtain ⟨c, _, rfl, rfl, rfl⟩ := h
    exact ⟨.noParameters o c, rfl, rfl⟩
  · rw [bind_ok] at h
    obtain ⟨⟨s, k⟩, r₂, hs, h⟩ := h
    obtain rfl := name_ok.1 hs
    obtain ⟨d, rfl, rfl⟩ := moreParameters_sound h
    exact ⟨.parameters o s k d, rfl, rfl⟩

/-- The parsers with fuel `n` take derivable texts and return their trees. -/
structure Sound (n : Nat) : Prop where
  expression : ∀ {ℓ ts e r}, expression n ℓ ts = .ok e r →
    ∃ b, ∃ d : Derivation (.expr ℓ b), ts = d.tokens ++ r ∧ d.tree = e
  chain : ∀ {ℓ left ts e r}, chain n ℓ left ts = .ok e r →
    ∃ d : Derivation (.operands ℓ), ts = d.tokens ++ r ∧ d.tree left = e
  calls : ∀ {callee ts e r}, calls n callee ts = .ok e r →
    ∃ d : Derivation .calls, ts = d.tokens ++ r ∧ d.tree callee = e
  moreArguments : ∀ {read ts args r}, moreArguments n read ts = .ok args r →
    ∃ d : Derivation .moreArguments, ts = d.tokens ++ r ∧ read.reverse ++ d.tree = args
  primary : ∀ {ts e r}, primary n ts = .ok e r →
    ∃ b, ∃ d : Derivation (.primary b), ts = d.tokens ++ r ∧ d.tree = e
  function : ∀ {o ts e r}, function n o ts = .ok e r →
    ∃ (p : Derivation .parameters) (d : Derivation (.scope true)),
      ts = p.tokens ++ (d.tokens ++ r) ∧ .function p.tree d.tree o = e
  block : ∀ {valued ts b r}, block n valued ts = .ok b r →
    ∃ d : Derivation (.scope valued), ts = d.tokens ++ r ∧ d.tree = b
  moreStatements : ∀ {read ts ss terminated r}, moreStatements n read ts = .ok (ss, terminated) r →
    ∃ d : Derivation .statements, ts = d.tokens ++ r ∧ d.tree.1.reverse ++ read = ss ∧
      d.tree.2 = terminated
  /-- In front of a closing brace a statement takes nothing. -/
  statement : ∀ {ts s r}, statement n ts = .ok s r →
    (∃ d : Derivation .statement, ts = d.tokens ++ r ∧ d.tree = s) ∨
      ts = r ∧ ∃ o r', ts = ⟨.sign .closeBrace, o⟩ :: r' ∧ s = .empty o
  bare : ∀ {ts s r}, bare n ts = .ok s r →
    ∃ b, ∃ d : Derivation (.expr .or b), ts = d.tokens ++ r ∧ .eval d.tree = s
  binding : ∀ {isPublic o ts s r}, binding n isPublic o ts = .ok s r →
    ∃ d : Derivation .binding, ts = d.tokens ++ r ∧ d.tree isPublic o = s
  namedFunction : ∀ {isPublic o ts s r}, namedFunction n isPublic o ts = .ok s r →
    ∃ d : Derivation .definition, ts = d.tokens ++ r ∧ d.tree isPublic o = s

theorem sound_zero : Sound 0 := by
  constructor
  all_goals
    intros
    exact (throw_ok.1 (by assumption)).elim

/-! ## Expressions -/

theorem expression_call (n : Nat) :
    expression (n + 1) .call = (do let callee ← primary n; calls n callee) := rfl

theorem expression_ne_call {ℓ : Level} (h : ℓ ≠ .call) (n : Nat) :
    expression (n + 1) ℓ = (do
      match prefixOp? ℓ (← get) with
      | some (op, offset, rest) => do
        set rest
        let operand ← expression n ℓ
        return .unary op operand offset
      | none => do
        let left ← expression n ℓ.tighter
        chain n ℓ left) := by
  cases ℓ <;> first | rfl | exact absurd rfl h

theorem expression_sound (ih : Sound n) {ℓ : Level} {e : Expr}
    (h : expression (n + 1) ℓ ts = .ok e r) :
    ∃ b, ∃ d : Derivation (.expr ℓ b), ts = d.tokens ++ r ∧ d.tree = e := by
  by_cases hℓ : ℓ = .call
  · subst hℓ
    rw [expression_call, bind_ok] at h
    obtain ⟨callee, r₁, hc, h⟩ := h
    obtain ⟨b, d, rfl, rfl⟩ := ih.primary hc
    obtain ⟨d', rfl, rfl⟩ := ih.calls h
    exact ⟨b, .called d d', by simp [Derivation.tokens], rfl⟩
  · rw [expression_ne_call hℓ, get_bind] at h
    cases hp : prefixOp? ℓ ts with
    | some p =>
      obtain ⟨op, o, rest⟩ := p
      obtain ⟨k, rfl, hk⟩ := prefixOp?_eq_some hp
      simp only [hp, set_bind, bind_ok, pure_ok] at h
      obtain ⟨operand, _, ho, rfl, rfl⟩ := h
      obtain ⟨b, d, rfl, rfl⟩ := ih.expression ho
      exact ⟨false, .prefixed k op hk o d, rfl, rfl⟩
    | none =>
      simp only [hp, bind_ok] at h
      obtain ⟨left, r₁, hl, h⟩ := h
      obtain ⟨b, d, rfl, rfl⟩ := ih.expression hl
      obtain ⟨d', rfl, rfl⟩ := ih.chain h
      exact ⟨b, .joined hℓ d d', by simp [Derivation.tokens], rfl⟩

theorem chain_sound (ih : Sound n) {ℓ : Level} {left e : Expr}
    (h : chain (n + 1) ℓ left ts = .ok e r) :
    ∃ d : Derivation (.operands ℓ), ts = d.tokens ++ r ∧ d.tree left = e := by
  rw [chain, get_bind] at h
  cases hp : operator? ℓ ts with
  | some p =>
    obtain ⟨op, o, rest⟩ := p
    obtain ⟨k, rfl, hk⟩ := operator?_eq_some hp
    simp only [hp, set_bind, bind_ok] at h
    obtain ⟨right, r₁, hr, h⟩ := h
    obtain ⟨b, d, rfl, rfl⟩ := ih.expression hr
    obtain ⟨d', rfl, rfl⟩ := ih.chain h
    exact ⟨.operand k op hk o d d', by simp [Derivation.tokens], rfl⟩
  | none =>
    simp only [hp, pure_ok] at h
    obtain ⟨rfl, rfl⟩ := h
    exact ⟨.noOperand, rfl, rfl⟩

theorem calls_sound (ih : Sound n) {callee e : Expr} (h : calls (n + 1) callee ts = .ok e r) :
    ∃ d : Derivation .calls, ts = d.tokens ++ r ∧ d.tree callee = e := by
  rw [calls, get_bind] at h
  split at h
  · next o rest =>
    rw [set_bind] at h
    split at h
    · simp only [bind_ok, expect_ok] at h
      obtain ⟨c, r₁, rfl, h⟩ := h
      obtain ⟨d, rfl, rfl⟩ := ih.calls h
      exact ⟨.call o (.noArguments c) d, rfl, rfl⟩
    · simp only [bind_ok] at h
      obtain ⟨first, r₁, hf, args, r₂, ha, h⟩ := h
      obtain ⟨b, d, rfl, rfl⟩ := ih.expression hf
      obtain ⟨d', rfl, rfl⟩ := ih.moreArguments ha
      obtain ⟨d'', rfl, rfl⟩ := ih.calls h
      exact ⟨.call o (.arguments d d') d'', by simp [Derivation.tokens], rfl⟩
  · obtain ⟨rfl, rfl⟩ := pure_ok.1 h
    exact ⟨.noCall, rfl, rfl⟩

theorem moreArguments_sound (ih : Sound n) {read args : List Expr}
    (h : moreArguments (n + 1) read ts = .ok args r) :
    ∃ d : Derivation .moreArguments, ts = d.tokens ++ r ∧ read.reverse ++ d.tree = args := by
  rw [moreArguments, get_bind] at h
  split at h
  · next o rest =>
    simp only [set_bind, bind_ok] at h
    obtain ⟨arg, r₁, ha, h⟩ := h
    obtain ⟨b, d, rfl, rfl⟩ := ih.expression ha
    obtain ⟨d', rfl, rfl⟩ := ih.moreArguments h
    exact ⟨.argument o d d', by simp [Derivation.tokens], by simp [Derivation.tree]⟩
  · simp only [bind_ok, expect_ok, pure_ok] at h
    obtain ⟨c, _, rfl, rfl, rfl⟩ := h
    exact ⟨.closeArguments c, rfl, by simp [Derivation.tree]⟩

theorem function_sound (ih : Sound n) {o : Nat} {e : Expr}
    (h : function (n + 1) o ts = .ok e r) :
    ∃ (p : Derivation .parameters) (d : Derivation (.scope true)),
      ts = p.tokens ++ (d.tokens ++ r) ∧ .function p.tree d.tree o = e := by
  simp only [function, bind_ok, pure_ok] at h
  obtain ⟨params, r₁, hp, body, _, hb, rfl, rfl⟩ := h
  obtain ⟨p, rfl, rfl⟩ := parameters_sound hp
  obtain ⟨d, rfl, rfl⟩ := ih.block hb
  exact ⟨p, d, rfl, rfl⟩

theorem primary_sound (ih : Sound n) {e : Expr} (h : primary (n + 1) ts = .ok e r) :
    ∃ b, ∃ d : Derivation (.primary b), ts = d.tokens ++ r ∧ d.tree = e := by
  rw [primary, get_bind] at h
  split at h
  · next x o rest =>
    obtain ⟨rfl, rfl⟩ := pure_ok.1 h
    exact ⟨false, .number x o, rfl, rfl⟩
  · next s o rest =>
    obtain ⟨rfl, rfl⟩ := pure_ok.1 h
    exact ⟨false, .text s o, rfl, rfl⟩
  · next o rest =>
    obtain ⟨rfl, rfl⟩ := pure_ok.1 h
    exact ⟨false, .yes o, rfl, rfl⟩
  · next o rest =>
    obtain ⟨rfl, rfl⟩ := pure_ok.1 h
    exact ⟨false, .no o, rfl, rfl⟩
  · next s o rest =>
    obtain ⟨rfl, rfl⟩ := pure_ok.1 h
    exact ⟨false, .name s o, rfl, rfl⟩
  · next o rest =>
    simp only [set_bind, bind_ok, expect_ok, pure_ok] at h
    obtain ⟨e, _, he, c, _, rfl, rfl, rfl⟩ := h
    obtain ⟨b, d, rfl, rfl⟩ := ih.expression he
    exact ⟨false, .parens o d c, by simp [Derivation.tokens], rfl⟩
  · next o rest =>
    rw [set_bind] at h
    obtain ⟨p, d, rfl, rfl⟩ := ih.function h
    exact ⟨false, .function o p d, by simp [Derivation.tokens], rfl⟩
  · next o rest =>
    simp only [bind_ok, pure_ok] at h
    obtain ⟨body, _, hb, rfl, rfl⟩ := h
    obtain ⟨d, e, rfl⟩ := ih.block hb
    exact ⟨true, .braces d, e, by rw [Derivation.tree, d.start_tree e]⟩
  · exact (throw_ok.1 h).elim

theorem promoteLast_append (ss : List Stmt) (s : Stmt) :
    Grammar.promoteLast (ss ++ [s]) = ss ++ [s.promote] := by
  induction ss with
  | nil => rfl
  | cons s' ss ih =>
    cases ss with
    | nil => rfl
    | cons s'' ss => simpa [Grammar.promoteLast] using ih

theorem reverse_promoteHead (ss : List Stmt) :
    (promoteHead ss).reverse = Grammar.promoteLast ss.reverse := by
  cases ss with
  | nil => rfl
  | cons s ss => simp [promoteHead, promoteLast_append]

theorem block_sound (ih : Sound n) {valued : Bool} {b : Block}
    (h : block (n + 1) valued ts = .ok b r) :
    ∃ d : Derivation (.scope valued), ts = d.tokens ++ r ∧ d.tree = b := by
  simp only [block, bind_ok, expect_ok, refuse_ok, pure_ok] at h
  obtain ⟨o, r₁, rfl, first, r₂, hf, ⟨read, terminated⟩, r₃, hm, _, _, ⟨-, rfl⟩, c, _, rfl, rfl,
    rfl⟩ := h
  obtain ⟨d', rfl, rfl, rfl⟩ := ih.moreStatements hm
  obtain ⟨d, rfl, rfl⟩ | ⟨rfl, c', r', hc, rfl⟩ := ih.statement hf
  · refine ⟨.scope o d d' c, by simp [Derivation.tokens], ?_⟩
    simp only [Derivation.tree]
    split <;> simp [reverse_promoteHead]
  · -- nothing but the closing brace follows the opening one
    cases d' with
    | done =>
      simp only [Derivation.tokens, List.nil_append, List.cons.injEq, Token.mk.injEq] at hc
      obtain ⟨⟨-, rfl⟩, rfl⟩ := hc
      refine ⟨.unit o c, rfl, ?_⟩
      simp [Derivation.tree, promoteHead, Stmt.promote]
    | terminated o' => simp [Derivation.tokens] at hc
    | next o' s more => simp [Derivation.tokens] at hc

theorem moreStatements_sound (ih : Sound n) {read ss : List Stmt} {terminated : Bool}
    (h : moreStatements (n + 1) read ts = .ok (ss, terminated) r) :
    ∃ d : Derivation .statements, ts = d.tokens ++ r ∧ d.tree.1.reverse ++ read = ss ∧
      d.tree.2 = terminated := by
  rw [moreStatements, get_bind] at h
  split at h
  · next o rest =>
    rw [set_bind] at h
    split at h
    · obtain ⟨e, rfl⟩ := pure_ok.1 h
      cases e
      exact ⟨.terminated o, rfl, rfl, rfl⟩
    · next hb =>
      rw [bind_ok] at h
      obtain ⟨s, r₁, hs, h⟩ := h
      obtain ⟨d', rfl, rfl, rfl⟩ := ih.moreStatements h
      obtain ⟨d, rfl, rfl⟩ | ⟨rfl, c, r', hc, -⟩ := ih.statement hs
      · exact ⟨.next o d d', by simp [Derivation.tokens], by simp [Derivation.tree], rfl⟩
      · exact absurd (Grammar.startsWith_iff.2 ⟨c, r', hc⟩) hb
  · obtain ⟨e, rfl⟩ := pure_ok.1 h
    cases e
    exact ⟨.done, rfl, rfl, rfl⟩

/-! ## Statements -/

theorem bare_sound (ih : Sound n) {s : Stmt} (h : bare (n + 1) ts = .ok s r) :
    ∃ b, ∃ d : Derivation (.expr .or b), ts = d.tokens ++ r ∧ .eval d.tree = s := by
  simp only [bare, bind_ok, refuse_ok, pure_ok] at h
  obtain ⟨e, r₁, he, _, _, ⟨-, rfl⟩, rfl, rfl⟩ := h
  obtain ⟨b, d, rfl, rfl⟩ := ih.expression he
  exact ⟨b, d, rfl, rfl⟩

theorem binding_sound (ih : Sound n) {isPublic : Bool} {o : Nat} {s : Stmt}
    (h : binding (n + 1) isPublic o ts = .ok s r) :
    ∃ d : Derivation .binding, ts = d.tokens ++ r ∧ d.tree isPublic o = s := by
  simp only [binding, bind_ok, assignment_ok, pure_ok] at h
  obtain ⟨⟨x, k⟩, r₁, hx, op, r₂, ha, value, _, hv, rfl, rfl⟩ := h
  obtain rfl := name_ok.1 hx
  obtain ⟨sign, rfl, rfl⟩ := assignment?_eq_some ha
  obtain ⟨b, d, rfl, rfl⟩ := ih.expression hv
  refine ⟨.binding x k sign d, by simp [Derivation.tokens], ?_⟩
  simp only [Derivation.tree, boundValue]
  cases sign.tree <;> rfl

theorem namedFunction_sound (ih : Sound n) {isPublic : Bool} {o : Nat} {s : Stmt}
    (h : namedFunction (n + 1) isPublic o ts = .ok s r) :
    ∃ d : Derivation .definition, ts = d.tokens ++ r ∧ d.tree isPublic o = s := by
  simp only [namedFunction, bind_ok, pure_ok] at h
  obtain ⟨⟨x, k⟩, r₁, hx, value, _, hv, rfl, rfl⟩ := h
  obtain rfl := name_ok.1 hx
  obtain ⟨p, d, rfl, rfl⟩ := ih.function hv
  exact ⟨.definition x k p d, by simp [Derivation.tokens], rfl⟩

theorem eval_of_bare (ih : Sound n) {s : Stmt} (h : bare n ts = .ok s r)
    (hb : ¬ startsWith .openBrace ts) :
    ∃ d : Derivation .statement, ts = d.tokens ++ r ∧ d.tree = s := by
  obtain ⟨b, d, rfl, rfl⟩ := ih.bare h
  obtain ⟨t, us, e, -, hbr, -⟩ := d.opening r
  cases b with
  | false => exact ⟨.eval d, rfl, rfl⟩
  | true =>
    refine absurd (Grammar.startsWith_iff.2 ⟨t.offset, us, ?_⟩) hb
    rw [e, ← hbr.1 rfl]

theorem statement_sound (ih : Sound n) {s : Stmt} (h : statement (n + 1) ts = .ok s r) :
    (∃ d : Derivation .statement, ts = d.tokens ++ r ∧ d.tree = s) ∨
      ts = r ∧ ∃ o r', ts = ⟨.sign .closeBrace, o⟩ :: r' ∧ s = .empty o := by
  rw [statement, get_bind] at h
  split at h
  · next o rest =>
    simp only [bind_ok, pure_ok] at h
    obtain ⟨body, _, hb, rfl, rfl⟩ := h
    obtain ⟨d, e, rfl⟩ := ih.block hb
    exact .inl ⟨.block d, e, by rw [Derivation.tree, d.start_tree e]⟩
  · next o rest =>
    obtain ⟨d, rfl, rfl⟩ := ih.binding h
    exact .inl ⟨.bind o d, rfl, rfl⟩
  · next o o' rest =>
    obtain ⟨d, rfl, rfl⟩ := ih.binding h
    exact .inl ⟨.publicBind o o' d, rfl, rfl⟩
  · next o o' rest =>
    obtain ⟨d, rfl, rfl⟩ := ih.namedFunction h
    exact .inl ⟨.publicDefine o o' d, rfl, rfl⟩
  · exact (throw_ok.1 h).elim
  · next o x k rest =>
    rw [set_bind] at h
    obtain ⟨d, e, rfl⟩ := ih.namedFunction h
    exact .inl ⟨.define o d, by simp [Derivation.tokens, e], rfl⟩
  · next o rest =>
    simp only [set_bind, bind_ok, pure_ok] at h
    obtain ⟨condition, r₁, hc, body, _, hb, rfl, rfl⟩ := h
    obtain ⟨b, d, rfl, rfl⟩ := ih.expression hc
    obtain ⟨d', rfl, rfl⟩ := ih.block hb
    exact .inl ⟨.branch o d d', by simp [Derivation.tokens], rfl⟩
  · next o rest =>
    rw [set_bind] at h
    split at h
    · obtain ⟨rfl, rfl⟩ := pure_ok.1 h
      exact .inl ⟨.leave o, rfl, rfl⟩
    · simp only [bind_ok, pure_ok] at h
      obtain ⟨value, _, hv, rfl, rfl⟩ := h
      obtain ⟨b, d, rfl, rfl⟩ := ih.expression hv
      exact .inl ⟨.leaveWith o d, rfl, rfl⟩
  · next o rest =>
    simp only [set_bind, bind_ok, pure_ok] at h
    obtain ⟨value, _, hv, rfl, rfl⟩ := h
    obtain ⟨b, d, rfl, rfl⟩ := ih.expression hv
    exact .inl ⟨.print o d, rfl, rfl⟩
  · next o rest =>
    obtain ⟨rfl, rfl⟩ := pure_ok.1 h
    exact .inr ⟨rfl, o, rest, rfl, rfl⟩
  · next hbrace _ _ _ _ _ _ _ _ _ =>
    have hb : ¬ startsWith .openBrace ts := fun hs => by
      obtain ⟨o, us, rfl⟩ := Grammar.startsWith_iff.1 hs
      exact hbrace o us rfl
    split at h
    · next x o rest _ _ _ _ _ _ _ _ _ =>
      cases ha : assignment? rest with
      | some p =>
        obtain ⟨op, rest'⟩ := p
        simp only [ha, set_bind, bind_ok, pure_ok] at h
        obtain ⟨value, _, hv, rfl, rfl⟩ := h
        obtain ⟨sign, rfl, rfl⟩ := assignment?_eq_some ha
        obtain ⟨b, d, rfl, rfl⟩ := ih.expression hv
        exact .inl ⟨.set x o sign d, by simp [Derivation.tokens], rfl⟩
      | none =>
        simp only [ha] at h
        exact .inl (eval_of_bare ih h hb)
    · exact .inl (eval_of_bare ih h hb)

/-! ## All parsers -/

theorem sound : ∀ n : Nat, Sound n
  | 0 => sound_zero
  | n + 1 =>
    have ih := sound n
    { expression := expression_sound ih
      chain := chain_sound ih
      calls := calls_sound ih
      moreArguments := moreArguments_sound ih
      primary := primary_sound ih
      function := function_sound ih
      block := block_sound ih
      moreStatements := moreStatements_sound ih
      statement := statement_sound ih
      bare := bare_sound ih
      binding := binding_sound ih
      namedFunction := namedFunction_sound ih }

end ScopeScript.Tree.Parse
