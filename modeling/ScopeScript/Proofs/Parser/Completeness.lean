import ScopeScript.Execution
import ScopeScript.Proofs.Grammar.Unambiguous
import ScopeScript.Proofs.Parser.Soundness

/-!
# What is derivable is read

`Read d`: in front of tokens that do not continue it, the text of `d` is read as the tree of `d`,
given twelve units of fuel for each of its tokens and what its class takes to reach the first one
(`Symbol.cost`). With soundness and unambiguity this makes the parser exact: it accepts the texts of
the grammar, and nothing else, and returns the tree of their only derivation.
-/

namespace ScopeScript

open Token (Kind)

namespace Grammar

/-- The fuel that a phrase takes beyond that for its tokens. -/
def Symbol.cost : Symbol → Nat
  | .statement => 13
  | .statements => 2
  | .expr ℓ _ => 11 - rank ℓ
  | .primary _ => 2
  | _ => 1

def Derivation.fuel {s : Symbol} (d : Derivation s) : Nat := 12 * d.tokens.length + s.cost

end Grammar

namespace Tree.Parse

open Grammar (Derivation Symbol joins? leads? compounds? rank Opening Closed AtEnd)
open Grammar.Derivation (tokens tree fuel)

/-- The text is read as the tree. -/
def Read : {s : Symbol} → Derivation s → Prop
  | .scope v, d => ∀ n r, d.fuel ≤ n → block n v (d.tokens ++ r) = .ok d.tree r
  | .statements, d => ∀ n r read, d.fuel ≤ n → startsWith .closeBrace r →
    moreStatements n read (d.tokens ++ r) = .ok (d.tree.1.reverse ++ read, d.tree.2) r
  | .statement, d => ∀ n r, d.fuel ≤ n → AtEnd r → statement n (d.tokens ++ r) = .ok d.tree r
  | .binding, d => ∀ n r isPublic o, d.fuel ≤ n → AtEnd r →
    binding n isPublic o (d.tokens ++ r) = .ok (d.tree isPublic o) r
  | .definition, d => ∀ n r isPublic o, d.fuel ≤ n →
    namedFunction n isPublic o (d.tokens ++ r) = .ok (d.tree isPublic o) r
  | .assignment, d => ∀ r, assignment (d.tokens ++ r) = .ok d.tree r
  | .parameters, d => ∀ r, parameters (d.tokens ++ r) = .ok d.tree r
  | .moreParameters, d => ∀ n r read, d.tokens.length ≤ n →
    moreParameters n read (d.tokens ++ r) = .ok (read.reverse ++ d.tree) r
  | .expr ℓ _, d => ∀ n r, d.fuel ≤ n → Closed ℓ r →
    expression n ℓ (d.tokens ++ r) = .ok d.tree r
  | .operands ℓ, d => ∀ n r left, d.fuel ≤ n → Closed ℓ r →
    chain n ℓ left (d.tokens ++ r) = .ok (d.tree left) r
  | .primary _, d => ∀ n r, d.fuel ≤ n → primary n (d.tokens ++ r) = .ok d.tree r
  | .calls, d => ∀ n r callee, d.fuel ≤ n → Closed .call r →
    calls n callee (d.tokens ++ r) = .ok (d.tree callee) r
  | .arguments, d => ∀ n r callee o, d.fuel ≤ n →
    calls (n + 1) callee (⟨.sign .openParen, o⟩ :: (d.tokens ++ r)) =
      calls n (.call callee d.tree o) r
  | .moreArguments, d => ∀ n r read, d.fuel ≤ n →
    moreArguments n read (d.tokens ++ r) = .ok (read.reverse ++ d.tree) r

theorem exists_succ {m n : Nat} (h : m + 1 ≤ n) : ∃ k, n = k + 1 := ⟨n - 1, by omega⟩

theorem read_parameter (o : Nat) (s : String) (k : Nat) {more : Derivation .moreParameters}
    (ih : Read more) : Read (.parameter o s k more) := by
  intro n r read hn
  simp only [tokens, List.length_cons] at hn
  obtain ⟨n, rfl⟩ := exists_succ hn
  rw [moreParameters, get_bind]
  simp only [tokens, List.cons_append, set_bind]
  refine bind_ok.2 ⟨(s, k), _, name_ok.2 rfl, ?_⟩
  rw [ih n r _ (by omega)]
  simp [tree]

theorem read_closeParameters (c : Nat) : Read (.closeParameters c) := by
  intro n r read hn
  obtain ⟨n, rfl⟩ := exists_succ hn
  rw [moreParameters, get_bind]
  refine bind_ok.2 ⟨c, r, expect_ok.2 rfl, ?_⟩
  simp [pure_ok, tree]

theorem read_noParameters (o c : Nat) : Read (.noParameters o c) := by
  intro r
  rw [parameters]
  refine bind_ok.2 ⟨o, _, expect_ok.2 rfl, ?_⟩
  rw [get_bind]
  exact bind_ok.2 ⟨c, r, expect_ok.2 rfl, rfl⟩

theorem read_parameters (o : Nat) (s : String) (k : Nat) {more : Derivation .moreParameters}
    (ih : Read more) : Read (.parameters o s k more) := by
  intro r
  rw [parameters]
  refine bind_ok.2 ⟨o, _, expect_ok.2 rfl, ?_⟩
  rw [get_bind]
  refine bind_ok.2 ⟨(s, k), _, name_ok.2 rfl, ?_⟩
  refine ih (List.length _ + 1) r [s] ?_
  simp only [List.append_eq, List.length_cons, List.length_append]
  omega

/-! ## Expressions -/

theorem prefixOp?_of_leads {ℓ : Level} {k : Kind} {op : UnaryOp} (h : leads? k = some (ℓ, op))
    (o : Nat) (r : List Token) : prefixOp? ℓ (⟨k, o⟩ :: r) = some (op, o, r) := by
  simp [prefixOp?, prefixOp?_eq_some_iff.2 h]

theorem prefixOp?_of_opening {ℓ : Level} (hℓ : ℓ ≠ .call) {b : Bool} {ts : List Token}
    (h : Opening ℓ.tighter b ts) : prefixOp? ℓ ts = none := by
  obtain ⟨t, r, rfl, ho, -⟩ := h
  rw [prefixOp?, Option.map_eq_none_iff, Option.eq_none_iff_forall_ne_some]
  intro op hop
  have hle := Grammar.rank_le_of_opens (prefixOp?_eq_some_iff.1 hop) ho
  have := Grammar.rank_tighter hℓ
  omega

theorem operator?_of_joins {ℓ : Level} {k : Kind} {op : BinaryOp} (h : joins? k = some (ℓ, op))
    (o : Nat) {r : List Token} (hr : startsWith .equal r = false) :
    operator? ℓ (⟨k, o⟩ :: r) = some (op, o, r) := by
  simp [operator?, hr, operator?_eq_some_iff.2 h]

theorem operator?_of_closed {ℓ : Level} {r : List Token} (h : Closed ℓ r) :
    operator? ℓ r = none := by
  unfold operator?
  split
  · next k o rest =>
    split
    · rfl
    · rw [Option.map_eq_none_iff, Option.eq_none_iff_forall_ne_some]
      intro op hop
      exact Grammar.Derivation.operand_ne (operator?_eq_some_iff.1 hop) h rfl
  · rfl

theorem read_prefixed {ℓ : Level} {b : Bool} {k : Kind} {op : UnaryOp}
    (hk : leads? k = some (ℓ, op)) (o : Nat) {e : Derivation (.expr ℓ b)} (ih : Read e) :
    Read (.prefixed k op hk o e) := by
  intro n r hn hr
  have hℓ := Grammar.ne_call_of_leads hk
  simp only [fuel, tokens, List.length_cons, Symbol.cost] at hn
  obtain ⟨n, rfl⟩ : ∃ m, n = m + 1 := exists_succ (m := n - 1) (by omega)
  rw [expression_ne_call hℓ, get_bind]
  simp only [tokens, List.cons_append, prefixOp?_of_leads hk, set_bind]
  refine bind_ok.2 ⟨_, _, ih n r (by simp only [fuel, Symbol.cost]; omega) hr, rfl⟩

theorem read_joined {ℓ : Level} {b : Bool} (hℓ : ℓ ≠ .call)
    {first : Derivation (.expr ℓ.tighter b)} {rest : Derivation (.operands ℓ)}
    (ihf : Read first) (ihr : Read rest) : Read (.joined hℓ first rest) := by
  intro n r hn hr
  have hrank := Grammar.rank_tighter hℓ
  have hle := Grammar.rank_le ℓ.tighter
  simp only [fuel, tokens, List.length_append, Symbol.cost] at hn
  obtain ⟨n, rfl⟩ : ∃ m, n = m + 1 := exists_succ (m := n - 1) (by omega)
  rw [expression_ne_call hℓ, get_bind]
  simp only [tokens, List.append_assoc, prefixOp?_of_opening hℓ (first.opening _)]
  refine bind_ok.2 ⟨_, _, ihf n _ (by simp only [fuel, Symbol.cost]; omega)
    (Grammar.Derivation.closed_operands hℓ rest hr), ?_⟩
  exact ihr n r _ (by simp only [fuel, Symbol.cost]; omega) hr

theorem read_called {b : Bool} {callee : Derivation (.primary b)} {rest : Derivation .calls}
    (ihc : Read callee) (ihr : Read rest) : Read (.called callee rest) := by
  intro n r hn hr
  simp only [fuel, tokens, List.length_append, Symbol.cost, rank] at hn
  obtain ⟨n, rfl⟩ : ∃ m, n = m + 1 := exists_succ (m := n - 1) (by omega)
  rw [expression_call]
  simp only [tokens, List.append_assoc]
  refine bind_ok.2 ⟨_, _, ihc n _ (by simp only [fuel, Symbol.cost]; omega), ?_⟩
  exact ihr n r _ (by simp only [fuel, Symbol.cost]; omega) hr

theorem read_noOperand {ℓ : Level} : Read (s := .operands ℓ) .noOperand := by
  intro n r left hn hr
  obtain ⟨n, rfl⟩ := exists_succ (m := 0) hn
  rw [chain, get_bind]
  simp only [tokens, List.nil_append, operator?_of_closed hr]
  rfl

theorem read_operand {ℓ : Level} {b : Bool} {k : Kind} {op : BinaryOp}
    (hk : joins? k = some (ℓ, op)) (o : Nat) {right : Derivation (.expr ℓ.tighter b)}
    {rest : Derivation (.operands ℓ)} (ihe : Read right) (ihr : Read rest) :
    Read (.operand k op hk o right rest) := by
  intro n r left hn hr
  have hℓ := Grammar.ne_call_of_joins hk
  simp only [fuel, tokens, List.length_cons, List.length_append, Symbol.cost] at hn
  obtain ⟨n, rfl⟩ := exists_succ hn
  rw [chain, get_bind]
  simp only [tokens, List.cons_append, List.append_assoc,
    operator?_of_joins hk o ((right.opening _).not_startsWith (g := .equal) rfl), set_bind]
  refine bind_ok.2 ⟨_, _, ihe n _ (by simp only [fuel, Symbol.cost]; omega)
    (Grammar.Derivation.closed_operands hℓ rest hr), ?_⟩
  exact ihr n r _ (by simp only [fuel, Symbol.cost]; omega) hr

theorem read_parens (o : Nat) {b : Bool} {e : Derivation (.expr .or b)} (c : Nat)
    (ih : Read e) : Read (.parens o e c) := by
  intro n r hn
  simp only [fuel, tokens, List.length_cons, List.length_append, Symbol.cost] at hn
  obtain ⟨n, rfl⟩ := exists_succ hn
  rw [primary, get_bind]
  simp only [tokens, List.cons_append, List.append_assoc, set_bind]
  refine bind_ok.2 ⟨_, _, ih n _ (by simp only [fuel, Symbol.cost]; omega)
    (Closed.cons rfl c _), ?_⟩
  exact bind_ok.2 ⟨c, r, expect_ok.2 rfl, rfl⟩

theorem read_function (o : Nat) {params : Derivation .parameters}
    {body : Derivation (.scope true)} (ihp : Read params) (ihb : Read body) (n : Nat)
    (r : List Token) (hn : body.fuel < n) :
    function n o (params.tokens ++ (body.tokens ++ r)) =
      .ok (.function params.tree body.tree o) r := by
  obtain ⟨n, rfl⟩ := exists_succ hn
  rw [function]
  refine bind_ok.2 ⟨_, _, ihp _, ?_⟩
  exact bind_ok.2 ⟨_, _, ihb n r (by omega), rfl⟩

theorem read_functionValue (o : Nat) {params : Derivation .parameters}
    {body : Derivation (.scope true)} (ihp : Read params) (ihb : Read body) :
    Read (.function o params body) := by
  intro n r hn
  simp only [fuel, tokens, List.length_cons, List.length_append, Symbol.cost] at hn
  obtain ⟨n, rfl⟩ := exists_succ hn
  rw [primary, get_bind]
  simp only [tokens, List.cons_append, List.append_assoc, set_bind]
  exact read_function o ihp ihb n r (by simp only [fuel, Symbol.cost]; omega)

theorem read_braces {body : Derivation (.scope true)} (ih : Read body) :
    Read (.braces body) := by
  intro n r hn
  simp only [fuel, tokens, Symbol.cost] at hn
  obtain ⟨n, rfl⟩ := exists_succ hn
  obtain ⟨o, us, e⟩ := Grammar.startsWith_iff.1 (Grammar.startsWith_append body.starts r)
  have hb := ih n r (by simp only [fuel, Symbol.cost]; omega)
  rw [primary, get_bind]
  simp only [tokens]
  rw [e] at hb ⊢
  refine bind_ok.2 ⟨_, _, hb, ?_⟩
  simp only [pure_ok, tree, body.start_tree e.symm, and_self]

theorem read_noCall : Read .noCall := by
  intro n r callee hn hr
  obtain ⟨n, rfl⟩ := exists_succ (m := 0) hn
  rw [calls, get_bind]
  simp only [tokens, List.nil_append]
  split
  · exact absurd rfl (Grammar.Derivation.call_ne hr)
  · rfl

theorem read_call (o : Nat) {args : Derivation .arguments} {rest : Derivation .calls}
    (iha : Read args) (ihr : Read rest) : Read (.call o args rest) := by
  intro n r callee hn hr
  simp only [fuel, tokens, List.length_cons, List.length_append, Symbol.cost] at hn
  obtain ⟨n, rfl⟩ := exists_succ hn
  simp only [tokens, List.cons_append, List.append_assoc]
  rw [iha n _ callee o (by simp only [fuel, Symbol.cost]; omega)]
  exact ihr n r _ (by simp only [fuel, Symbol.cost]; omega) hr

theorem read_noArguments (c : Nat) : Read (.noArguments c) := by
  intro n r callee o hn
  rw [calls, get_bind]
  rfl

theorem read_arguments {b : Bool} {first : Derivation (.expr .or b)}
    {more : Derivation .moreArguments} (ihf : Read first) (ihm : Read more) :
    Read (.arguments first more) := by
  intro n r callee o hn
  simp only [fuel, tokens, List.length_append, Symbol.cost] at hn
  have hlen : 1 ≤ more.tokens.length := by cases more <;> simp [tokens]
  have hf := ihf n (more.tokens ++ r) (by simp only [fuel, Symbol.cost, rank]; omega)
    (more.closed_moreArguments _ _)
  have hm := ihm n r [first.tree] (by simp only [fuel, Symbol.cost]; omega)
  have hc : startsWith .closeParen (first.tokens ++ (more.tokens ++ r)) = false :=
    (first.opening _).not_startsWith rfl
  rw [calls, get_bind]
  simp only [tokens, List.append_assoc, set_bind, hc, Bool.false_eq_true, ↓reduceIte]
  rw [bind_of_ok hf, bind_of_ok hm]
  rfl

theorem read_closeArguments (c : Nat) : Read (.closeArguments c) := by
  intro n r read hn
  obtain ⟨n, rfl⟩ := exists_succ hn
  rw [moreArguments, get_bind]
  refine bind_ok.2 ⟨c, r, expect_ok.2 rfl, ?_⟩
  simp [pure_ok, tree]

theorem read_argument (o : Nat) {b : Bool} {e : Derivation (.expr .or b)}
    {more : Derivation .moreArguments} (ihe : Read e) (ihm : Read more) :
    Read (.argument o e more) := by
  intro n r read hn
  simp only [fuel, tokens, List.length_cons, List.length_append, Symbol.cost] at hn
  obtain ⟨n, rfl⟩ := exists_succ hn
  rw [moreArguments, get_bind]
  simp only [tokens, List.cons_append, List.append_assoc, set_bind]
  refine bind_ok.2 ⟨_, _, ihe n _ (by simp only [fuel, Symbol.cost, rank]; omega)
    (more.closed_moreArguments _ _), ?_⟩
  rw [ihm n r _ (by simp only [fuel, Symbol.cost]; omega)]
  simp [tree]

/-! ## Statements -/

theorem read_assignment (d : Derivation .assignment) : Read d :=
  fun r => assignment_ok.2 (d.assignment?_tokens r)

theorem read_binding (s : String) (k : Nat) {b : Bool} {sign : Derivation .assignment}
    {value : Derivation (.expr .or b)} (ihv : Read value) : Read (.binding s k sign value) := by
  intro n r isPublic o hn hr
  simp only [fuel, tokens, List.length_cons, List.length_append, Symbol.cost] at hn
  obtain ⟨n, rfl⟩ := exists_succ hn
  rw [binding]
  simp only [tokens, List.cons_append, List.append_assoc]
  refine bind_ok.2 ⟨(s, k), _, name_ok.2 rfl, ?_⟩
  refine bind_ok.2 ⟨_, _, read_assignment sign _, ?_⟩
  refine bind_ok.2 ⟨_, _, ihv n r (by simp only [fuel, Symbol.cost, rank]; omega)
    (hr.closed _), ?_⟩
  simp only [pure_ok, and_true, tree, boundValue]
  cases sign.tree <;> rfl

theorem read_definition (s : String) (k : Nat) {params : Derivation .parameters}
    {body : Derivation (.scope true)} (ihp : Read params) (ihb : Read body) :
    Read (.definition s k params body) := by
  intro n r isPublic o hn
  simp only [fuel, tokens, List.length_cons, List.length_append, Symbol.cost] at hn
  obtain ⟨n, rfl⟩ := exists_succ hn
  rw [namedFunction]
  simp only [tokens, List.cons_append, List.append_assoc]
  refine bind_ok.2 ⟨(s, k), _, name_ok.2 rfl, ?_⟩
  refine bind_ok.2 ⟨_, _, read_function o ihp ihb n r ?_, rfl⟩
  simp only [fuel, Symbol.cost]
  omega

theorem read_block {body : Derivation (.scope false)} (ih : Read body) : Read (.block body) := by
  intro n r hn _
  simp only [fuel, tokens, Symbol.cost] at hn
  obtain ⟨n, rfl⟩ := exists_succ hn
  obtain ⟨o, us, e⟩ := Grammar.startsWith_iff.1 (Grammar.startsWith_append body.starts r)
  have hb := ih n r (by simp only [fuel, Symbol.cost]; omega)
  rw [statement, get_bind]
  simp only [tokens]
  rw [e] at hb ⊢
  refine bind_ok.2 ⟨_, _, hb, ?_⟩
  simp only [pure_ok, tree, body.start_tree e.symm, and_self]

theorem read_bind (o : Nat) {d : Derivation .binding} (ih : Read d) : Read (.bind o d) := by
  intro n r hn hr
  simp only [fuel, tokens, List.length_cons, Symbol.cost] at hn
  obtain ⟨n, rfl⟩ := exists_succ hn
  rw [statement, get_bind]
  exact ih n r false o (by simp only [fuel, Symbol.cost]; omega) hr

theorem read_publicBind (o o' : Nat) {d : Derivation .binding} (ih : Read d) :
    Read (.publicBind o o' d) := by
  intro n r hn hr
  simp only [fuel, tokens, List.length_cons, Symbol.cost] at hn
  obtain ⟨n, rfl⟩ := exists_succ hn
  rw [statement, get_bind]
  exact ih n r true o (by simp only [fuel, Symbol.cost]; omega) hr

theorem read_define (o : Nat) {d : Derivation .definition} (ih : Read d) :
    Read (.define o d) := by
  intro n r hn _
  simp only [fuel, tokens, List.length_cons, Symbol.cost] at hn
  obtain ⟨n, rfl⟩ := exists_succ hn
  have hd := ih n r false o (by simp only [fuel, Symbol.cost]; omega)
  rw [statement, get_bind]
  cases d
  exact hd

theorem read_publicDefine (o o' : Nat) {d : Derivation .definition} (ih : Read d) :
    Read (.publicDefine o o' d) := by
  intro n r hn _
  simp only [fuel, tokens, List.length_cons, Symbol.cost] at hn
  obtain ⟨n, rfl⟩ := exists_succ hn
  rw [statement, get_bind]
  exact ih n r true o (by simp only [fuel, Symbol.cost]; omega)

theorem read_branch (o : Nat) {b : Bool} {condition : Derivation (.expr .or b)}
    {body : Derivation (.scope false)} (ihc : Read condition) (ihb : Read body) :
    Read (.branch o condition body) := by
  intro n r hn _
  simp only [fuel, tokens, List.length_cons, List.length_append, Symbol.cost] at hn
  obtain ⟨n, rfl⟩ := exists_succ hn
  rw [statement, get_bind]
  simp only [tokens, List.cons_append, List.append_assoc, set_bind]
  refine bind_ok.2 ⟨_, _, ihc n _ (by simp only [fuel, Symbol.cost, rank]; omega)
    (body.closed_scope _ _), ?_⟩
  exact bind_ok.2 ⟨_, _, ihb n r (by simp only [fuel, Symbol.cost]; omega), rfl⟩

theorem read_leave (o : Nat) : Read (.leave o) := by
  intro n r hn hr
  obtain ⟨n, rfl⟩ := exists_succ hn
  rw [statement, get_bind]
  simp only [tokens, List.cons_append, List.nil_append, set_bind]
  rw [if_pos (by simpa [AtEnd] using hr)]
  rfl

theorem read_leaveWith (o : Nat) {b : Bool} {value : Derivation (.expr .or b)}
    (ih : Read value) : Read (.leaveWith o value) := by
  intro n r hn hr
  simp only [fuel, tokens, List.length_cons, Symbol.cost] at hn
  obtain ⟨n, rfl⟩ := exists_succ hn
  have hs := (value.opening r).not_startsWith (g := .semicolon) rfl
  have hb := (value.opening r).not_startsWith (g := .closeBrace) rfl
  rw [statement, get_bind]
  simp only [tokens, List.cons_append, set_bind, hs, hb, Bool.or_self, Bool.false_eq_true,
    ↓reduceIte]
  exact bind_ok.2 ⟨_, _, ih n r (by simp only [fuel, Symbol.cost, rank]; omega) (hr.closed _), rfl⟩

theorem read_print (o : Nat) {b : Bool} {value : Derivation (.expr .or b)}
    (ih : Read value) : Read (.print o value) := by
  intro n r hn hr
  simp only [fuel, tokens, List.length_cons, Symbol.cost] at hn
  obtain ⟨n, rfl⟩ := exists_succ hn
  rw [statement, get_bind]
  simp only [tokens, List.cons_append, set_bind]
  exact bind_ok.2 ⟨_, _, ih n r (by simp only [fuel, Symbol.cost, rank]; omega) (hr.closed _), rfl⟩

theorem read_set (s : String) (o : Nat) {b : Bool} {sign : Derivation .assignment}
    {value : Derivation (.expr .or b)} (ih : Read value) : Read (.set s o sign value) := by
  intro n r hn hr
  simp only [fuel, tokens, List.length_cons, List.length_append, Symbol.cost] at hn
  obtain ⟨n, rfl⟩ := exists_succ hn
  rw [statement, get_bind]
  simp only [tokens, List.cons_append, List.append_assoc, sign.assignment?_tokens, set_bind]
  exact bind_ok.2 ⟨_, _, ih n r (by simp only [fuel, Symbol.cost, rank]; omega) (hr.closed _), rfl⟩

/-- What begins as an expression, with neither a brace nor an assigned name, is read as one. -/
theorem statement_eq_bare {ts : List Token} (h : Opening .or false ts)
    (hu : ∀ x o us, ts = ⟨.name x, o⟩ :: us → assignment? us = none) (n : Nat) :
    statement (n + 1) ts = bare n ts := by
  rw [statement, get_bind]
  split
  case h_11 =>
    split
    · next x o rest _ _ _ _ _ _ _ _ _ _ => rw [hu x o rest rfl]
    · rfl
  all_goals
    obtain ⟨t, us, e, ho, hb, hf⟩ := h
    obtain ⟨rfl, rfl⟩ := List.cons.inj e
    simp_all [Grammar.opens, Grammar.leads?, startsWith]

theorem read_eval {value : Derivation (.expr .or false)} (ih : Read value) :
    Read (.eval value) := by
  intro n r hn hr
  simp only [fuel, tokens, Symbol.cost] at hn
  obtain ⟨n, rfl⟩ : ∃ m, n = m + 2 := ⟨n - 2, by omega⟩
  obtain ⟨t, ts, e, -⟩ := value.starts
  have he := ih n r (by simp only [fuel, Symbol.cost, rank]; omega) (hr.closed _)
  have hq : startsWith .equal r = false := by
    rcases hr with h | h <;> obtain ⟨o, us, rfl⟩ := Grammar.startsWith_iff.1 h <;> rfl
  simp only [tokens]
  rw [statement_eq_bare (value.opening r), bare]
  · refine bind_ok.2 ⟨_, _, he, ?_⟩
    exact bind_ok.2 ⟨(), r, refuse_ok.2 ⟨hq, rfl⟩, rfl⟩
  · intro x o us hx
    rw [e, List.cons_append, List.cons.injEq] at hx
    obtain ⟨rfl, rfl⟩ := hx
    exact value.unassigned x o ts r e hr.unassigned

theorem read_done : Read .done := by
  intro n r read hn hr
  obtain ⟨n, rfl⟩ := exists_succ hn
  obtain ⟨c, us, rfl⟩ := Grammar.startsWith_iff.1 hr
  rfl

theorem read_terminated (o : Nat) : Read (.terminated o) := by
  intro n r read hn hr
  obtain ⟨n, rfl⟩ := exists_succ hn
  obtain ⟨c, us, rfl⟩ := Grammar.startsWith_iff.1 hr
  rfl

theorem read_next (o : Nat) {s : Derivation .statement} {more : Derivation .statements}
    (ihs : Read s) (ihm : Read more) : Read (.next o s more) := by
  intro n r read hn hr
  simp only [fuel, tokens, List.length_cons, List.length_append, Symbol.cost] at hn
  obtain ⟨n, rfl⟩ := exists_succ hn
  have hc : startsWith .closeBrace (s.tokens ++ (more.tokens ++ r)) = false :=
    Bool.eq_false_iff.2 fun h => by
      obtain ⟨c, us, e⟩ := Grammar.startsWith_iff.1 h
      exact s.statement_ne_closeBrace c _ us e.symm
  rw [moreStatements, get_bind]
  simp only [tokens, List.cons_append, List.append_assoc, set_bind, hc, Bool.false_eq_true,
    ↓reduceIte]
  refine bind_ok.2 ⟨_, _, ihs n _ (by simp only [fuel, Symbol.cost]; omega)
    (more.atEnd_statements hr), ?_⟩
  rw [ihm n r _ (by simp only [fuel, Symbol.cost]; omega) hr]
  simp [tree]

theorem read_unit {v : Bool} (o c : Nat) : Read (s := .scope v) (.unit o c) := by
  intro n r hn
  obtain ⟨n, rfl⟩ : ∃ m, n = m + 2 := ⟨n - 2, by simp [fuel, tokens] at hn; omega⟩
  cases v <;> rfl

theorem read_scope {v : Bool} (o c : Nat) {first : Derivation .statement}
    {more : Derivation .statements} (ihf : Read first) (ihm : Read more) :
    Read (s := .scope v) (.scope o first more c) := by
  intro n r hn
  simp only [fuel, tokens, List.length_cons, List.length_append, Symbol.cost] at hn
  obtain ⟨n, rfl⟩ := exists_succ hn
  have hf := ihf n (more.tokens ++ ⟨.sign .closeBrace, c⟩ :: r)
    (by simp only [fuel, Symbol.cost]; omega) (more.atEnd_statements rfl)
  have hm := ihm n (⟨.sign .closeBrace, c⟩ :: r) [first.tree]
    (by simp only [fuel, Symbol.cost]; omega) rfl
  rw [block]
  simp only [tokens, List.cons_append, List.append_assoc, List.nil_append]
  refine bind_ok.2 ⟨o, _, expect_ok.2 rfl, ?_⟩
  refine bind_ok.2 ⟨_, _, hf, ?_⟩
  refine bind_ok.2 ⟨_, _, hm, ?_⟩
  refine bind_ok.2 ⟨(), _, refuse_ok.2 ⟨rfl, rfl⟩, ?_⟩
  refine bind_ok.2 ⟨c, _, expect_ok.2 rfl, ?_⟩
  simp only [pure_ok, and_true, tree]
  split <;> simp [reverse_promoteHead]

/-! ## All phrases -/

theorem read {s : Symbol} (d : Derivation s) : Read d := by
  induction d with
  | unit o c => exact read_unit o c
  | scope o first more c ihf ihm => exact read_scope o c ihf ihm
  | done => exact read_done
  | terminated o => exact read_terminated o
  | next o s more ihs ihm => exact read_next o ihs ihm
  | block body ih => exact read_block ih
  | bind o d ih => exact read_bind o ih
  | define o d ih => exact read_define o ih
  | publicBind o o' d ih => exact read_publicBind o o' ih
  | publicDefine o o' d ih => exact read_publicDefine o o' ih
  | branch o condition body ihc ihb => exact read_branch o ihc ihb
  | leave o => exact read_leave o
  | leaveWith o value ih => exact read_leaveWith o ih
  | print o value ih => exact read_print o ih
  | set s o sign value _ ihv => exact read_set s o ihv
  | eval value ih => exact read_eval ih
  | binding s o sign value _ ihv => exact read_binding s o ihv
  | definition s o params body ihp ihb => exact read_definition s o ihp ihb
  | plain | compound => exact read_assignment _
  | noParameters o c => exact read_noParameters o c
  | parameters o s k more ih => exact read_parameters o s k ih
  | closeParameters c => exact read_closeParameters c
  | parameter o s k more ih => exact read_parameter o s k ih
  | prefixed k op h o e ih => exact read_prefixed h o ih
  | joined h first rest ihf ihr => exact read_joined h ihf ihr
  | called callee rest ihc ihr => exact read_called ihc ihr
  | noOperand => exact read_noOperand
  | operand k op h o right rest ihe ihr => exact read_operand h o ihe ihr
  | number | text | yes | no | name =>
    intro n r hn
    obtain ⟨n, rfl⟩ := exists_succ hn
    rfl
  | parens o e c ih => exact read_parens o c ih
  | function o params body ihp ihb => exact read_functionValue o ihp ihb
  | braces body ih => exact read_braces ih
  | noCall => exact read_noCall
  | call o args rest iha ihr => exact read_call o iha ihr
  | noArguments c => exact read_noArguments c
  | arguments first more ihf ihm => exact read_arguments ihf ihm
  | closeArguments c => exact read_closeArguments c
  | argument o e more ihe ihm => exact read_argument o ihe ihm

end Tree.Parse

end ScopeScript
