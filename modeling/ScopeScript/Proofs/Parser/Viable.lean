import Mathlib.Data.List.TakeWhile
import ScopeScript.Proofs.Parser.Exact

/-!
# What is taken before a failure is viable

A parser that fails has taken the beginning of a phrase of its class (`Stops`): whatever it was
still to read can be put behind, in its shortest form. `Early n` says this of all the parsers with
fuel `n`. Each calls the others with less fuel, so `Early n` gives `Early (n + 1)`; the parts that
were read to the end are derived (`sound`). For a whole token list it follows that the tokens in
front of the one a fault is reported at begin an accepted token list.
-/

namespace ScopeScript

namespace Grammar

open ScopeScript.Tree (Level)

variable {s s' : Symbol} {ts us r l : List Token}

/-- Between `ts` and `r`, the beginning of a phrase was taken. -/
def Stops (s : Symbol) (ts r : List Token) : Prop :=
  ∃ before, ts = before ++ r ∧ ∃ d : Derivation s, before <+: d.tokens

/-- Nothing was taken. -/
theorem Stops.start (d : Derivation s) (ts : List Token) : Stops s ts ts :=
  ⟨[], rfl, d, List.nil_prefix⟩

/-- A part of the phrase was taken, and the beginning of the next part. -/
theorem Stops.inside (h : Stops s us r) (l : List Token) (hts : ts = l ++ us)
    (f : Derivation s → Derivation s') (hf : ∀ d, l ++ d.tokens <+: (f d).tokens) :
    Stops s' ts r := by
  obtain ⟨before, rfl, d, hd⟩ := h
  refine ⟨l ++ before, by rw [hts, List.append_assoc], f d, ?_⟩
  exact ((List.prefix_append_right_inj l).2 hd).trans (hf d)

/-- Every level has an expression. -/
theorem exists_expr (ℓ : Level) : Nonempty (Derivation (.expr ℓ false)) := by
  by_cases h : ℓ = .call
  · subst h
    exact ⟨.called (.yes 0) .noCall⟩
  · have hrank := rank_tighter h
    have hle := rank_le ℓ.tighter
    obtain ⟨d⟩ := exists_expr ℓ.tighter
    exact ⟨.joined h d .noOperand⟩
termination_by 8 - rank ℓ

theorem Derivation.finish_notMem (d : Derivation s) : ∀ t ∈ d.tokens, t.kind ≠ .finish := by
  induction d with
  | compound k op h o o' =>
    have hk : k ≠ .finish := by
      rintro rfl
      cases h
    simpa [tokens] using hk
  | prefixed k op h o e ih =>
    have hk : k ≠ .finish := by
      rintro rfl
      cases h
    exact List.forall_mem_cons.2 ⟨hk, ih⟩
  | operand k op h o right rest ih ihr =>
    have hk : k ≠ .finish := by
      rintro rfl
      cases h
    exact List.forall_mem_cons.2 ⟨hk, List.forall_mem_append.2 ⟨ih, ihr⟩⟩
  | _ => simp_all [tokens, or_imp]

end Grammar

namespace Tree.Parse

open Grammar (Derivation Stops exists_expr)
open Grammar.Derivation (tokens)

variable {n : Nat} {ts r : List Token} {e : Expected}

theorem refuse_error {p : List Token → Bool} {e' : Expected} (h : refuse p e' ts = .error e r) :
    ts = r := by
  rw [refuse, get_bind] at h
  split at h
  · exact (throw_error.1 h).2
  · exact (pure_error.1 h).elim

theorem expect_error {g : Sign} {e' : Expected} (h : expect g e' ts = .error e r) : ts = r := by
  rw [expect, get_bind] at h
  split at h
  · split at h
    · exact (pure_error.1 h).elim
    · exact (throw_error.1 h).2
  · exact (throw_error.1 h).2

theorem name_error {e' : Expected} (h : name e' ts = .error e r) : ts = r := by
  rw [name, get_bind] at h
  split at h
  · exact (pure_error.1 h).elim
  · exact (throw_error.1 h).2

theorem assignment_error (h : assignment ts = .error e r) : ts = r := by
  rw [assignment, get_bind] at h
  cases ha : assignment? ts with
  | none =>
    rw [ha] at h
    exact (throw_error.1 h).2
  | some p =>
    rw [ha] at h
    exact (pure_error.1 h).elim

theorem moreParameters_early {fuel : Nat} {read : List String}
    (h : moreParameters fuel read ts = .error e r) : Stops .moreParameters ts r := by
  induction fuel generalizing read ts with
  | zero =>
    obtain ⟨-, rfl⟩ := throw_error.1 h
    exact .start (.closeParameters 0) ts
  | succ fuel ih =>
    rw [moreParameters, get_bind] at h
    split at h
    · next o rest =>
      rw [set_bind, bind_error] at h
      rcases h with h | ⟨⟨s, k⟩, r₁, hs, h⟩
      · obtain rfl := name_error h
        exact ⟨[⟨.sign .comma, o⟩], rfl, .parameter o "x" 0 (.closeParameters 0), by simp [tokens]⟩
      · obtain rfl := name_ok.1 hs
        exact (ih h).inside [⟨.sign .comma, o⟩, ⟨.name s, k⟩] rfl (.parameter o s k)
          (by simp [tokens])
    · rw [bind_error] at h
      rcases h with h | ⟨_, _, _, h⟩
      · obtain rfl := expect_error h
        exact .start (.closeParameters 0) ts
      · exact (pure_error.1 h).elim

theorem parameters_early (h : parameters ts = .error e r) : Stops .parameters ts r := by
  rw [parameters, bind_error] at h
  rcases h with h | ⟨o, r₁, ho, h⟩
  · obtain rfl := expect_error h
    exact .start (.noParameters 0 0) ts
  obtain rfl := expect_ok.1 ho
  rw [get_bind] at h
  split at h
  · rw [bind_error] at h
    rcases h with h | ⟨_, _, _, h⟩
    · obtain rfl := expect_error h
      exact ⟨[⟨.sign .openParen, o⟩], rfl, .noParameters o 0, by simp [tokens]⟩
    · exact (pure_error.1 h).elim
  · rw [bind_error] at h
    rcases h with h | ⟨⟨s, k⟩, r₂, hs, h⟩
    · obtain rfl := name_error h
      exact ⟨[⟨.sign .openParen, o⟩], rfl, .noParameters o 0, by simp [tokens]⟩
    · obtain rfl := name_ok.1 hs
      exact (moreParameters_early h).inside [⟨.sign .openParen, o⟩, ⟨.name s, k⟩] rfl
        (.parameters o s k) (by simp [tokens])

/-! ## What each parser takes before it fails -/

/-- The parsers with fuel `n` take nothing that could not begin a phrase. -/
structure Early (n : Nat) : Prop where
  expression : ∀ {ℓ ts e r}, expression n ℓ ts = .error e r → ∃ b, Stops (.expr ℓ b) ts r
  chain : ∀ {ℓ left ts e r}, chain n ℓ left ts = .error e r → Stops (.operands ℓ) ts r
  calls : ∀ {callee ts e r}, calls n callee ts = .error e r → Stops .calls ts r
  moreArguments : ∀ {read ts e r}, moreArguments n read ts = .error e r →
    Stops .moreArguments ts r
  primary : ∀ {ts e r}, primary n ts = .error e r → ∃ b, Stops (.primary b) ts r
  function : ∀ {o ts e r}, function n o ts = .error e r → ∃ before, ts = before ++ r ∧
    ∃ (p : Derivation .parameters) (d : Derivation (.scope true)), before <+: p.tokens ++ d.tokens
  block : ∀ {valued ts e r}, block n valued ts = .error e r → Stops (.scope valued) ts r
  moreStatements : ∀ {read ts e r}, moreStatements n read ts = .error e r → Stops .statements ts r
  statement : ∀ {ts e r}, statement n ts = .error e r → Stops .statement ts r
  bare : ∀ {ts e r}, bare n ts = .error e r → ∃ b, Stops (.expr .or b) ts r
  binding : ∀ {isPublic o ts e r}, binding n isPublic o ts = .error e r → Stops .binding ts r
  namedFunction : ∀ {isPublic o ts e r}, namedFunction n isPublic o ts = .error e r →
    Stops .definition ts r

theorem stops_expr (ℓ : Level) (ts : List Token) : ∃ b, Stops (.expr ℓ b) ts ts := by
  obtain ⟨d⟩ := exists_expr ℓ
  exact ⟨false, .start d ts⟩

theorem stops_binding (ts : List Token) : Stops .binding ts ts := by
  obtain ⟨d⟩ := exists_expr .or
  exact .start (.binding "x" 0 (.plain 0) d) ts

theorem early_zero : Early 0 := by
  constructor
  all_goals
    intros
    obtain ⟨-, rfl⟩ := throw_error.1 (by assumption)
  case expression => exact stops_expr _ _
  case chain => exact .start .noOperand _
  case calls => exact .start .noCall _
  case moreArguments => exact .start (.closeArguments 0) _
  case primary => exact ⟨false, .start (.yes 0) _⟩
  case function => exact ⟨[], rfl, .noParameters 0 0, .unit 0 0, List.nil_prefix⟩
  case block => exact .start (.unit 0 0) _
  case moreStatements => exact .start .done _
  case statement => exact .start (.leave 0) _
  case bare => exact stops_expr _ _
  case binding => exact stops_binding _
  case namedFunction => exact .start (.definition "f" 0 (.noParameters 0 0) (.unit 0 0)) _

/-! ## Expressions -/

theorem expression_early (ih : Early n) {ℓ : Level}
    (h : expression (n + 1) ℓ ts = .error e r) : ∃ b, Stops (.expr ℓ b) ts r := by
  by_cases hℓ : ℓ = .call
  · subst hℓ
    rw [expression_call, bind_error] at h
    rcases h with h | ⟨callee, r₁, hc, h⟩
    · obtain ⟨b, hs⟩ := ih.primary h
      exact ⟨b, hs.inside [] rfl (.called · .noCall) (by simp [tokens])⟩
    · obtain ⟨b, d, rfl, -⟩ := (sound n).primary hc
      exact ⟨b, (ih.calls h).inside d.tokens rfl (.called d) (by simp [tokens])⟩
  · rw [expression_ne_call hℓ, get_bind] at h
    cases hp : prefixOp? ℓ ts with
    | some p =>
      obtain ⟨op, o, rest⟩ := p
      obtain ⟨k, rfl, hk⟩ := prefixOp?_eq_some hp
      simp only [hp, set_bind, bind_error, pure_error, and_false, exists_false, or_false] at h
      obtain ⟨b, hs⟩ := ih.expression h
      exact ⟨false, hs.inside [⟨k, o⟩] rfl (.prefixed k op hk o) (by simp [tokens])⟩
    | none =>
      simp only [hp, bind_error] at h
      rcases h with h | ⟨left, r₁, hl, h⟩
      · obtain ⟨b, hs⟩ := ih.expression h
        exact ⟨b, hs.inside [] rfl (.joined hℓ · .noOperand) (by simp [tokens])⟩
      · obtain ⟨b, d, rfl, -⟩ := (sound n).expression hl
        exact ⟨b, (ih.chain h).inside d.tokens rfl (.joined hℓ d) (by simp [tokens])⟩

theorem chain_early (ih : Early n) {ℓ : Level} {left : Expr}
    (h : chain (n + 1) ℓ left ts = .error e r) : Stops (.operands ℓ) ts r := by
  rw [chain, get_bind] at h
  cases hp : operator? ℓ ts with
  | some p =>
    obtain ⟨op, o, rest⟩ := p
    obtain ⟨k, rfl, hk⟩ := operator?_eq_some hp
    simp only [hp, set_bind, bind_error] at h
    rcases h with h | ⟨right, r₁, hr, h⟩
    · obtain ⟨b, hs⟩ := ih.expression h
      exact hs.inside [⟨k, o⟩] rfl (.operand k op hk o · .noOperand) (by simp [tokens])
    · obtain ⟨b, d, rfl, -⟩ := (sound n).expression hr
      exact (ih.chain h).inside (⟨k, o⟩ :: d.tokens) rfl (.operand k op hk o d) (by simp [tokens])
  | none =>
    simp only [hp, pure_error] at h

theorem calls_early (ih : Early n) {callee : Expr} (h : calls (n + 1) callee ts = .error e r) :
    Stops .calls ts r := by
  rw [calls, get_bind] at h
  split at h
  · next o rest =>
    rw [set_bind] at h
    split at h
    · rw [bind_error] at h
      rcases h with h | ⟨c, r₁, hc, h⟩
      · obtain rfl := expect_error h
        exact ⟨[⟨.sign .openParen, o⟩], rfl, .call o (.noArguments 0) .noCall, by simp [tokens]⟩
      · obtain rfl := expect_ok.1 hc
        exact (ih.calls h).inside [⟨.sign .openParen, o⟩, ⟨.sign .closeParen, c⟩] rfl
          (.call o (.noArguments c)) (by simp [tokens])
    · simp only [bind_error] at h
      rcases h with h | ⟨first, r₁, hf, h⟩
      · obtain ⟨b, hs⟩ := ih.expression h
        exact hs.inside [⟨.sign .openParen, o⟩] rfl
          (fun d => .call o (.arguments d (.closeArguments 0)) .noCall) (by simp [tokens])
      · obtain ⟨b, d, rfl, -⟩ := (sound n).expression hf
        rcases h with h | ⟨args, r₂, ha, h⟩
        · exact (ih.moreArguments h).inside (⟨.sign .openParen, o⟩ :: d.tokens) rfl
            (fun d' => .call o (.arguments d d') .noCall) (by simp [tokens])
        · obtain ⟨d', rfl, -⟩ := (sound n).moreArguments ha
          exact (ih.calls h).inside (⟨.sign .openParen, o⟩ :: (d.tokens ++ d'.tokens)) (by simp)
            (.call o (.arguments d d')) (by simp [tokens])
  · exact (pure_error.1 h).elim

theorem moreArguments_early (ih : Early n) {read : List Expr}
    (h : moreArguments (n + 1) read ts = .error e r) : Stops .moreArguments ts r := by
  rw [moreArguments, get_bind] at h
  split at h
  · next o rest =>
    simp only [set_bind, bind_error] at h
    rcases h with h | ⟨arg, r₁, ha, h⟩
    · obtain ⟨b, hs⟩ := ih.expression h
      exact hs.inside [⟨.sign .comma, o⟩] rfl (.argument o · (.closeArguments 0))
        (by simp [tokens])
    · obtain ⟨b, d, rfl, -⟩ := (sound n).expression ha
      exact (ih.moreArguments h).inside (⟨.sign .comma, o⟩ :: d.tokens) rfl (.argument o d)
        (by simp [tokens])
  · rw [bind_error] at h
    rcases h with h | ⟨_, _, _, h⟩
    · obtain rfl := expect_error h
      exact .start (.closeArguments 0) ts
    · exact (pure_error.1 h).elim

theorem function_early (ih : Early n) {o : Nat} (h : function (n + 1) o ts = .error e r) :
    ∃ before, ts = before ++ r ∧ ∃ (p : Derivation .parameters) (d : Derivation (.scope true)),
      before <+: p.tokens ++ d.tokens := by
  simp only [function, bind_error, pure_error, and_false, exists_false, or_false] at h
  rcases h with h | ⟨params, r₁, hp, h⟩
  · obtain ⟨before, rfl, p, hp⟩ := parameters_early h
    exact ⟨before, rfl, p, .unit 0 0, hp.trans (List.prefix_append ..)⟩
  · obtain ⟨p, rfl, -⟩ := parameters_sound hp
    obtain ⟨before, rfl, d, hd⟩ := ih.block h
    exact ⟨p.tokens ++ before, by simp, p, d, (List.prefix_append_right_inj _).2 hd⟩

theorem primary_early (ih : Early n) (h : primary (n + 1) ts = .error e r) :
    ∃ b, Stops (.primary b) ts r := by
  rw [primary, get_bind] at h
  split at h
  · exact (pure_error.1 h).elim
  · exact (pure_error.1 h).elim
  · exact (pure_error.1 h).elim
  · exact (pure_error.1 h).elim
  · exact (pure_error.1 h).elim
  · next o rest =>
    simp only [set_bind, bind_error, pure_error, and_false, exists_false, or_false] at h
    rcases h with h | ⟨inner, r₁, hi, h⟩
    · obtain ⟨b, hs⟩ := ih.expression h
      exact ⟨false, hs.inside [⟨.sign .openParen, o⟩] rfl (.parens o · 0) (by simp [tokens])⟩
    · obtain ⟨b, d, rfl, -⟩ := (sound n).expression hi
      obtain rfl := expect_error h
      exact ⟨false, ⟨.sign .openParen, o⟩ :: d.tokens, rfl, .parens o d 0, by simp [tokens]⟩
  · next o rest =>
    rw [set_bind] at h
    obtain ⟨before, rfl, p, d, hd⟩ := ih.function h
    exact ⟨false, ⟨.keyword .fn, o⟩ :: before, rfl, .function o p d, by simpa [tokens] using hd⟩
  · next o rest =>
    simp only [bind_error, pure_error, and_false, exists_false, or_false] at h
    exact ⟨true, (ih.block h).inside [] rfl .braces (by simp [tokens])⟩
  · obtain ⟨-, rfl⟩ := throw_error.1 h
    exact ⟨false, .start (.yes 0) ts⟩

/-- In front of a closing brace there are no further statements. -/
theorem statements_of_closeBrace {d : Derivation .statements} {before us : List Token} {c : Nat}
    (hd : before <+: d.tokens) (h : before ++ r = ⟨.sign .closeBrace, c⟩ :: us) : before = [] := by
  cases before with
  | nil => rfl
  | cons t before =>
    obtain ⟨more, hmore⟩ := hd
    cases (List.cons.inj h).1
    cases d <;> cases hmore

theorem block_early (ih : Early n) {valued : Bool} (h : block (n + 1) valued ts = .error e r) :
    Stops (.scope valued) ts r := by
  simp only [block, bind_error, pure_error, and_false, exists_false, or_false] at h
  rcases h with h | ⟨o, r₁, ho, h⟩
  · obtain rfl := expect_error h
    exact .start (.unit 0 0) ts
  obtain rfl := expect_ok.1 ho
  rcases h with h | ⟨first, r₂, hf, h⟩
  · exact (ih.statement h).inside [⟨.sign .openBrace, o⟩] rfl (.scope o · .done 0)
      (by simp [tokens])
  -- Whatever of the further statements was read, a closing brace completes the scope.
  obtain ⟨before, rfl, d', hd'⟩ : Stops .statements r₂ r := by
    rcases h with h | ⟨⟨read, terminated⟩, r₃, hm, h⟩
    · exact ih.moreStatements h
    · obtain ⟨d', rfl, -⟩ := (sound n).moreStatements hm
      have hr : r₃ = r := by
        rcases h with h | ⟨_, _, hok, h⟩
        · exact refuse_error h
        · obtain ⟨-, rfl⟩ := refuse_ok.1 hok
          exact expect_error h
      exact ⟨d'.tokens, by rw [hr], d', List.prefix_rfl⟩
  obtain ⟨d, rfl, -⟩ | ⟨rfl, c, us, hc, -⟩ := (sound n).statement hf
  · refine ⟨⟨.sign .openBrace, o⟩ :: (d.tokens ++ before), by simp, .scope o d d' 0, ?_⟩
    simpa [tokens] using hd'.trans (List.prefix_append ..)
  · obtain rfl := statements_of_closeBrace hd' hc
    exact ⟨[⟨.sign .openBrace, o⟩], rfl, .unit o 0, by simp [tokens]⟩

theorem moreStatements_early (ih : Early n) {read : List Stmt}
    (h : moreStatements (n + 1) read ts = .error e r) : Stops .statements ts r := by
  rw [moreStatements, get_bind] at h
  split at h
  · next o rest =>
    rw [set_bind] at h
    split at h
    · exact (pure_error.1 h).elim
    · next hb =>
      rw [bind_error] at h
      rcases h with h | ⟨s, r₁, hs, h⟩
      · exact (ih.statement h).inside [⟨.sign .semicolon, o⟩] rfl (.next o · .done)
          (by simp [tokens])
      · obtain ⟨d, rfl, -⟩ | ⟨rfl, c, us, hc, -⟩ := (sound n).statement hs
        · exact (ih.moreStatements h).inside (⟨.sign .semicolon, o⟩ :: d.tokens) rfl (.next o d)
            (by simp [tokens])
        · exact absurd (Grammar.startsWith_iff.2 ⟨c, us, hc⟩) hb
  · exact (pure_error.1 h).elim

/-! ## Statements -/

theorem bare_early (ih : Early n) (h : bare (n + 1) ts = .error e r) :
    ∃ b, Stops (.expr .or b) ts r := by
  simp only [bare, bind_error, pure_error, and_false, exists_false, or_false] at h
  rcases h with h | ⟨value, r₁, hv, h⟩
  · exact ih.expression h
  · obtain ⟨b, d, rfl, -⟩ := (sound n).expression hv
    obtain rfl := refuse_error h
    exact ⟨b, d.tokens, rfl, d, List.prefix_rfl⟩

theorem binding_early (ih : Early n) {isPublic : Bool} {o : Nat}
    (h : binding (n + 1) isPublic o ts = .error e r) : Stops .binding ts r := by
  simp only [binding, bind_error, pure_error, and_false, exists_false, or_false] at h
  rcases h with h | ⟨⟨x, k⟩, r₁, hx, h⟩
  · obtain rfl := name_error h
    exact stops_binding ts
  obtain rfl := name_ok.1 hx
  rcases h with h | ⟨op, r₂, ha, h⟩
  · obtain rfl := assignment_error h
    obtain ⟨d⟩ := exists_expr .or
    exact ⟨[⟨.name x, k⟩], rfl, .binding x k (.plain 0) d, by simp [tokens]⟩
  · obtain ⟨sign, rfl, -⟩ := assignment?_eq_some (assignment_ok.1 ha)
    obtain ⟨b, hs⟩ := ih.expression h
    exact hs.inside (⟨.name x, k⟩ :: sign.tokens) rfl (.binding x k sign) (by simp [tokens])

theorem namedFunction_early (ih : Early n) {isPublic : Bool} {o : Nat}
    (h : namedFunction (n + 1) isPublic o ts = .error e r) : Stops .definition ts r := by
  simp only [namedFunction, bind_error, pure_error, and_false, exists_false, or_false] at h
  rcases h with h | ⟨⟨x, k⟩, r₁, hx, h⟩
  · obtain rfl := name_error h
    exact .start (.definition "f" 0 (.noParameters 0 0) (.unit 0 0)) ts
  · obtain rfl := name_ok.1 hx
    obtain ⟨before, rfl, p, d, hd⟩ := ih.function h
    exact ⟨⟨.name x, k⟩ :: before, rfl, .definition x k p d, by simpa [tokens] using hd⟩

/-- What an expression has taken that does not begin with a brace begins a statement. -/
theorem stops_of_bare (ih : Early n) (h : bare n ts = .error e r)
    (hb : ¬ startsWith .openBrace ts) : Stops .statement ts r := by
  obtain ⟨b, before, rfl, d, hd⟩ := ih.bare h
  cases b with
  | false => exact ⟨before, rfl, .eval d, hd⟩
  | true =>
    cases before with
    | nil => exact .start (.leave 0) r
    | cons t before =>
      obtain ⟨more, hmore⟩ := hd
      obtain ⟨t', us, htokens, -, hbr, -⟩ := d.starts
      refine absurd (Grammar.startsWith_iff.2 ⟨t.offset, before ++ r, ?_⟩) hb
      rw [htokens] at hmore
      rw [List.cons_append, (List.cons.inj hmore).1, ← hbr.1 rfl]

theorem statement_early (ih : Early n) (h : statement (n + 1) ts = .error e r) :
    Stops .statement ts r := by
  rw [statement, get_bind] at h
  split at h
  · simp only [bind_error, pure_error, and_false, exists_false, or_false] at h
    exact (ih.block h).inside [] rfl .block (by simp [tokens])
  · next o rest =>
    exact (ih.binding h).inside [⟨.keyword .let, o⟩] rfl (.bind o) (by simp [tokens])
  · next o o' rest =>
    exact (ih.binding h).inside [⟨.keyword .pub, o⟩, ⟨.keyword .let, o'⟩] rfl (.publicBind o o')
      (by simp [tokens])
  · next o o' rest =>
    exact (ih.namedFunction h).inside [⟨.keyword .pub, o⟩, ⟨.keyword .fn, o'⟩] rfl
      (.publicDefine o o') (by simp [tokens])
  · next o rest _ _ =>
    rw [set_bind] at h
    obtain ⟨-, rfl⟩ := throw_error.1 h
    obtain ⟨d⟩ := exists_expr .or
    exact ⟨[⟨.keyword .pub, o⟩], rfl, .publicBind o 0 (.binding "x" 0 (.plain 0) d),
      by simp [tokens]⟩
  · next o x k rest =>
    rw [set_bind] at h
    exact (ih.namedFunction h).inside [⟨.keyword .fn, o⟩] rfl (.define o) (by simp [tokens])
  · next o rest =>
    simp only [set_bind, bind_error, pure_error, and_false, exists_false, or_false] at h
    rcases h with h | ⟨condition, r₁, hc, h⟩
    · obtain ⟨b, hs⟩ := ih.expression h
      exact hs.inside [⟨.keyword .if, o⟩] rfl (.branch o · (.unit 0 0)) (by simp [tokens])
    · obtain ⟨b, d, rfl, -⟩ := (sound n).expression hc
      exact (ih.block h).inside (⟨.keyword .if, o⟩ :: d.tokens) rfl (.branch o d)
        (by simp [tokens])
  · next o rest =>
    rw [set_bind] at h
    split at h
    · exact (pure_error.1 h).elim
    · simp only [bind_error, pure_error, and_false, exists_false, or_false] at h
      obtain ⟨b, hs⟩ := ih.expression h
      exact hs.inside [⟨.keyword .return, o⟩] rfl (.leaveWith o) (by simp [tokens])
  · next o rest =>
    simp only [set_bind, bind_error, pure_error, and_false, exists_false, or_false] at h
    obtain ⟨b, hs⟩ := ih.expression h
    exact hs.inside [⟨.keyword .print, o⟩] rfl (.print o) (by simp [tokens])
  · exact (pure_error.1 h).elim
  · next hbrace _ _ _ _ _ _ _ _ _ =>
    have hb : ¬ startsWith .openBrace ts := fun hs => by
      obtain ⟨o, us, rfl⟩ := Grammar.startsWith_iff.1 hs
      exact hbrace o us rfl
    split at h
    · next x o rest _ _ _ _ _ _ _ _ _ =>
      cases ha : assignment? rest with
      | some p =>
        obtain ⟨op, rest'⟩ := p
        simp only [ha, set_bind, bind_error, pure_error, and_false, exists_false, or_false] at h
        obtain ⟨sign, rfl, -⟩ := assignment?_eq_some ha
        obtain ⟨b, hs⟩ := ih.expression h
        exact hs.inside (⟨.name x, o⟩ :: sign.tokens) rfl (.set x o sign) (by simp [tokens])
      | none =>
        simp only [ha] at h
        exact stops_of_bare ih h hb
    · exact stops_of_bare ih h hb

/-! ## All parsers -/

theorem early : ∀ n : Nat, Early n
  | 0 => early_zero
  | n + 1 =>
    have ih := early n
    { expression := expression_early ih
      chain := chain_early ih
      calls := calls_early ih
      moreArguments := moreArguments_early ih
      primary := primary_early ih
      function := function_early ih
      block := block_early ih
      moreStatements := moreStatements_early ih
      statement := statement_early ih
      bare := bare_early ih
      binding := binding_early ih
      namedFunction := namedFunction_early ih }

theorem whole_early (h : whole n ts = .error e r) : Stops (.scope true) ts r := by
  simp only [whole, bind_error, pure_error, and_false, exists_false, or_false] at h
  rcases h with h | ⟨root, r₁, hroot, h⟩
  · exact (early n).block h
  · obtain ⟨d, rfl, -⟩ := (sound n).block hroot
    obtain rfl := refuse_error h
    exact ⟨d.tokens, rfl, d, List.prefix_rfl⟩

end Tree.Parse

/-! ## Whole token lists -/

namespace Tree

open Parse

variable {ts : List Token} {p : Nat}

theorem body_tokens {s : Grammar.Symbol} (d : Grammar.Derivation s) : body d.tokens = d.tokens := by
  unfold body
  rw [List.takeWhile_eq_self_iff]
  exact fun t ht => bne_iff_ne.2 (d.finish_notMem t ht)

theorem body_prefix (ts : List Token) : body ts <+: ts := List.takeWhile_prefix _

theorem error_of_parse {f : ParseFault} (h : parse ts = .error f) :
    ∃ r, whole (fuelFor ts) (body ts) = .error f.expected r ∧
      f.found = r.head?.getD ⟨.finish, endOffset ts⟩ := by
  unfold parse at h
  split at h
  · cases h
  · next e he =>
    cases h
    exact ⟨[], he, rfl⟩
  · next e t r he =>
    cases h
    exact ⟨t :: r, he, rfl⟩

/-- Behind the body stands a `finish`, unless there is none. -/
theorem eq_body_or (ts : List Token) :
    ts = body ts ∨ ∃ rest, ts = body ts ++ ⟨.finish, endOffset ts⟩ :: rest := by
  have hsplit : body ts ++ ts.dropWhile (·.kind != .finish) = ts := List.takeWhile_append_dropWhile
  cases hrest : ts.dropWhile (·.kind != .finish) with
  | nil => exact .inl (by rw [hrest, List.append_nil] at hsplit; exact hsplit.symm)
  | cons t rest =>
    have hkind : t.kind = .finish := by
      have hhead := List.head?_dropWhile_not (·.kind != .finish) ts
      rw [hrest] at hhead
      simpa using hhead
    have hbody : (body ts).find? (·.kind == .finish) = none := by
      rw [List.find?_eq_none]
      intro u hu
      have hne := List.mem_takeWhile_imp hu
      simpa using hne
    have hoffset : endOffset ts = t.offset := by
      have hfind : ts.find? (·.kind == .finish) = some t := by
        rw [← hsplit, hrest, List.find?_append, hbody, List.find?_cons_of_pos (by simp [hkind])]
        rfl
      rw [endOffset, hfind]
    have ht : t = ⟨.finish, endOffset ts⟩ := by rw [hoffset, ← hkind]
    exact .inr ⟨rest, by rw [← ht, ← hrest, hsplit]⟩

/-- Behind the body stands a token that marks the end. -/
theorem append_finish (ts : List Token) :
    ∃ rest, ts ++ [⟨.finish, endOffset ts⟩] = body ts ++ ⟨.finish, endOffset ts⟩ :: rest := by
  rcases eq_body_or ts with hbody | ⟨rest, hrest⟩
  · exact ⟨[], by rw [← hbody]⟩
  · refine ⟨rest ++ [⟨.finish, endOffset ts⟩], ?_⟩
    rw [← List.cons_append, ← List.append_assoc, ← hrest]

theorem getElem?_of_le_length_body (h : p ≤ (body ts).length) :
    (ts ++ [⟨.finish, endOffset ts⟩])[p]? =
      some (((body ts).drop p).head?.getD ⟨.finish, endOffset ts⟩) := by
  obtain ⟨rest, hrest⟩ := append_finish ts
  rw [hrest, List.head?_drop]
  rcases Nat.lt_or_eq_of_le h with hlt | rfl
  · rw [List.getElem?_append_left hlt, List.getElem?_eq_getElem hlt]
    rfl
  · simp

end Tree

/-- A fault is never late: where the parser stops with it, in front of the token with number `p`,
the tokens it has taken begin an accepted token list. -/
theorem Program.ofTokens_viable {ts : List Token} {fault : Fault}
    (h : Program.ofTokens ts = .error fault) :
    ∃ (f : Tree.ParseFault) (p : Nat), fault = .parse f ∧
      Tree.Parse.whole (Tree.fuelFor ts) (Tree.body ts) =
        .error f.expected ((Tree.body ts).drop p) ∧
      p ≤ (Tree.body ts).length ∧ (ts ++ [⟨.finish, Tree.endOffset ts⟩])[p]? = some f.found ∧
      ∃ more program, Program.ofTokens (ts.take p ++ more) = .ok program := by
  unfold Program.ofTokens at h
  split at h
  · next f hf =>
    cases h
    obtain ⟨r, hwhole, hfound⟩ := Tree.error_of_parse hf
    obtain ⟨before, hbody, d, more, hmore⟩ := Tree.Parse.whole_early hwhole
    have hle : before.length ≤ (Tree.body ts).length := by
      rw [hbody, List.length_append]
      omega
    have hr : (Tree.body ts).drop before.length = r := by rw [hbody, List.drop_left]
    have htake : ts.take before.length = before := by
      obtain ⟨rest, hrest⟩ := Tree.body_prefix ts
      rw [← hrest, hbody, List.append_assoc, List.take_left]
    have haccepted : Tree.parse (ts.take before.length ++ more) = .ok d.tree :=
      Tree.parse_eq_ok_iff.2 ⟨d, by rw [htake, hmore, Tree.body_tokens], rfl⟩
    refine ⟨f, before.length, rfl, ?_, hle, ?_, more, .ofTree d.tree, ?_⟩
    · rw [hr, hwhole]
    · rw [Tree.getElem?_of_le_length_body hle, hr, hfound]
    · unfold Program.ofTokens
      rw [haccepted]
  · cases h

/-- An argument is missing: `f(true,` can go on, up to there and no further. -/
theorem Program.ofTokens_viable_argument :
    let ts : List Token := [⟨.sign .openBrace, 0⟩, ⟨.name "f", 0⟩, ⟨.sign .openParen, 1⟩,
      ⟨.keyword .true, 2⟩, ⟨.sign .comma, 6⟩, ⟨.sign .closeParen, 7⟩, ⟨.sign .closeBrace, 8⟩,
      ⟨.finish, 8⟩]
    Program.ofTokens ts = .error (.parse ⟨.expression, ⟨.sign .closeParen, 7⟩⟩) ∧
      ∃ more program, Program.ofTokens (ts.take 5 ++ more) = .ok program := by
  intro ts
  have herror : Program.ofTokens ts =
      .error (.parse ⟨.expression, ⟨.sign .closeParen, 7⟩⟩) := rfl
  refine ⟨herror, ?_⟩
  obtain ⟨f, p, hf, hwhole, hle, -, hviable⟩ := ofTokens_viable herror
  cases hf
  have hrest : (Tree.body ts).drop p = [⟨.sign .closeParen, 7⟩, ⟨.sign .closeBrace, 8⟩] :=
    (EStateM.Result.error.inj hwhole).2.symm
  have hseven : (Tree.body ts).length = 7 := rfl
  have hlength := congrArg List.length hrest
  rw [List.length_drop, hseven] at hlength
  have hp : p = 5 := by
    dsimp only [List.length] at hlength
    omega
  rwa [hp] at hviable

end ScopeScript
