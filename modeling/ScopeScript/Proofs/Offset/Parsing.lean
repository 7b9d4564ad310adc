import ScopeScript.Proofs.Offset.Matching
import ScopeScript.Proofs.Parser.Soundness

/-!
# Parsing carries offsets along

Token lists that match are parsed alike: into trees that match, or up to tokens that match with the
same thing expected there (`Tree.matches_parse`). No parser looks at an offset; it only copies the
offsets of the tokens it takes. The proof goes parser by parser, by induction on the fuel.
-/

namespace ScopeScript

open Token (AllMatch)

variable {A : Alignment}

namespace Tree

theorem Expr.Matches.offset {e e' : Expr} (h : Expr.Matches A e e') :
    A.place e.offset e'.offset := by
  cases h <;> assumption

theorem Stmt.Matches.promote {s s' : Stmt} (h : Stmt.Matches A s s') :
    Stmt.Matches A s.promote s'.promote := by
  cases h with
  | eval he => exact .result he he.offset
  | block hb ho => exact .result (.scope hb ho) ho
  | bind s isPublic he ho => exact .bind s isPublic he ho
  | set s op he ho => exact .set s op he ho
  | branch he hb ho => exact .branch he hb ho
  | print he ho hp => exact .print he ho hp
  | result he ho => exact .result he ho
  | empty ho => exact .empty ho

theorem matches_promoteHead {ss ss' : List Stmt} (h : List.Forall₂ (Stmt.Matches A) ss ss') :
    List.Forall₂ (Stmt.Matches A) (promoteHead ss) (promoteHead ss') := by
  cases h with
  | nil => exact .nil
  | cons hs hss => exact .cons hs.promote hss

theorem matches_boundValue (s : String) (op : BinaryOp) {o o' : Nat} {e e' : Expr}
    (ho : A.place o o') (he : Expr.Matches A e e') :
    Expr.Matches A (Parse.boundValue s o op e) (Parse.boundValue s o' op e') := by
  cases op with
  | assign => exact he
  | _ => exact .binary _ (.var s ho) he ho

namespace Parse

/-! ## Looking ahead -/

section Lookahead

variable {ts ts' : List Token}

theorem startsWith_eq (g : Sign) (h : AllMatch A ts ts') : startsWith g ts' = startsWith g ts := by
  cases h with
  | nil => rfl
  | cons ht _ =>
    cases ht with
    | @mk k o o' _ _ => cases k <;> rfl

theorem startsWithName_eq (h : AllMatch A ts ts') : startsWithName ts' = startsWithName ts := by
  cases h with
  | nil => rfl
  | cons ht _ =>
    cases ht with
    | @mk k o o' _ _ => cases k <;> rfl

theorem isEmpty_eq (h : AllMatch A ts ts') : ts'.isEmpty = ts.isEmpty := by
  cases h <;> rfl

/-- What was taken off the tokens, where, and what is left. -/
inductive Taken (A : Alignment) {β : Type} :
    β × Nat × List Token → β × Nat × List Token → Prop where
  | mk (b : β) {o o' : Nat} {r r' : List Token} : A.place o o' → AllMatch A r r' →
      Taken A (b, o, r) (b, o', r')

theorem prefixOp?_rel (ℓ : Level) (h : AllMatch A ts ts') :
    Option.Rel (Taken A) (prefixOp? ℓ ts) (prefixOp? ℓ ts') := by
  cases h with
  | nil => exact .none
  | cons ht hts =>
    cases ht with
    | @mk k o o' ho _ =>
      simp only [prefixOp?]
      cases ℓ.prefixOp? k with
      | none => exact .none
      | some op => exact .some (.mk op ho hts)

theorem operator?_rel (ℓ : Level) (h : AllMatch A ts ts') :
    Option.Rel (Taken A) (operator? ℓ ts) (operator? ℓ ts') := by
  cases h with
  | nil => exact .none
  | cons ht hts =>
    cases ht with
    | @mk k o o' ho _ =>
      simp only [operator?, startsWith_eq .equal hts]
      split
      · exact .none
      · cases ℓ.operator? k with
        | none => exact .none
        | some op => exact .some (.mk op ho hts)

inductive Assigned (A : Alignment) : BinaryOp × List Token → BinaryOp × List Token → Prop where
  | mk (op : BinaryOp) {r r' : List Token} : AllMatch A r r' → Assigned A (op, r) (op, r')

theorem assignment?_rel (h : AllMatch A ts ts') :
    Option.Rel (Assigned A) (assignment? ts) (assignment? ts') := by
  cases h with
  | nil => exact .none
  | @cons _ _ rest rest' ht hts =>
    cases ht with
    | @mk k o o' _ _ =>
      by_cases hk : k = .sign .equal
      · subst hk
        exact .some (.mk .assign hts)
      by_cases hs : startsWith .equal rest = true
      · obtain ⟨c, r, rfl⟩ := Grammar.startsWith_iff.1 hs
        cases hts with
        | cons ht hr =>
          cases ht
          rw [assignment?_compound hk, assignment?_compound hk]
          cases compound? k with
          | none => exact .none
          | some op => exact .some (.mk op hr)
      · rw [Bool.not_eq_true] at hs
        rw [Grammar.assignment?_cons o hk (.inr hs),
          Grammar.assignment?_cons o' hk (.inr (startsWith_eq .equal hts ▸ hs))]
        exact .none

end Lookahead

variable {α : Type} {R : α → α → Prop}

/-- Two parsers that agree on token lists that match. -/
abbrev Aligned (A : Alignment) (R : α → α → Prop) (x x' : Parse α) : Prop :=
  Agree Eq (AllMatch A) R x x'

theorem aligned_refuse {p : List Token → Bool} (e : Expected)
    (hp : ∀ {ts ts'}, AllMatch A ts ts' → p ts' = p ts) :
    Aligned A Eq (refuse p e) (refuse p e) := by
  refine Agree.get_bind fun {ts ts'} hts => ?_
  rw [hp hts]
  cases p ts with
  | true => exact .error rfl hts
  | false => exact .ok rfl hts

theorem aligned_expect (g : Sign) (e : Expected) : Aligned A A.place (expect g e) (expect g e) := by
  refine Agree.get_bind fun {ts ts'} hts => ?_
  cases hts with
  | nil => exact .error rfl .nil
  | cons ht hts =>
    cases ht with
    | @mk k o o' ho hp =>
      cases k with
      | sign g' =>
        by_cases hg : g' = g
        · simp only [hg, if_true]
          exact .ok ho hts
        · simp only [hg, if_false]
          exact .error rfl (.cons (.mk ho hp) hts)
      | _ => exact .error rfl (.cons (.mk ho hp) hts)

inductive Named (A : Alignment) : String × Nat → String × Nat → Prop where
  | mk (s : String) {o o' : Nat} : A.place o o' → Named A (s, o) (s, o')

theorem aligned_name (e : Expected) : Aligned A (Named A) (name e) (name e) := by
  refine Agree.get_bind fun {ts ts'} hts => ?_
  cases hts with
  | nil => exact .error rfl .nil
  | cons ht hts =>
    cases ht with
    | @mk k o o' ho hp =>
      cases k with
      | name s => exact .ok (.mk s ho) hts
      | _ => exact .error rfl (.cons (.mk ho hp) hts)

theorem aligned_assignment : Aligned A Eq assignment assignment := by
  refine Agree.get_bind fun {ts ts'} hts => ?_
  have h := assignment?_rel hts
  generalize assignment? ts = q at h ⊢
  generalize assignment? ts' = q' at h ⊢
  cases h with
  | none => exact .error rfl hts
  | some h =>
    cases h with
    | mk op hr => exact .ok rfl hr

theorem aligned_moreParameters : ∀ (fuel : Nat) (read : List String),
    Aligned A Eq (moreParameters fuel read) (moreParameters fuel read)
  | 0, _ => Agree.throw rfl
  | fuel + 1, read => by
    refine Agree.get_bind fun {ts ts'} hts => ?_
    have hclose : Aligned A Eq (do let _ ← expect .closeParen .closeParameters; return read.reverse)
        (do let _ ← expect .closeParen .closeParameters; return read.reverse) :=
      (aligned_expect _ _).bind fun _ => Agree.pure rfl
    cases hts with
    | nil => exact hclose .nil
    | cons ht hr =>
      cases ht with
      | @mk k o o' ho hp =>
        have hts := hclose (List.Forall₂.cons (.mk ho hp) hr)
        cases k with
        | sign g =>
          cases g with
          | comma =>
            refine (aligned_name .parameterName hr).bind fun hs => ?_
            cases hs with
            | mk s _ => exact aligned_moreParameters fuel (s :: read)
          | _ => exact hts
        | _ => exact hts

theorem aligned_parameters : Aligned A Eq parameters parameters := by
  refine (aligned_expect .openParen .openParameters).bind fun _ => ?_
  refine Agree.get_bind fun {ts ts'} hts => ?_
  simp only [startsWith_eq .closeParen hts]
  split
  · exact (aligned_expect .closeParen .closeParameters hts).bind fun _ => Agree.pure rfl
  · refine (aligned_name .parameterName hts).bind fun hs => ?_
    cases hs with
    | mk s _ =>
      rw [hts.length_eq]
      exact aligned_moreParameters _ [s]

/-! ## The parsers that call each other -/

/-- The statements read, and whether a semicolon ends the last one. -/
inductive ReadMatch (A : Alignment) : List Stmt × Bool → List Stmt × Bool → Prop where
  | mk (terminated : Bool) {ss ss' : List Stmt} : List.Forall₂ (Stmt.Matches A) ss ss' →
      ReadMatch A (ss, terminated) (ss', terminated)

/-- With fuel `n` the parsers agree on token lists that match. -/
structure Carries (A : Alignment) (n : Nat) : Prop where
  expression : ∀ ℓ, Aligned A (Expr.Matches A) (expression n ℓ) (expression n ℓ)
  chain : ∀ ℓ {left left'}, Expr.Matches A left left' →
    Aligned A (Expr.Matches A) (chain n ℓ left) (chain n ℓ left')
  calls : ∀ {callee callee'}, Expr.Matches A callee callee' →
    Aligned A (Expr.Matches A) (calls n callee) (calls n callee')
  moreArguments : ∀ {read read'}, List.Forall₂ (Expr.Matches A) read read' →
    Aligned A (List.Forall₂ (Expr.Matches A)) (moreArguments n read) (moreArguments n read')
  primary : Aligned A (Expr.Matches A) (primary n) (primary n)
  function : ∀ {o o'}, A.place o o' →
    Aligned A (Expr.Matches A) (function n o) (function n o')
  block : ∀ valued, Aligned A (Block.Matches A) (block n valued) (block n valued)
  moreStatements : ∀ {read read'}, List.Forall₂ (Stmt.Matches A) read read' →
    Aligned A (ReadMatch A) (moreStatements n read) (moreStatements n read')
  statement : Aligned A (Stmt.Matches A) (statement n) (statement n)
  bare : Aligned A (Stmt.Matches A) (bare n) (bare n)
  binding : ∀ isPublic {o o'}, A.place o o' →
    Aligned A (Stmt.Matches A) (binding n isPublic o) (binding n isPublic o')
  namedFunction : ∀ isPublic {o o'}, A.place o o' →
    Aligned A (Stmt.Matches A) (namedFunction n isPublic o) (namedFunction n isPublic o')

theorem carries_zero : Carries A 0 := by
  constructor
  all_goals
    intros
    exact Agree.throw rfl

variable {n : Nat}

/-! ## Expressions -/

theorem carries_expression (ih : Carries A n) (ℓ : Level) :
    Aligned A (Expr.Matches A) (expression (n + 1) ℓ) (expression (n + 1) ℓ) := by
  by_cases hℓ : ℓ = .call
  · subst hℓ
    rw [expression_call]
    exact ih.primary.bind fun h => ih.calls h
  · rw [expression_ne_call hℓ]
    refine Agree.get_bind fun {ts ts'} hts => ?_
    have h := prefixOp?_rel ℓ hts
    generalize prefixOp? ℓ ts = q at h ⊢
    generalize prefixOp? ℓ ts' = q' at h ⊢
    cases h with
    | none => exact (ih.expression _ hts).bind fun h => ih.chain ℓ h
    | some h =>
      cases h with
      | mk op ho hr => exact (ih.expression ℓ hr).bind fun h => Agree.pure (.unary op h ho)

theorem carries_chain (ih : Carries A n) (ℓ : Level) {left left' : Expr}
    (hleft : Expr.Matches A left left') :
    Aligned A (Expr.Matches A) (chain (n + 1) ℓ left) (chain (n + 1) ℓ left') := by
  rw [chain, chain]
  refine Agree.get_bind fun {ts ts'} hts => ?_
  have h := operator?_rel ℓ hts
  generalize operator? ℓ ts = q at h ⊢
  generalize operator? ℓ ts' = q' at h ⊢
  cases h with
  | none => exact .ok hleft hts
  | some h =>
    cases h with
    | mk op ho hr =>
      exact (ih.expression _ hr).bind fun h => ih.chain ℓ (.binary op hleft h ho)

theorem carries_calls (ih : Carries A n) {callee callee' : Expr}
    (hcallee : Expr.Matches A callee callee') :
    Aligned A (Expr.Matches A) (calls (n + 1) callee) (calls (n + 1) callee') := by
  rw [calls, calls]
  refine Agree.get_bind fun {ts ts'} hts => ?_
  cases hts with
  | nil => exact .ok hcallee .nil
  | @cons _ _ r r' ht hr =>
    cases ht with
    | @mk k o o' ho hp =>
      have hdone := List.Forall₂.cons (Token.Matches.mk ho hp) hr
      cases k with
      | sign g =>
        cases g with
        | openParen =>
          refine Agree.set_bind hr ?_ hdone
          simp only [startsWith_eq .closeParen hr]
          split
          · exact (aligned_expect _ _).bind fun _ => ih.calls (.call hcallee .nil ho)
          · refine (ih.expression _).bind fun h => ?_
            refine (ih.moreArguments (.cons h .nil)).bind fun hargs => ?_
            exact ih.calls (.call hcallee hargs ho)
        | _ => exact .ok hcallee hdone
      | _ => exact .ok hcallee hdone

theorem carries_moreArguments (ih : Carries A n) {read read' : List Expr}
    (hread : List.Forall₂ (Expr.Matches A) read read') :
    Aligned A (List.Forall₂ (Expr.Matches A)) (moreArguments (n + 1) read)
      (moreArguments (n + 1) read') := by
  rw [moreArguments, moreArguments]
  refine Agree.get_bind fun {ts ts'} hts => ?_
  have hclose : Aligned A (List.Forall₂ (Expr.Matches A))
      (do let _ ← expect .closeParen .closeArguments; return read.reverse)
      (do let _ ← expect .closeParen .closeArguments; return read'.reverse) :=
    (aligned_expect _ _).bind fun _ => Agree.pure (List.rel_reverse hread)
  cases hts with
  | nil => exact hclose .nil
  | cons ht hr =>
    cases ht with
    | @mk k o o' ho hp =>
      have hts := hclose (List.Forall₂.cons (.mk ho hp) hr)
      cases k with
      | sign g =>
        cases g with
        | comma => exact (ih.expression _ hr).bind fun h => ih.moreArguments (.cons h hread)
        | _ => exact hts
      | _ => exact hts

theorem carries_primary (ih : Carries A n) :
    Aligned A (Expr.Matches A) (primary (n + 1)) (primary (n + 1)) := by
  rw [primary]
  refine Agree.get_bind fun {ts ts'} hts => ?_
  cases hts with
  | nil => exact .error rfl .nil
  | cons ht hr =>
    cases ht with
    | @mk k o o' ho hp =>
      have hts := List.Forall₂.cons (Token.Matches.mk ho hp) hr
      cases k with
      | number x => exact .ok (.number x ho) hr
      | text s => exact .ok (.text s ho) hr
      | name s => exact .ok (.var s ho) hr
      | keyword w =>
        cases w with
        | true => exact .ok (.bool true ho) hr
        | false => exact .ok (.bool false ho) hr
        | fn => exact ih.function ho hr
        | _ => exact .error rfl hts
      | sign g =>
        cases g with
        | openParen =>
          refine (ih.expression _ hr).bind fun h => ?_
          exact (aligned_expect _ _).bind fun _ => Agree.pure h
        | openBrace => exact (ih.block true hts).bind fun h => Agree.pure (.scope h ho)
        | _ => exact .error rfl hts
      | finish => exact .error rfl hts

theorem carries_function (ih : Carries A n) {o o' : Nat} (ho : A.place o o') :
    Aligned A (Expr.Matches A) (function (n + 1) o) (function (n + 1) o') := by
  rw [function, function]
  refine aligned_parameters.bind_eq fun params => ?_
  exact (ih.block true).bind fun h => Agree.pure (.function params h ho)

theorem carries_block (ih : Carries A n) (valued : Bool) :
    Aligned A (Block.Matches A) (block (n + 1) valued) (block (n + 1) valued) := by
  rw [block]
  refine (aligned_expect _ _).bind fun ho => ih.statement.bind fun hfirst => ?_
  refine (ih.moreStatements (.cons hfirst .nil)).bind fun hread => ?_
  cases hread with
  | mk terminated hread =>
    refine (aligned_refuse _ startsWithName_eq).bind fun _ => ?_
    refine (aligned_expect _ _).bind fun _ => Agree.pure (.mk (List.rel_reverse ?_) ho)
    split
    · exact matches_promoteHead hread
    · exact hread

theorem carries_moreStatements (ih : Carries A n) {read read' : List Stmt}
    (hread : List.Forall₂ (Stmt.Matches A) read read') :
    Aligned A (ReadMatch A) (moreStatements (n + 1) read) (moreStatements (n + 1) read') := by
  rw [moreStatements, moreStatements]
  refine Agree.get_bind fun {ts ts'} hts => ?_
  cases hts with
  | nil => exact .ok (.mk false hread) .nil
  | cons ht hr =>
    cases ht with
    | @mk k o o' ho hp =>
      have hts := List.Forall₂.cons (Token.Matches.mk ho hp) hr
      cases k with
      | sign g =>
        cases g with
        | semicolon =>
          refine Agree.set_bind hr ?_ hts
          simp only [startsWith_eq .closeBrace hr]
          split
          · exact Agree.pure (.mk true hread)
          · exact ih.statement.bind fun h => ih.moreStatements (.cons h hread)
        | _ => exact .ok (.mk false hread) hts
      | _ => exact .ok (.mk false hread) hts

/-! ## Statements -/

theorem carries_bare (ih : Carries A n) :
    Aligned A (Stmt.Matches A) (bare (n + 1)) (bare (n + 1)) := by
  rw [bare]
  refine (ih.expression _).bind fun h => ?_
  exact (aligned_refuse _ (startsWith_eq .equal)).bind fun _ => Agree.pure (.eval h)

theorem carries_binding (ih : Carries A n) (isPublic : Bool) {o o' : Nat} (ho : A.place o o') :
    Aligned A (Stmt.Matches A) (binding (n + 1) isPublic o) (binding (n + 1) isPublic o') := by
  rw [binding, binding]
  refine (aligned_name _).bind fun hs => ?_
  cases hs with
  | mk s hname =>
    refine aligned_assignment.bind_eq fun op => ?_
    refine (ih.expression _).bind fun h => ?_
    exact Agree.pure (.bind s isPublic (matches_boundValue s op hname h) ho)

theorem carries_namedFunction (ih : Carries A n) (isPublic : Bool) {o o' : Nat}
    (ho : A.place o o') : Aligned A (Stmt.Matches A) (namedFunction (n + 1) isPublic o)
      (namedFunction (n + 1) isPublic o') := by
  rw [namedFunction, namedFunction]
  refine (aligned_name _).bind fun hs => ?_
  cases hs with
  | mk s _ => exact (ih.function ho).bind fun h => Agree.pure (.bind s isPublic h ho)

/-- After `pub` comes `let` or `fn`. -/
theorem carries_pub (ih : Carries A n) {o o' : Nat} {r r' : List Token} (ho : A.place o o')
    (hr : AllMatch A r r') :
    ResultRel Eq (AllMatch A) (Stmt.Matches A) (statement (n + 1) (⟨.keyword .pub, o⟩ :: r))
      (statement (n + 1) (⟨.keyword .pub, o'⟩ :: r')) := by
  cases hr with
  | nil => exact .error rfl .nil
  | cons ht hr =>
    cases ht with
    | @mk k c c' hc hp =>
      have hmiss := List.Forall₂.cons (Token.Matches.mk hc hp) hr
      cases k with
      | keyword w =>
        cases w with
        | «let» => exact ih.binding true ho hr
        | fn => exact ih.namedFunction true ho hr
        | _ => exact .error rfl hmiss
      | _ => exact .error rfl hmiss

/-- `fn` begins a definition if a name follows it, and else an expression. -/
theorem carries_fn (ih : Carries A n) {o o' : Nat} {r r' : List Token} (ho : A.place o o')
    (hr : AllMatch A r r') (hts : AllMatch A (⟨.keyword .fn, o⟩ :: r) (⟨.keyword .fn, o'⟩ :: r')) :
    ResultRel Eq (AllMatch A) (Stmt.Matches A) (statement (n + 1) (⟨.keyword .fn, o⟩ :: r))
      (statement (n + 1) (⟨.keyword .fn, o'⟩ :: r')) := by
  have hbare := ih.bare hts
  cases hr with
  | nil => exact hbare
  | cons ht hr =>
    cases ht with
    | @mk k c c' hc hp =>
      cases k with
      | name s => exact ih.namedFunction false ho (.cons (.mk hc hp) hr)
      | _ => exact hbare

theorem carries_statement (ih : Carries A n) :
    Aligned A (Stmt.Matches A) (statement (n + 1)) (statement (n + 1)) := by
  rw [statement]
  refine Agree.get_bind fun {ts ts'} hts => ?_
  cases hts with
  | nil => exact ih.bare .nil
  | @cons _ _ r r' ht hr =>
    cases ht with
    | @mk k o o' ho hp =>
      have hts := List.Forall₂.cons (Token.Matches.mk ho hp) hr
      have hbare := ih.bare hts
      cases k with
      | name s =>
        have h := assignment?_rel hr
        dsimp only
        generalize assignment? r = q at h ⊢
        generalize assignment? r' = q' at h ⊢
        cases h with
        | none => exact hbare
        | some h =>
          cases h with
          | mk op hr => exact (ih.expression _ hr).bind fun h => Agree.pure (.set s op h ho)
      | keyword w =>
        cases w with
        | «let» => exact ih.binding false ho hr
        | pub => exact carries_pub ih ho hr
        | fn => exact carries_fn ih ho hr hts
        | «if» =>
          refine (ih.expression _ hr).bind fun h => ?_
          exact (ih.block false).bind fun hb => Agree.pure (.branch h hb ho)
        | «return» =>
          refine Agree.set_bind hr ?_ hts
          simp only [startsWith_eq .semicolon hr, startsWith_eq .closeBrace hr]
          split
          · exact Agree.pure (.result (.nil ho) ho)
          · exact (ih.expression _).bind fun h => Agree.pure (.result h ho)
        | print =>
          exact (ih.expression _ hr).bind fun h => Agree.pure (.print h ho (hp rfl))
        | _ => exact hbare
      | sign g =>
        cases g with
        | openBrace => exact (ih.block false hts).bind fun h => Agree.pure (.block h ho)
        | closeBrace => exact .ok (.empty ho) hts
        | _ => exact hbare
      | _ => exact hbare

theorem carries (A : Alignment) : ∀ n : Nat, Carries A n
  | 0 => carries_zero
  | n + 1 =>
    have ih := carries A n
    { expression := carries_expression ih
      chain := carries_chain ih
      calls := carries_calls ih
      moreArguments := carries_moreArguments ih
      primary := carries_primary ih
      function := carries_function ih
      block := carries_block ih
      moreStatements := carries_moreStatements ih
      statement := carries_statement ih
      bare := carries_bare ih
      binding := carries_binding ih
      namedFunction := carries_namedFunction ih }

theorem aligned_whole (n : Nat) : Aligned A (Block.Matches A) (whole n) (whole n) := by
  refine ((carries A n).block true).bind fun h => ?_
  exact (aligned_refuse _ fun hts => by rw [isEmpty_eq hts]).bind fun _ => Agree.pure h

end Parse

variable {ts ts' : List Token}

theorem matches_body (h : AllMatch A ts ts') : AllMatch A (body ts) (body ts') := by
  induction h with
  | nil => exact .nil
  | cons ht hts ih =>
    cases ht with
    | @mk k o o' ho hp =>
      by_cases hk : k = .finish
      · simp [body, hk]
      · simpa [body, hk] using ⟨Token.Matches.mk ho hp, ih⟩

theorem endOffset_singleton (t : Token) : endOffset [t] = t.offset := by
  unfold endOffset
  by_cases hk : t.kind = .finish <;> simp [hk]

theorem endOffset_cons_cons (t u : Token) (ts : List Token) :
    endOffset (t :: u :: ts) = if t.kind = .finish then t.offset else endOffset (u :: ts) := by
  unfold endOffset
  by_cases hk : t.kind = .finish
  · simp [hk]
  · simp [hk, List.find?_cons]

theorem place_endOffset (h : AllMatch A ts ts') (hne : ts ≠ []) :
    A.place (endOffset ts) (endOffset ts') := by
  induction h with
  | nil => exact absurd rfl hne
  | cons ht hts ih =>
    cases ht with
    | @mk k o o' ho _ =>
      cases hts with
      | nil => simpa only [endOffset_singleton] using ho
      | cons hu hts =>
        rw [endOffset_cons_cons, endOffset_cons_cons]
        by_cases hk : k = .finish
        · simpa only [hk, if_true] using ho
        · simpa only [hk, if_false] using ih (List.cons_ne_nil _ _)

/-- Token lists that match give trees that match, or miss the same thing at tokens that match. -/
theorem matches_parse (h : AllMatch A ts ts') (hne : ts ≠ []) :
    (∃ b b', parse ts = .ok b ∧ parse ts' = .ok b' ∧ Block.Matches A b b') ∨
      ∃ e k o o', parse ts = .error ⟨e, k, o⟩ ∧ parse ts' = .error ⟨e, k, o'⟩ ∧ A.place o o' := by
  have hfuel : fuelFor ts' = fuelFor ts := by rw [fuelFor, fuelFor, h.length_eq]
  have hend := place_endOffset h hne
  have hwhole := Parse.aligned_whole (fuelFor ts) (matches_body h)
  simp only [parse, hfuel]
  generalize Parse.whole (fuelFor ts) (body ts) = r at hwhole ⊢
  generalize Parse.whole (fuelFor ts) (body ts') = r' at hwhole ⊢
  cases hwhole with
  | ok hb _ => exact .inl ⟨_, _, rfl, rfl, hb⟩
  | @error e _ r r' he hr =>
    cases he
    cases hr with
    | nil => exact .inr ⟨_, _, _, _, rfl, rfl, hend⟩
    | cons ht _ =>
      cases ht with
      | mk ho _ => exact .inr ⟨_, _, _, _, rfl, rfl, ho⟩

end Tree

end ScopeScript
