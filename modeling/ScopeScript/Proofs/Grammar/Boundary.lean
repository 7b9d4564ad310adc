import ScopeScript.Proofs.Grammar.Derivation

/-!
# Where phrases begin and end

`Symbol.Starts` says how the tokens of a phrase begin, `Symbol.Ends` which tokens can follow it
without being read as a part of it. The next token tells the productions of a class apart, with two
exceptions: a name can begin an assignment and an expression (`assignment?_append`), and `fn` can
begin a definition and a function (the last clause of `Opening`).
-/

namespace ScopeScript.Grammar

open ScopeScript.Tree (Level)
open Tree.Parse (startsWith assignment?)
open Token (Kind)

/-- The place of a level, loosest first. -/
def rank : Level → Nat
  | .or => 0
  | .and => 1
  | .not => 2
  | .comparison => 3
  | .sum => 4
  | .product => 5
  | .power => 6
  | .sign => 7
  | .call => 8

theorem rank_tighter {ℓ : Level} (h : ℓ ≠ .call) : rank ℓ.tighter = rank ℓ + 1 := by
  cases ℓ <;> simp_all [rank, Level.tighter]

theorem rank_le (ℓ : Level) : rank ℓ ≤ 8 := by
  cases ℓ <;> decide

/-- The kinds that an expression of a level can begin with. -/
def opens (ℓ : Level) : Kind → Bool
  | .number _ | .text _ | .name _ | .keyword .true | .keyword .false | .keyword .fn
  | .sign .openParen | .sign .openBrace => true
  | k => match leads? k with
    | some (ℓ', _) => rank ℓ ≤ rank ℓ'
    | none => false

/-- The kinds that go on with an expression of a level. -/
def continues (ℓ : Level) : Kind → Bool
  | .sign .openParen => true
  | k => match joins? k with
    | some (ℓ', _) => rank ℓ ≤ rank ℓ'
    | none => false

/-- Calls have no operators. -/
theorem ne_call_of_leads {ℓ : Level} {k : Kind} {op : UnaryOp} (h : leads? k = some (ℓ, op)) :
    ℓ ≠ .call := by
  unfold leads? at h
  split at h <;> cases h <;> decide

theorem ne_call_of_joins {ℓ : Level} {k : Kind} {op : BinaryOp} (h : joins? k = some (ℓ, op)) :
    ℓ ≠ .call := by
  unfold joins? at h
  split at h <;> cases h <;> decide

theorem ne_finish_of_compound? {k : Kind} (h : (Tree.compound? k).isSome) : k ≠ .finish := by
  rintro rfl
  cases h

theorem opens_of_leads {ℓ : Level} {k : Kind} {op : UnaryOp} (h : leads? k = some (ℓ, op)) :
    opens ℓ k := by
  unfold leads? at h
  split at h <;> cases h <;> rfl

theorem rank_le_of_opens {ℓ ℓ' : Level} {k : Kind} {op : UnaryOp} (h : leads? k = some (ℓ', op))
    (ho : opens ℓ k) : rank ℓ ≤ rank ℓ' := by
  unfold leads? at h
  split at h <;> cases h <;> exact of_decide_eq_true ho

theorem opens_loosen {ℓ ℓ' : Level} {k : Kind} (h : rank ℓ ≤ rank ℓ') (ho : opens ℓ' k) :
    opens ℓ k := by
  unfold opens at *
  split at ho
  all_goals try rfl
  split at ho
  · simp only [decide_eq_true_eq] at ho ⊢
    omega
  · cases ho

theorem continues_of_joins {ℓ ℓ' : Level} {k : Kind} {op : BinaryOp}
    (h : joins? k = some (ℓ', op)) : continues ℓ k = decide (rank ℓ ≤ rank ℓ') := by
  unfold joins? at h
  split at h <;> cases h <;> rfl

/-! ## Beginnings -/

/-- How an expression begins. After `fn` there is a parameter list. -/
def Opening (ℓ : Level) (braced : Bool) (ts : List Token) : Prop :=
  ∃ t r, ts = t :: r ∧ opens ℓ t.kind ∧ (braced = true ↔ t.kind = .sign .openBrace) ∧
    (t.kind = .keyword .fn → startsWith .openParen r)

theorem Opening.cons {ℓ : Level} {b : Bool} {t : Token} {r : List Token} (ho : opens ℓ t.kind)
    (hb : b = true ↔ t.kind = .sign .openBrace) (hf : t.kind ≠ .keyword .fn) :
    Opening ℓ b (t :: r) := ⟨t, r, rfl, ho, hb, fun e => absurd e hf⟩

theorem startsWith_iff {g : Sign} {r : List Token} :
    startsWith g r ↔ ∃ o r', r = ⟨.sign g, o⟩ :: r' := by
  constructor
  · intro h
    unfold startsWith at h
    split at h
    · simp only [decide_eq_true_eq] at h
      exact ⟨_, _, by rw [h]⟩
    · cases h
  · rintro ⟨o, r', rfl⟩
    simp [startsWith]

theorem startsWith_append {g : Sign} {ts : List Token} (h : startsWith g ts) (us : List Token) :
    startsWith g (ts ++ us) := by
  obtain ⟨o, r, rfl⟩ := startsWith_iff.1 h
  exact startsWith_iff.2 ⟨o, r ++ us, rfl⟩

theorem Opening.append {ℓ : Level} {b : Bool} {ts : List Token} (h : Opening ℓ b ts)
    (us : List Token) : Opening ℓ b (ts ++ us) := by
  obtain ⟨t, r, rfl, ho, hb, hf⟩ := h
  exact ⟨t, r ++ us, rfl, ho, hb, fun e => startsWith_append (hf e) us⟩

theorem Opening.loosen {ℓ ℓ' : Level} {b : Bool} {ts : List Token} (h : Opening ℓ' b ts)
    (hr : rank ℓ ≤ rank ℓ') : Opening ℓ b ts := by
  obtain ⟨t, r, rfl, ho, hb, hf⟩ := h
  exact ⟨t, r, rfl, opens_loosen hr ho, hb, hf⟩

def Symbol.Starts : Symbol → List Token → Prop
  | .expr ℓ b, ts => Opening ℓ b ts
  | .primary b, ts => Opening .call b ts
  | .scope _, ts => startsWith .openBrace ts
  | .parameters, ts => startsWith .openParen ts
  | .statement, ts => ∃ t r, ts = t :: r ∧ t.kind ≠ .sign .closeBrace ∧ t.kind ≠ .sign .semicolon
  | _, _ => True

theorem Derivation.starts {s : Symbol} (d : Derivation s) : s.Starts d.tokens := by
  induction d with
  | prefixed k op h o e _ =>
    refine ⟨⟨k, o⟩, e.tokens, rfl, opens_of_leads h, ⟨nofun, ?_⟩, ?_⟩ <;> rintro ⟨⟩ <;> cases h
  | joined h first rest ih _ => exact (ih.append _).loosen (by rw [rank_tighter h]; omega)
  | called callee rest ih _ => exact ih.append _
  | function o params body ih _ =>
    refine ⟨⟨.keyword .fn, o⟩, _, rfl, rfl, by simp, fun _ => ?_⟩
    exact startsWith_append ih _
  | braces body ih =>
    obtain ⟨o, r, e⟩ := startsWith_iff.1 ih
    exact ⟨_, r, e, rfl, ⟨fun _ => rfl, fun _ => rfl⟩, nofun⟩
  | block body ih =>
    obtain ⟨o, r, e⟩ := startsWith_iff.1 ih
    exact ⟨_, r, e, nofun, nofun⟩
  | eval value ih =>
    obtain ⟨t, r, e, ho, -, -⟩ := ih
    refine ⟨t, r, e, ?_, ?_⟩ <;> rintro h <;> rw [h] at ho <;> cases ho
  | number | text | yes | no | name | parens => exact Opening.cons rfl (by simp) (by simp)
  | bind | define | publicBind | publicDefine | branch | leave | leaveWith | print | set =>
    exact ⟨_, _, rfl, by simp, by simp⟩
  | unit | scope | noParameters | parameters => rfl
  | _ => trivial

theorem Derivation.opening {ℓ : Level} {b : Bool} (d : Derivation (.expr ℓ b)) (r : List Token) :
    Opening ℓ b (d.tokens ++ r) := Opening.append d.starts r

/-- A scope starts at its opening brace. -/
theorem Derivation.start_tree {v : Bool} (d : Derivation (.scope v)) {o : Nat}
    {r us : List Token} (h : ⟨.sign .openBrace, o⟩ :: us = d.tokens ++ r) : start d.tree = o := by
  cases d <;> exact (congrArg Token.offset (List.cons.inj h).1).symm

/-! ## Ends -/

/-- The next token does not go on with an expression of the level. -/
def Closed (ℓ : Level) (r : List Token) : Prop := ∀ t ∈ r.head?, continues ℓ t.kind = false

def AtEnd (r : List Token) : Prop := startsWith .semicolon r ∨ startsWith .closeBrace r

def Symbol.Ends : Symbol → List Token → Prop
  | .expr ℓ _, r | .operands ℓ, r => Closed ℓ r
  | .calls, r => Closed .call r
  | .statement, r | .binding, r => AtEnd r
  | .statements, r => startsWith .closeBrace r
  | _, _ => True

theorem Closed.cons {ℓ : Level} {k : Kind} (h : continues ℓ k = false) (o : Nat)
    (r : List Token) : Closed ℓ (⟨k, o⟩ :: r) := by
  intro t ht
  simp only [List.head?_cons, Option.mem_def, Option.some.injEq] at ht
  rw [← ht]
  exact h

theorem Closed.of_startsWith {ℓ : Level} {g : Sign} {r : List Token} (h : startsWith g r)
    (hg : continues ℓ (.sign g) = false) : Closed ℓ r := by
  obtain ⟨o, r', rfl⟩ := startsWith_iff.1 h
  exact Closed.cons hg o r'

theorem continues_tighten {ℓ ℓ' : Level} {k : Kind} (h : rank ℓ ≤ rank ℓ')
    (hc : continues ℓ k = false) : continues ℓ' k = false := by
  unfold continues at *
  split at hc
  · cases hc
  · split at hc
    · simp only [decide_eq_false_iff_not] at hc ⊢
      omega
    · rfl

theorem Closed.tighten {ℓ ℓ' : Level} {r : List Token} (h : rank ℓ ≤ rank ℓ')
    (hc : Closed ℓ r) : Closed ℓ' r := fun t ht => continues_tighten h (hc t ht)

theorem AtEnd.closed {r : List Token} (h : AtEnd r) (ℓ : Level) : Closed ℓ r := by
  rcases h with h | h
  · exact Closed.of_startsWith h rfl
  · exact Closed.of_startsWith h rfl

namespace Derivation

theorem closed_scope {v : Bool} (d : Derivation (.scope v)) (ℓ : Level) (r : List Token) :
    Closed ℓ (d.tokens ++ r) := Closed.of_startsWith (startsWith_append d.starts r) rfl

theorem closed_moreArguments (d : Derivation .moreArguments) (ℓ : Level) (r : List Token) :
    Closed ℓ (d.tokens ++ r) := by
  cases d with
  | closeArguments c => exact Closed.cons rfl c _
  | argument o e more => exact Closed.cons rfl o _

/-- An operator of a level goes on with no operand of that level. -/
theorem closed_operands {ℓ : Level} (hℓ : ℓ ≠ .call) (d : Derivation (.operands ℓ))
    {r : List Token} (h : Closed ℓ r) : Closed ℓ.tighter (d.tokens ++ r) := by
  have hr := rank_tighter hℓ
  cases d with
  | noOperand => exact h.tighten (by omega)
  | operand k op hk o right rest =>
    refine Closed.cons ?_ o _
    rw [continues_of_joins hk]
    exact decide_eq_false (by omega)

theorem atEnd_statements (d : Derivation .statements) {r : List Token}
    (h : startsWith .closeBrace r) : AtEnd (d.tokens ++ r) := by
  cases d with
  | done => exact .inr h
  | terminated o => exact .inl rfl
  | next o s more => exact .inl rfl

end Derivation

/-- The tokens after a name that begins an expression are no assignment sign. -/
def Symbol.Unassigned : Symbol → List Token → Prop
  | .expr _ _, ts | .primary _, ts => ∀ x o us r, ts = ⟨.name x, o⟩ :: us →
    assignment? r = none → assignment? (us ++ r) = none
  | .operands _, ts | .calls, ts => ∀ r, assignment? r = none → assignment? (ts ++ r) = none
  | _, _ => True

theorem assignment?_cons {k : Kind} {ts : List Token} (o : Nat) (hk : k ≠ .sign .equal)
    (h : Tree.compound? k = none ∨ startsWith .equal ts = false) :
    assignment? (⟨k, o⟩ :: ts) = none := by
  unfold assignment?
  split
  · next e =>
    cases e
    exact absurd rfl hk
  · next e =>
    cases e
    rcases h with h | h
    · rw [h]
      rfl
    · cases h
  · rfl

theorem Opening.not_startsWith {ℓ : Level} {b : Bool} {ts : List Token} (h : Opening ℓ b ts)
    {g : Sign} (hg : opens ℓ (.sign g) = false) : startsWith g ts = false := by
  obtain ⟨t, r, rfl, ho, -, -⟩ := h
  refine Bool.eq_false_iff.2 fun hs => ?_
  obtain ⟨o, r', e⟩ := startsWith_iff.1 hs
  cases e
  rw [hg] at ho
  cases ho

theorem AtEnd.unassigned {r : List Token} (h : AtEnd r) : assignment? r = none := by
  rcases h with h | h <;> obtain ⟨o, r', rfl⟩ := startsWith_iff.1 h
  · exact assignment?_cons o (by simp) (.inl rfl)
  · exact assignment?_cons o (by simp) (.inl rfl)

theorem Derivation.unassigned {s : Symbol} (d : Derivation s) : s.Unassigned d.tokens := by
  induction d with
  | prefixed k op h o e _ =>
    rintro x n us r ht -
    cases congrArg Token.kind (List.cons.inj ht).1
    cases h
  | joined _ first rest ih ihr =>
    intro x o us r ht hr
    obtain ⟨t, ts, e, -⟩ := first.starts
    rw [tokens, e, List.cons_append, List.cons.injEq] at ht
    obtain ⟨rfl, rfl⟩ := ht
    rw [List.append_assoc]
    exact ih x o ts _ e (ihr r hr)
  | called callee rest ih ihr =>
    intro x o us r ht hr
    obtain ⟨t, ts, e, -⟩ := callee.starts
    rw [tokens, e, List.cons_append, List.cons.injEq] at ht
    obtain ⟨rfl, rfl⟩ := ht
    rw [List.append_assoc]
    exact ih x o ts _ e (ihr r hr)
  | operand k op h o right rest _ _ =>
    intro r _
    rw [tokens, List.cons_append, List.append_assoc]
    refine assignment?_cons o (by rintro rfl; cases h) (.inr ?_)
    exact (right.opening _).not_startsWith rfl
  | call o args rest _ _ => exact fun r _ => assignment?_cons o (by simp) (.inl rfl)
  | name x o =>
    intro x n us r ht hr
    rwa [← (List.cons.inj ht).2]
  | braces body _ =>
    intro x o us r ht _
    obtain ⟨n, ts, e⟩ := startsWith_iff.1 body.starts
    cases congrArg Token.kind (List.cons.inj (e.symm.trans ht)).1
  | noOperand | noCall => exact fun r hr => hr
  | number | text | yes | no | parens | function =>
    rintro x o us r ht
    cases congrArg Token.kind (List.cons.inj ht).1
  | _ => trivial

end ScopeScript.Grammar
