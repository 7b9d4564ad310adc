import ScopeScript.Execution
import ScopeScript.Proofs.Parser.Viable
import ScopeScript.Proofs.Reader.Arena

/-!
# The one-pass parser reads the same programs

`Follows x y c P`: unless it runs out of fuel, the script `x` does from the valid cursor `c` what
the parser `y` does on the tokens that are left there. If `y` returns, `P` relates what the two
return, and if `y` misses something, `x` misses it at the same token. `Faithful n` says this of all
the parsers with fuel `n`; the trees of the one are the arena that the other builds (`Built`).
-/

namespace ScopeScript.Reader

open ScopeScript.Tree (Expected Level Expr Stmt Block)
open ScopeScript.Tree.Parse (startsWith startsWithName)
open Token (Kind)

namespace Cursor

variable {c : Cursor}

/-- The tokens from the position on, in front of the first `finish`. -/
def rest (c : Cursor) : List Token := Tree.body (c.tokens.drop c.position)

theorem Valid.drop_position (h : c.Valid) :
    c.tokens.drop c.position = c.current :: c.tokens.drop (c.position + 1) := by
  obtain ⟨hlt, hget⟩ := List.getElem?_eq_some_iff.1 h.getElem?_position
  rw [List.drop_eq_getElem_cons hlt, hget]

theorem Valid.rest_of_finish (h : c.Valid) (hk : c.current.kind = .finish) : c.rest = [] := by
  simp [rest, Tree.body, h.drop_position, hk]

theorem Valid.rest_of_ne (h : c.Valid) (hk : c.current.kind ≠ .finish) :
    c.rest = c.current :: c.next.rest := by
  simp [rest, Tree.body, h.drop_position, hk, next_of_ne]

/-- The tokens that are left are none, or begin with the current one. -/
theorem Valid.rest_cases (h : c.Valid) :
    (c.current.kind = .finish ∧ c.rest = []) ∨
      ∃ k o, k ≠ .finish ∧ c.current = ⟨k, o⟩ ∧ c.rest = ⟨k, o⟩ :: c.next.rest := by
  by_cases hk : c.current.kind = .finish
  · exact .inl ⟨hk, h.rest_of_finish hk⟩
  · exact .inr ⟨_, _, hk, rfl, h.rest_of_ne hk⟩

theorem Valid.rest_of_kind {k : Kind} (h : c.Valid) (hk : c.current.kind = k) (hne : k ≠ .finish) :
    c.rest = ⟨k, c.current.offset⟩ :: c.next.rest := by
  rw [h.rest_of_ne (hk ▸ hne), ← hk]

theorem Valid.of_rest {k : Kind} {o : Nat} {r : List Token} (h : c.Valid)
    (hrest : c.rest = ⟨k, o⟩ :: r) : c.current = ⟨k, o⟩ ∧ k ≠ .finish ∧ r = c.next.rest := by
  rcases h.rest_cases with ⟨-, hnil⟩ | ⟨k', o', hk, ht, hcons⟩
  · rw [hnil] at hrest
    cases hrest
  · rw [hcons] at hrest
    cases hrest
    exact ⟨ht, hk, rfl⟩

theorem Valid.startsWith_rest (h : c.Valid) (g : Sign) :
    startsWith g c.rest = decide (c.current.kind = .sign g) := by
  rcases h.rest_cases with ⟨hk, hrest⟩ | ⟨k, o, -, ht, hrest⟩
  · rw [hrest, hk]
    rfl
  · rw [hrest, ht]
    cases k <;> simp [startsWith]

theorem Valid.startsWithName_rest (h : c.Valid) :
    startsWithName c.rest = isName c.current.kind := by
  rcases h.rest_cases with ⟨hk, hrest⟩ | ⟨k, o, -, ht, hrest⟩
  · rw [hrest, hk]
    rfl
  · rw [hrest, ht]
    cases k <;> rfl

theorem Valid.next (h : c.Valid) : c.next.Valid := (later_next c).valid h

theorem Valid.ahead?_zero (h : c.Valid) : c.ahead? 0 = some c.current := h.getElem?_position

theorem ahead?_succ (hk : c.current.kind ≠ .finish) (n : Nat) :
    c.ahead? (n + 1) = c.next.ahead? n := by
  rw [next_of_ne hk, ahead?, ahead?, Nat.add_right_comm, Nat.add_assoc]

end Cursor

open Cursor

/-! ## Runs of small scripts -/

section Small

variable {α : Type} {c : Cursor} {k : Kind}

@[simp] theorem run_pure (a : α) (c : Cursor) : (pure a : Script α).run c = .ok a c := rfl

@[simp] theorem run_look (c : Cursor) : look.run c = .ok c.current c := rfl

@[simp] theorem run_check (k : Kind) (c : Cursor) :
    (check k).run c = .ok (decide (c.current.kind = k)) c := rfl

theorem run_openScope (capture : Capture) (o : Nat) (c : Cursor) :
    (openScope capture o).run c = .ok c.scopes.length (c.openScope capture o) := rfl

theorem run_closeScope {id : ScopeId} (ss : List Node) (h : c.opened.head? = some id) :
    (closeScope id ss).run c = .ok () (c.closeScope ss) := if_pos h

@[simp] theorem run_lookAhead (n : Nat) (c : Cursor) :
    (lookAhead n).run c = .ok (c.ahead? n) c := rfl

@[simp] theorem run_checkAhead (n : Nat) (k : Kind) (c : Cursor) :
    (checkAhead n k).run c = .ok ((c.ahead? n).any fun t => t.kind = k) c := rfl

theorem run_advance (hc : c.Valid) (hk : c.current.kind ≠ .finish) :
    advance.run c = .ok c.current c.next := by
  rw [← hc.previous_next hk]
  rfl

theorem run_accept (hc : c.Valid) (hk : c.current.kind = k) (hne : k ≠ .finish) :
    (accept k).run c = .ok (some c.current) c.next := by
  simp [accept, Script.run_bind, hk, run_advance hc (hk ▸ hne)]

theorem run_accept_of_ne (hk : c.current.kind ≠ k) : (accept k).run c = .ok none c := by
  simp [accept, Script.run_bind, hk]

/-- The next token but one can be looked up behind any token. -/
theorem any_ahead?_one (hc : c.Valid) (hk : c.current.kind ≠ .finish) (g : Sign) :
    ((c.ahead? 1).any fun t => t.kind = .sign g) = startsWith g c.next.rest := by
  rw [ahead?_succ hk, hc.next.ahead?_zero, hc.next.startsWith_rest]
  rfl

/-- An operator that joins operands can be part of a compound assignment by its level alone. -/
theorem isSome_compound? {ℓ : Level} {op : BinaryOp} (h : ℓ.operator? k = some op) :
    (Tree.compound? k).isSome = compounds ℓ := by
  unfold Level.operator? at h
  split at h <;> first | rfl | cases h

theorem run_operator? (hc : c.Valid) (ℓ : Level) :
    match Tree.Parse.operator? ℓ c.rest with
    | some (op, o, r) => (operator? ℓ).run c = .ok (some (op, o)) c.next ∧ r = c.next.rest
    | none => (operator? ℓ).run c = .ok none c := by
  rcases hc.rest_cases with ⟨hk, hrest⟩ | ⟨k, o, hk, ht, hrest⟩
  · have hnone : ℓ.operator? c.current.kind = none := by
      rw [hk]
      cases ℓ <;> rfl
    simp [hrest, Tree.Parse.operator?, operator?, Script.run_bind, hnone]
  have hne : c.current.kind ≠ .finish := by rwa [ht]
  have hadvance := run_advance hc hne
  rw [ht] at hadvance
  rw [hrest, Tree.Parse.operator?]
  cases hop : ℓ.operator? k with
  | none => simp [operator?, Script.run_bind, ht, hop]
  | some op =>
    have hahead := any_ahead?_one hc hne .equal
    rw [isSome_compound? hop]
    cases hcompounds : compounds ℓ with
    | false => simp [operator?, Script.run_bind, ht, hop, hcompounds, hadvance]
    | true =>
      cases hequal : startsWith .equal c.next.rest with
      | true => simp [operator?, Script.run_bind, ht, hop, hcompounds, hahead, hequal]
      | false => simp [operator?, Script.run_bind, ht, hop, hcompounds, hadvance, hahead, hequal]

theorem run_prefixOp? (hc : c.Valid) (ℓ : Level) :
    match Tree.Parse.prefixOp? ℓ c.rest with
    | some (op, o, r) => (prefixOp? ℓ).run c = .ok (some (op, o)) c.next ∧ r = c.next.rest
    | none => (prefixOp? ℓ).run c = .ok none c := by
  rcases hc.rest_cases with ⟨hk, hrest⟩ | ⟨k, o, hk, ht, hrest⟩
  · have hnone : ℓ.prefixOp? c.current.kind = none := by
      rw [hk]
      cases ℓ <;> rfl
    simp [hrest, Tree.Parse.prefixOp?, prefixOp?, Script.run_bind, hnone]
  have hne : c.current.kind ≠ .finish := by rwa [ht]
  have hadvance := run_advance hc hne
  rw [ht] at hadvance
  rw [hrest, Tree.Parse.prefixOp?]
  cases hop : ℓ.prefixOp? k with
  | none => simp [prefixOp?, Script.run_bind, ht, hop]
  | some op => simp [prefixOp?, Script.run_bind, ht, hop, hadvance]

theorem assignment?_rest (hc : c.Valid) :
    Tree.Parse.assignment? c.rest =
      if c.current.kind = .sign .equal then some (.assign, c.next.rest)
      else if startsWith .equal c.next.rest then
        (Tree.compound? c.current.kind).map (·, c.next.next.rest)
      else none := by
  rcases hc.rest_cases with ⟨hk, hrest⟩ | ⟨k, o, -, ht, hrest⟩
  · simp [hrest, hk, Tree.Parse.assignment?, Tree.compound?]
  rw [hrest, ht]
  by_cases hequal : k = .sign .equal
  · subst hequal
    rfl
  rw [if_neg hequal]
  split
  · next hs =>
    have hk' : c.next.current.kind = .sign .equal := by
      simpa [hc.next.startsWith_rest] using hs
    have hnext := hc.next.rest_of_ne (by simp [hk'])
    obtain ⟨o', r, hr⟩ := Grammar.startsWith_iff.1 hs
    rw [(List.cons.inj (hnext.symm.trans hr)).2, hr, Tree.Parse.assignment?_compound hequal]
  · next hs => exact Grammar.assignment?_cons o hequal (.inr (by simpa using hs))

/-- A name is reassigned if an assignment sign follows it. -/
theorem run_isReassignment (hc : c.Valid) (hk : c.current.kind ≠ .finish) :
    isReassignment.run c = .ok (Tree.Parse.assignment? c.next.rest).isSome c := by
  have hahead := any_ahead?_one hc hk .equal
  have hone : c.ahead? 1 = some c.next.current := by rw [ahead?_succ hk, hc.next.ahead?_zero]
  rw [assignment?_rest hc.next]
  by_cases hequal : c.next.current.kind = .sign .equal
  · simp [isReassignment, Script.run_bind, hone, hequal]
  cases hop : Tree.compound? c.next.current.kind with
  | none => simp [isReassignment, Script.run_bind, hone, hequal, hop]
  | some op =>
    have hk' := Grammar.ne_finish_of_compound? (Option.isSome_of_eq_some hop)
    have htwo : ((c.ahead? 2).any fun t => t.kind = .sign .equal) =
        startsWith .equal c.next.next.rest := by
      rw [ahead?_succ hk, any_ahead?_one hc.next hk']
    cases hs : startsWith .equal c.next.next.rest <;>
      simp [isReassignment, Script.run_bind, hone, hequal, hop, htwo, hs]

theorem run_assignment (hc : c.Valid) :
    match Tree.Parse.assignment? c.rest with
    | some (op, r) => ∃ c', assignment.run c = .ok op c' ∧ r = c'.rest ∧ Kept c c'
    | none => assignment.run c = .failed ⟨.token .assignment, c.current⟩ c := by
  rw [assignment?_rest hc]
  by_cases hequal : c.current.kind = .sign .equal
  · simp [hequal, assignment, Script.run_bind, run_accept hc hequal (by simp), kept_next]
  have haccept := run_accept_of_ne hequal
  cases hop : Tree.compound? c.current.kind with
  | none => simp [hequal, assignment, Script.run_bind, haccept, hop, Script.run]
  | some op =>
    have hk := Grammar.ne_finish_of_compound? (Option.isSome_of_eq_some hop)
    have hahead := any_ahead?_one hc hk .equal
    cases hs : startsWith .equal c.next.rest with
    | false =>
      simp [hequal, assignment, Script.run_bind, haccept, hop, hahead, hs, Script.run]
    | true =>
      have hk' : c.next.current.kind = .sign .equal := by
        simpa [hc.next.startsWith_rest] using hs
      simp [hequal, assignment, Script.run_bind, haccept, hop, hahead, hs, run_advance hc hk,
        run_advance hc.next (hk' ▸ by simp), (kept_next c).trans (kept_next c.next)]

end Small

/-! ## Rules -/

section Rules

variable {α β γ δ : Type} {c c' : Cursor} {x : Script α} {y y' : Tree.Parse β} {a : α}
  {f : α → Script γ} {P P' : α → β → Cursor → Prop} {Q : γ → δ → Cursor → Prop}

def Follows (x : Script α) (y : Tree.Parse β) (c : Cursor) (P : α → β → Cursor → Prop) : Prop :=
  c.Valid →
    match x.run c with
    | .ok a c' => ∃ b, y c.rest = .ok b c'.rest ∧ P a b c'
    | .failed m c' => ∃ e, m = ⟨.token e, c'.current⟩ ∧ y c.rest = .error e c'.rest
    | .spent => True

theorem expect_of_not {g : Sign} {e : Expected} {ts : List Token} (h : startsWith g ts = false) :
    Tree.Parse.expect g e ts = .error e ts := by
  rw [Tree.Parse.expect, get_bind]
  split
  · simp only [startsWith, decide_eq_false_iff_not] at h
    rw [if_neg h]
    rfl
  · rfl

theorem name_of_not {e : Expected} {ts : List Token} (h : startsWithName ts = false) :
    Tree.Parse.name e ts = .error e ts := by
  rw [Tree.Parse.name, get_bind]
  split
  · cases h
  · rfl

namespace Follows

theorem done {b : β} (h : P a b c) : Follows (pure a) (pure b) c P := fun _ => ⟨b, rfl, h⟩

theorem miss (e : Expected) : Follows (.miss e) (throw e : Tree.Parse β) c P :=
  fun _ => ⟨e, rfl, rfl⟩

theorem spent : Follows .spent y c P := fun _ => trivial

theorem valid (h : c.Valid → Follows x y c P) : Follows x y c P := fun hc => h hc hc

theorem congr (hy : y c.rest = y' c.rest) (h : Follows x y' c P) : Follows x y c P := by
  unfold Follows at *
  rwa [hy]

theorem imp (h : Follows x y c P') (hP : ∀ {a b c'}, P' a b c' → P a b c') :
    Follows x y c P := by
  intro hc
  have hx := h hc
  cases hrun : x.run c with
  | ok a c' =>
    rw [hrun] at hx
    obtain ⟨b, hy, hb⟩ := hx
    exact ⟨b, hy, hP hb⟩
  | failed m c' => simpa only [hrun] using hx
  | spent => trivial

/-- One after another. -/
theorem bind {g : β → Tree.Parse δ} (h : Follows x y c P)
    (hf : ∀ {a b c'}, P a b c' → Follows (f a) (g b) c' Q) :
    Follows (x >>= f) (y >>= g) c Q := by
  intro hc
  have hx := h hc
  rw [Script.run_bind]
  cases hrun : x.run c with
  | ok a c' =>
    rw [hrun] at hx
    obtain ⟨b, hy, hb⟩ := hx
    rw [bind_of_ok hy]
    exact hf hb ((Script.later_of_ok hrun).valid hc)
  | failed m c' =>
    rw [hrun] at hx
    obtain ⟨e, hm, hy⟩ := hx
    exact ⟨e, hm, bind_error.2 (.inl hy)⟩
  | spent => trivial

/-- The script does something that the parser does in another way. -/
theorem step {z : Tree.Parse δ} {z' : Tree.Parse δ} (hx : c.Valid → x.run c = .ok a c')
    (hz : z c.rest = z' c'.rest) (h : Follows (f a) z' c' Q) : Follows (x >>= f) z c Q := by
  intro hc
  rw [Script.run_bind, hx hc, hz]
  exact h ((Script.later_of_ok (hx hc)).valid hc)

theorem get {g : List Token → Tree.Parse β} (h : Follows x (g c.rest) c P) :
    Follows x (get >>= g) c P := h

/-- Both take the current token. -/
theorem take {g : PUnit → Tree.Parse δ} (hx : c.Valid → x.run c = .ok a c.next)
    (h : Follows (f a) (g ⟨⟩) c.next Q) : Follows (x >>= f) (set c.next.rest >>= g) c Q :=
  step hx rfl h

theorem look {f : Token → Script γ} {z : Tree.Parse δ} (h : Follows (f c.current) z c Q) :
    Follows (look >>= f) z c Q := h

theorem check {k : Kind} {f : Bool → Script γ} {z : Tree.Parse δ}
    (h : Follows (f (decide (c.current.kind = k))) z c Q) : Follows (check k >>= f) z c Q := h

/-- The script finds another token than the one asked for. -/
theorem accept_ne {k : Kind} {f : Option Token → Script γ} {z : Tree.Parse δ}
    (hk : c.current.kind ≠ k) (h : Follows (f none) z c Q) : Follows (accept k >>= f) z c Q :=
  step (fun _ => run_accept_of_ne hk) rfl h

theorem expect {g : Sign} {e : Expected} {f : Token → Script γ} {z : Nat → Tree.Parse δ}
    (h : c.current.kind = .sign g → Follows (f c.current) (z c.current.offset) c.next Q) :
    Follows (expect (.sign g) e >>= f) (Tree.Parse.expect g e >>= z) c Q := by
  refine valid fun hc => ?_
  rw [Reader.expect, Script.bind_assoc]
  by_cases hk : c.current.kind = .sign g
  · have hrest := hc.rest_of_kind hk (by simp)
    exact step (fun hc => run_accept hc hk (by simp)) (bind_of_ok (Tree.Parse.expect_ok.2 hrest))
      (h hk)
  · have hmiss : Tree.Parse.expect g e c.rest = .error e c.rest :=
      expect_of_not (by simp [hc.startsWith_rest, hk])
    exact accept_ne hk fun _ => ⟨e, rfl, bind_error.2 (.inl hmiss)⟩

theorem name {e : Expected} {f : String → Script γ} {z : String × Nat → Tree.Parse δ}
    (h : ∀ s, c.current.kind = .name s → Follows (f s) (z (s, c.current.offset)) c.next Q) :
    Follows (name e >>= f) (Tree.Parse.name e >>= z) c Q := by
  refine valid fun hc => ?_
  rw [Reader.name, Script.bind_assoc]
  refine look ?_
  split
  · next s hk =>
    have hrest := hc.rest_of_kind hk (by simp)
    rw [Script.bind_assoc]
    exact step (fun hc => run_advance hc (by simp [hk])) (bind_of_ok (Tree.Parse.name_ok.2 hrest))
      (h s hk)
  · next hk =>
    have hmiss : Tree.Parse.name e c.rest = .error e c.rest := by
      refine name_of_not ?_
      rw [hc.startsWithName_rest]
      cases hkind : c.current.kind with
      | name s => exact (hk s hkind).elim
      | _ => rfl
    exact fun _ => ⟨e, rfl, bind_error.2 (.inl hmiss)⟩

theorem assignment {f : BinaryOp → Script γ} {z : BinaryOp → Tree.Parse δ}
    (h : ∀ op {c'}, Kept c c' → Follows (f op) (z op) c' Q) :
    Follows (assignment >>= f) (Tree.Parse.assignment >>= z) c Q := by
  refine valid fun hc => ?_
  have hrun := run_assignment hc
  cases ha : Tree.Parse.assignment? c.rest with
  | none =>
    rw [ha] at hrun
    have hmiss : Tree.Parse.assignment c.rest = .error .assignment c.rest := by
      rw [Tree.Parse.assignment, get_bind, ha]
      rfl
    intro _
    rw [Script.run_bind, hrun]
    exact ⟨.assignment, rfl, bind_error.2 (.inl hmiss)⟩
  | some p =>
    obtain ⟨op, r⟩ := p
    rw [ha] at hrun
    obtain ⟨c', hrun, rfl, hkept⟩ := hrun
    exact step (fun _ => hrun) (bind_of_ok (Tree.Parse.assignment_ok.2 ha)) (h op hkept)

/-- The script looks for what the parser refuses. -/
theorem refuse {p : List Token → Bool} {e : Expected} {w : Script γ} {z : Unit → Tree.Parse δ}
    (b : Bool) (hp : c.Valid → p c.rest = b) (hyes : b = true → w = .miss e)
    (hno : b = false → Follows w (z ⟨⟩) c Q) : Follows w (Tree.Parse.refuse p e >>= z) c Q := by
  refine valid fun hc => ?_
  have hp := hp hc
  cases b with
  | true =>
    have hmiss : Tree.Parse.refuse p e c.rest = .error e c.rest := by
      rw [Tree.Parse.refuse, get_bind, hp]
      rfl
    rw [hyes rfl]
    exact fun _ => ⟨e, rfl, bind_error.2 (.inl hmiss)⟩
  | false => exact congr (bind_of_ok (Tree.Parse.refuse_ok.2 ⟨hp, rfl⟩)) (hno rfl)

end Follows

end Rules

theorem follows_moreParameters (m k : Nat) (read : List String) (c : Cursor)
    (hk : c.rest.length < k) :
    Follows (moreParameters m read) (Tree.Parse.moreParameters k read) c
      fun names names' c' => names = names' ∧ Kept c c' := by
  induction m generalizing k read c with
  | zero => exact .spent
  | succ m ih =>
    obtain ⟨k, rfl⟩ := Nat.exists_eq_add_of_lt hk
    rw [moreParameters, Tree.Parse.moreParameters]
    refine .valid fun hc => .get ?_
    split
    · next o rest hrest =>
      obtain ⟨ht, -, rfl⟩ := hc.of_rest hrest
      refine .take (fun hc => run_accept hc (by rw [ht]) (by simp)) (.name fun s hname => ?_)
      refine (ih _ _ _ ?_).imp fun h => ⟨h.1, ((kept_next c).trans (kept_next c.next)).trans h.2⟩
      rw [hrest, hc.next.rest_of_kind hname (by simp), List.length_cons, List.length_cons]
      omega
    · next hne =>
      refine .accept_ne (fun hcomma => ?_) (.expect fun _ => .done ⟨rfl, kept_next c⟩)
      exact hne _ _ (hc.rest_of_kind hcomma (by simp))

theorem follows_parameters (n : Nat) (c : Cursor) :
    Follows (parameters n) Tree.Parse.parameters c
      fun names names' c' => names = names' ∧ Kept c c' := by
  rw [parameters, Tree.Parse.parameters]
  refine .expect fun _ => .valid fun hc => .get (.check ?_)
  rw [hc.startsWith_rest]
  by_cases hclose : c.next.current.kind = .sign .closeParen
  · simp only [hclose, decide_true, if_true]
    exact .expect fun _ => .done ⟨rfl, (kept_next c).trans (kept_next c.next)⟩
  · simp only [hclose, decide_false, Bool.false_eq_true, if_false]
    refine .name fun s hname => (follows_moreParameters _ _ _ _ ?_).imp
      fun h => ⟨h.1, ((kept_next c).trans (kept_next c.next)).trans h.2⟩
    rw [hc.rest_of_kind hname (by simp), List.length_cons]
    omega

/-! ## The parsers that call each other -/

/-- The parsers with fuel `n` read the same trees. -/
structure Faithful (n : Nat) : Prop where
  expression : ∀ {parent outer base c} ℓ, At parent outer base c →
    Follows (expression n ℓ) (Tree.Parse.expression n ℓ) c (Built Layout.expr parent outer base)
  chain : ∀ {parent outer base c} ℓ {left left'}, Built Layout.expr parent outer base left left' c →
    Follows (chain n ℓ left) (Tree.Parse.chain n ℓ left') c (Built Layout.expr parent outer base)
  calls : ∀ {parent outer base c callee callee'},
    Built Layout.expr parent outer base callee callee' c →
    Follows (calls n callee) (Tree.Parse.calls n callee') c (Built Layout.expr parent outer base)
  moreArguments : ∀ {parent outer base c read read'},
    Built Layout.exprs parent outer base read.reverse read'.reverse c →
    Follows (moreArguments n read) (Tree.Parse.moreArguments n read') c
      (Built Layout.exprs parent outer base)
  primary : ∀ {parent outer base c}, At parent outer base c →
    Follows (primary n) (Tree.Parse.primary n) c (Built Layout.expr parent outer base)
  function : ∀ {parent outer base c} o, At parent outer base c →
    Follows (function n o) (Tree.Parse.function n o) c (Built Layout.expr parent outer base)
  block : ∀ capture valued c,
    Follows (block n capture valued) (Tree.Parse.block n valued) c (Enclosed capture c)
  moreStatements : ∀ {parent outer base c read read'},
    Built Layout.stmts parent outer base read.reverse read'.reverse c →
    Follows (moreStatements n read) (Tree.Parse.moreStatements n read') c fun p p' c' =>
      p.2 = p'.2 ∧ Built Layout.stmts parent outer base p.1.reverse p'.1.reverse c'
  statement : ∀ {parent outer base c}, At parent outer base c →
    Follows (statement n) (Tree.Parse.statement n) c (Built Layout.stmt parent outer base)
  bare : ∀ {parent outer base c}, At parent outer base c →
    Follows (bare n) (Tree.Parse.bare n) c (Built Layout.stmt parent outer base)
  binding : ∀ {parent outer base c} isPublic o, At parent outer base c →
    Follows (binding n isPublic o) (Tree.Parse.binding n isPublic o) c
      (Built Layout.stmt parent outer base)
  namedFunction : ∀ {parent outer base c} isPublic o, At parent outer base c →
    Follows (namedFunction n isPublic o) (Tree.Parse.namedFunction n isPublic o) c
      (Built Layout.stmt parent outer base)

theorem faithful_zero : Faithful 0 := by
  constructor
  all_goals
    intros
    exact .spent

variable {n : Nat} {parent : ScopeId} {outer : List ScopeId} {base : List Scope} {c : Cursor}

theorem faithful_expression (ih : Faithful n) (ℓ : Level) (h : At parent outer base c) :
    Follows (expression (n + 1) ℓ) (Tree.Parse.expression (n + 1) ℓ) c
      (Built Layout.expr parent outer base) := by
  by_cases hℓ : ℓ = .call
  · subst hℓ
    rw [expression_call, Tree.Parse.expression_call]
    exact (ih.primary h).bind ih.calls
  · rw [expression_ne_call hℓ, Tree.Parse.expression_ne_call hℓ]
    refine .valid fun hc => .get ?_
    have hrun := run_prefixOp? hc ℓ
    split
    · next op o rest hlead =>
      rw [hlead] at hrun
      obtain ⟨hrun, rfl⟩ := hrun
      exact .take (fun _ => hrun) ((ih.expression ℓ h.next).bind fun h' => .done (h'.unary op o))
    · next hlead =>
      rw [hlead] at hrun
      exact .step (fun _ => hrun) rfl ((ih.expression _ h).bind (ih.chain ℓ))

theorem faithful_chain (ih : Faithful n) (ℓ : Level) {left : Node} {left' : Expr}
    (h : Built Layout.expr parent outer base left left' c) :
    Follows (chain (n + 1) ℓ left) (Tree.Parse.chain (n + 1) ℓ left') c
      (Built Layout.expr parent outer base) := by
  rw [chain, Tree.Parse.chain]
  refine .valid fun hc => .get ?_
  have hrun := run_operator? hc ℓ
  split
  · next op o rest hop =>
    rw [hop] at hrun
    obtain ⟨hrun, rfl⟩ := hrun
    refine .take (fun _ => hrun) ?_
    exact (ih.expression _ h.next.at_scopes).bind fun h' => ih.chain ℓ (h.next.binary h' op o)
  · next hop =>
    rw [hop] at hrun
    exact .step (fun _ => hrun) rfl (.done h)

theorem faithful_calls (ih : Faithful n) {callee : Node} {callee' : Expr}
    (h : Built Layout.expr parent outer base callee callee' c) :
    Follows (calls (n + 1) callee) (Tree.Parse.calls (n + 1) callee') c
      (Built Layout.expr parent outer base) := by
  rw [calls, Tree.Parse.calls]
  refine .valid fun hc => .get ?_
  split
  · next o rest hrest =>
    obtain ⟨ht, -, rfl⟩ := hc.of_rest hrest
    refine .take (fun hc => run_accept hc (by rw [ht]) (by simp)) ?_
    simp only [ht, arguments, Script.bind_assoc]
    refine .check ?_
    rw [hc.next.startsWith_rest]
    by_cases hclose : c.next.current.kind = .sign .closeParen
    · simp only [hclose, decide_true, if_true, Script.bind_assoc]
      refine .expect fun _ => ih.calls (h.next.next.call (.leaf h.next.next.at_scopes rfl) o)
    · simp only [hclose, decide_false, Bool.false_eq_true, if_false, Script.bind_assoc]
      refine (ih.expression _ h.next.at_scopes).bind fun h' => ?_
      exact (ih.moreArguments h'.firstArgument).bind fun hargs => ih.calls (h.next.call hargs o)
  · next hne =>
    exact .accept_ne (fun hopen => hne _ _ (hc.rest_of_kind hopen (by simp))) (.done h)

theorem faithful_moreArguments (ih : Faithful n) {read : List Node} {read' : List Expr}
    (h : Built Layout.exprs parent outer base read.reverse read'.reverse c) :
    Follows (moreArguments (n + 1) read) (Tree.Parse.moreArguments (n + 1) read') c
      (Built Layout.exprs parent outer base) := by
  rw [moreArguments, Tree.Parse.moreArguments]
  refine .valid fun hc => .get ?_
  split
  · next o rest hrest =>
    obtain ⟨ht, -, rfl⟩ := hc.of_rest hrest
    refine .take (fun hc => run_accept hc (by rw [ht]) (by simp)) ?_
    refine (ih.expression _ h.next.at_scopes).bind fun h' => ih.moreArguments ?_
    simpa only [List.reverse_cons] using h.next.argument h'
  · next hne =>
    refine .accept_ne (fun hcomma => ?_) (.expect fun _ => .done h.next)
    exact hne _ _ (hc.rest_of_kind hcomma (by simp))

theorem faithful_primary (ih : Faithful n) (h : At parent outer base c) :
    Follows (primary (n + 1)) (Tree.Parse.primary (n + 1)) c
      (Built Layout.expr parent outer base) := by
  rw [primary, Tree.Parse.primary]
  refine .valid fun hc => .get (.look ?_)
  rcases hc.rest_cases with ⟨hk, hrest⟩ | ⟨k, o, hk, ht, hrest⟩
  · rw [hrest, hk]
    exact .congr (by rw [hrest]) (.miss _)
  have hne : c.current.kind ≠ .finish := by rwa [ht]
  have hadvance := fun hc => run_advance (c := c) hc hne
  rw [hrest, ht]
  cases k with
  | number x => exact .take hadvance (.done (.leaf h.next rfl))
  | text s => exact .take hadvance (.done (.leaf h.next rfl))
  | name s => exact .take hadvance (.done (.leaf h.next rfl))
  | keyword w =>
    cases w with
    | true => exact .take hadvance (.done (.leaf h.next rfl))
    | false => exact .take hadvance (.done (.leaf h.next rfl))
    | fn => exact .take hadvance (ih.function o h.next)
    | _ => exact .miss _
  | sign g =>
    cases g with
    | openParen =>
      exact .take hadvance ((ih.expression _ h.next).bind fun h' => .expect fun _ => .done h'.next)
    | openBrace => exact (ih.block _ _ c).bind fun h' => .done (h'.scope h o)
    | _ => exact .miss _
  | finish => exact absurd rfl hk

theorem faithful_function (ih : Faithful n) (o : Nat) (h : At parent outer base c) :
    Follows (function (n + 1) o) (Tree.Parse.function (n + 1) o) c
      (Built Layout.expr parent outer base) := by
  rw [function, Tree.Parse.function]
  refine (follows_parameters n c).bind ?_
  rintro params _ c' ⟨rfl, hkept⟩
  exact (ih.block _ _ c').bind fun h' => .done (h'.function (h.kept hkept) params o)

theorem faithful_block (ih : Faithful n) (capture : Capture) (valued : Bool) (c : Cursor) :
    Follows (block (n + 1) capture valued) (Tree.Parse.block (n + 1) valued) c
      (Enclosed capture c) := by
  rw [block, Tree.Parse.block]
  refine .look (.expect fun _ => ?_)
  refine .step (fun _ => run_openScope capture c.current.offset c.next) rfl ?_
  simp only [statementList, Script.bind_assoc]
  refine (ih.statement ⟨rfl, rfl⟩).bind fun h => (ih.moreStatements h.firstStatement).bind ?_
  rintro ⟨read, terminated⟩ ⟨read', _⟩ c₂ ⟨rfl, h₂⟩
  refine .look (.refuse (isName c₂.current.kind) (fun hc => hc.startsWithName_rest) ?_
    fun hname => ?_)
  · intro hname
    simp only [hname, if_true]
    rfl
  simp only [hname, Bool.false_eq_true, if_false]
  have hbody : Built Layout.stmts c.next.scopes.length c.next.opened
      (c.next.openScope capture c.current.offset).scopes
      (if valued && !terminated then promoteHead read else read).reverse
      (if valued && !terminated then Tree.promoteHead read' else read').reverse c₂.next := by
    split
    · exact h₂.next.promoteHead
    · exact h₂.next
  exact .expect fun _ => .step (fun _ => run_closeScope _ (congrArg List.head? hbody.opened)) rfl
    (.done (hbody.enclosed.of_kept (kept_next c)))

theorem faithful_moreStatements (ih : Faithful n) {read : List Node} {read' : List Stmt}
    (h : Built Layout.stmts parent outer base read.reverse read'.reverse c) :
    Follows (moreStatements (n + 1) read) (Tree.Parse.moreStatements (n + 1) read') c fun p p' c' =>
      p.2 = p'.2 ∧ Built Layout.stmts parent outer base p.1.reverse p'.1.reverse c' := by
  rw [moreStatements, Tree.Parse.moreStatements]
  refine .valid fun hc => .get ?_
  split
  · next o rest hrest =>
    obtain ⟨ht, -, rfl⟩ := hc.of_rest hrest
    refine .take (fun hc => run_accept hc (by rw [ht]) (by simp)) (.check ?_)
    rw [hc.next.startsWith_rest]
    by_cases hclose : c.next.current.kind = .sign .closeBrace
    · simp only [hclose, decide_true, if_true]
      exact .done ⟨rfl, h.next⟩
    · simp only [hclose, decide_false, Bool.false_eq_true, if_false]
      refine (ih.statement h.next.at_scopes).bind fun h' => ih.moreStatements ?_
      simpa only [List.reverse_cons] using h.next.statement h'
  · next hne =>
    exact .accept_ne (fun hsemicolon => hne _ _ (hc.rest_of_kind hsemicolon (by simp)))
      (.done ⟨rfl, h⟩)

theorem follows_leave {value : Script Node} {value' : Tree.Parse Expr} (o : Nat)
    (h : At parent outer base c)
    (hvalue : Follows value value' c (Built Layout.expr parent outer base)) :
    Follows (leave value o)
      (if startsWith .semicolon c.rest || startsWith .closeBrace c.rest then
        pure (.result (.nil o) o)
      else do
        let e ← value'
        return .result e o) c (Built Layout.stmt parent outer base) := by
  rw [leave]
  refine .valid fun hc => .check ?_
  rw [hc.startsWith_rest, hc.startsWith_rest]
  by_cases hsemicolon : c.current.kind = .sign .semicolon
  · simp only [hsemicolon, decide_true, Bool.true_or, if_true]
    exact .done (.leaf h rfl)
  simp only [hsemicolon, decide_false, Bool.false_or, Bool.false_eq_true, if_false]
  refine .check ?_
  by_cases hclose : c.current.kind = .sign .closeBrace
  · simp only [hclose, decide_true, if_true]
    exact .done (.leaf h rfl)
  · simp only [hclose, decide_false, Bool.false_eq_true, if_false]
    exact hvalue.bind fun h' => .done (h'.result o)

theorem follows_reassignment {value : Script Node} {value' : Tree.Parse Expr} (o : Nat)
    (h : At parent outer base c)
    (hvalue : ∀ {c'}, At parent outer base c' →
      Follows value value' c' (Built Layout.expr parent outer base)) :
    Follows (reassignment value o)
      (do
        let (s, _) ← Tree.Parse.name .identifier
        let op ← Tree.Parse.assignment
        let e ← value'
        return .set s op e o) c (Built Layout.stmt parent outer base) := by
  rw [reassignment]
  refine .name fun s _ => .assignment fun op _ hkept => ?_
  exact (hvalue (h.next.kept hkept)).bind fun h' => .done (h'.set s op o)

/-- A statement that begins with a name. -/
theorem follows_named (ih : Faithful n) {s : String} {o : Nat} (hc : c.Valid)
    (ht : c.current = ⟨.name s, o⟩) (h : At parent outer base c) :
    Follows
      (do if ← isReassignment then reassignment (expression n .or) o else bare n)
      (match Tree.Parse.assignment? c.next.rest with
        | some (op, rest) => do
          set rest
          let value ← Tree.Parse.expression n .or
          return .set s op value o
        | none => Tree.Parse.bare n) c (Built Layout.stmt parent outer base) := by
  have hk : c.current.kind ≠ .finish := by simp [ht]
  have hrest : c.rest = ⟨.name s, o⟩ :: c.next.rest := by rw [hc.rest_of_ne hk, ht]
  refine .step (fun hc => run_isReassignment hc hk) rfl ?_
  cases ha : Tree.Parse.assignment? c.next.rest with
  | none => exact ih.bare h
  | some p =>
    obtain ⟨op, r⟩ := p
    refine .congr ?_ (follows_reassignment o h (ih.expression .or))
    rw [bind_of_ok (Tree.Parse.name_ok.2 hrest)]
    dsimp only
    rw [bind_of_ok (Tree.Parse.assignment_ok.2 ha)]
    rfl

/-- After `pub` comes `let` or `fn`. -/
theorem follows_pub (ih : Faithful n) (o : Nat) (h : At parent outer base c) :
    Follows
      (do
        match ← accept (.keyword .let) with
        | some _ => binding n true o
        | none =>
          match ← accept (.keyword .fn) with
          | some _ => namedFunction n true o
          | none => .miss .afterPub)
      (do
        match ← get with
        | ⟨.keyword .let, _⟩ :: rest => do
          set rest
          Tree.Parse.binding n true o
        | ⟨.keyword .fn, _⟩ :: rest => do
          set rest
          Tree.Parse.namedFunction n true o
        | _ => throw .afterPub) c (Built Layout.stmt parent outer base) := by
  refine .valid fun hc => .get ?_
  split
  · next o' rest hrest =>
    obtain ⟨ht, -, rfl⟩ := hc.of_rest hrest
    refine .take (fun hc => run_accept hc (by rw [ht]) (by simp)) ?_
    exact ih.binding true o h.next
  · next o' rest hrest =>
    obtain ⟨ht, -, rfl⟩ := hc.of_rest hrest
    refine .accept_ne (by simp [ht]) (.take (fun hc => run_accept hc (by rw [ht]) (by simp)) ?_)
    exact ih.namedFunction true o h.next
  · next hlet hfn =>
    refine .accept_ne (fun hk => hlet _ _ (hc.rest_of_kind hk (by simp))) ?_
    refine .accept_ne (fun hk => hfn _ _ (hc.rest_of_kind hk (by simp))) ?_
    exact .miss .afterPub

theorem faithful_statement (ih : Faithful n) (h : At parent outer base c) :
    Follows (statement (n + 1)) (Tree.Parse.statement (n + 1)) c
      (Built Layout.stmt parent outer base) := by
  rw [statement, Tree.Parse.statement]
  refine .valid fun hc => .get (.look ?_)
  rcases hc.rest_cases with ⟨hk, hrest⟩ | ⟨k, o, hk, ht, hrest⟩
  · rw [hrest, hk]
    exact ih.bare h
  have hne : c.current.kind ≠ .finish := by rwa [ht]
  have hadvance := fun hc => run_advance (c := c) hc hne
  have hbare := ih.bare h
  rw [hrest, ht]
  cases k with
  | name s => exact follows_named ih hc ht h
  | keyword w =>
    cases w with
    | «let» => exact .take hadvance (ih.binding false o h.next)
    | pub =>
      refine .step hadvance ?_ (follows_pub ih o h.next)
      generalize c.next.rest = r
      cases r with
      | nil => rfl
      | cons t r =>
        obtain ⟨k, _⟩ := t
        cases k with
        | keyword w => cases w <;> rfl
        | _ => rfl
    | fn =>
      refine .step (fun _ => run_lookAhead 1 c) rfl ?_
      rw [ahead?_succ hne, hc.next.ahead?_zero, Option.any_some, ← hc.next.startsWithName_rest]
      cases hname : startsWithName c.next.rest with
      | true =>
        refine .step hadvance ?_ (ih.namedFunction false o h.next)
        generalize c.next.rest = r at hname
        cases r with
        | nil => cases hname
        | cons t r =>
          obtain ⟨k, _⟩ := t
          cases k with
          | name s => rfl
          | _ => cases hname
      | false =>
        refine .congr ?_ hbare
        generalize c.next.rest = r at hname
        cases r with
        | nil => rfl
        | cons t r =>
          obtain ⟨k, _⟩ := t
          cases k with
          | name s => cases hname
          | _ => rfl
    | «if» =>
      refine .take hadvance ((ih.expression _ h.next).bind fun h' => ?_)
      exact (ih.block _ _ _).bind fun hb => .done (hb.branch h' o)
    | «return» => exact .take hadvance (follows_leave o h.next (ih.expression _ h.next))
    | print => exact .take hadvance ((ih.expression _ h.next).bind fun h' => .done (h'.print o))
    | _ => exact hbare
  | sign g =>
    cases g with
    | openBrace => exact (ih.block _ _ c).bind fun h' => .done (h'.block h o)
    | closeBrace => exact .done (.leaf h rfl)
    | _ => exact hbare
  | finish => exact absurd rfl hk
  | _ => exact hbare

theorem faithful_bare (ih : Faithful n) (h : At parent outer base c) :
    Follows (bare (n + 1)) (Tree.Parse.bare (n + 1)) c (Built Layout.stmt parent outer base) := by
  rw [bare, Tree.Parse.bare]
  refine (ih.expression _ h).bind fun {_ _ c'} h' => .check ?_
  refine .refuse (decide (c'.current.kind = .sign .equal)) (fun hc => hc.startsWith_rest _) ?_ ?_
  · intro hequal
    rw [if_pos hequal]
  · intro hequal
    rw [if_neg (by simpa using hequal)]
    exact .done h'.eval

theorem faithful_binding (ih : Faithful n) (isPublic : Bool) (o : Nat)
    (h : At parent outer base c) :
    Follows (binding (n + 1) isPublic o) (Tree.Parse.binding (n + 1) isPublic o) c
      (Built Layout.stmt parent outer base) := by
  rw [binding, Tree.Parse.binding]
  refine .look (.name fun s _ => .assignment fun op _ hkept => ?_)
  refine (ih.expression _ (h.next.kept hkept)).bind fun h' => .done ?_
  exact (h'.boundValue s c.current.offset op).bind s isPublic o

theorem faithful_namedFunction (ih : Faithful n) (isPublic : Bool) (o : Nat)
    (h : At parent outer base c) :
    Follows (namedFunction (n + 1) isPublic o) (Tree.Parse.namedFunction (n + 1) isPublic o) c
      (Built Layout.stmt parent outer base) := by
  rw [namedFunction, Tree.Parse.namedFunction]
  exact .name fun s _ => (ih.function o h.next).bind fun h' => .done (h'.bind s isPublic o)

theorem faithful : ∀ n : Nat, Faithful n
  | 0 => faithful_zero
  | n + 1 =>
    have ih := faithful n
    { expression := faithful_expression ih
      chain := faithful_chain ih
      calls := faithful_calls ih
      moreArguments := faithful_moreArguments ih
      primary := faithful_primary ih
      function := faithful_function ih
      block := faithful_block ih
      moreStatements := faithful_moreStatements ih
      statement := faithful_statement ih
      bare := faithful_bare ih
      binding := faithful_binding ih
      namedFunction := faithful_namedFunction ih }

theorem follows_program (n : Nat) (c : Cursor) :
    Follows (program n) (Tree.Parse.whole n) c (Enclosed .fresh c) := by
  rw [program, Tree.Parse.whole]
  refine ((faithful n).block .fresh true c).bind fun {_ _ c'} h => .check ?_
  refine .refuse (decide (c'.current.kind ≠ .finish)) (fun hc => ?_) ?_ ?_
  · rcases hc.rest_cases with ⟨hk, hrest⟩ | ⟨k, o, hk, ht, hrest⟩
    · simp [hrest, hk]
    · simp [hrest, ht, hk]
  · intro hk
    rw [if_neg (by simpa using hk)]
  · intro hk
    rw [if_pos (by simpa using hk)]
    exact .done h

/-! ## Whole token lists -/

section Start

variable {ts : List Token} {c : Cursor}

theorem kind_ne_of_mem_body {t : Token} (h : t ∈ Tree.body ts) : t.kind ≠ .finish := by
  have hne := List.mem_takeWhile_imp h
  simpa using hne

/-- In front of the first `finish` stand the tokens that the parser reads. -/
theorem exists_tokens_start (ts : List Token) :
    ∃ rest, (Cursor.start ts).tokens = Tree.body ts ++ ⟨.finish, Tree.endOffset ts⟩ :: rest := by
  simp only [Cursor.start]
  cases hlast : ts.getLast? with
  | none =>
    obtain rfl := List.getLast?_eq_none_iff.1 hlast
    exact ⟨[], rfl⟩
  | some t =>
    dsimp only
    rcases Tree.eq_body_or ts with hbody | ⟨rest, hrest⟩
    · have hall : ∀ u ∈ ts, u.kind ≠ .finish := fun u hu => kind_ne_of_mem_body (hbody ▸ hu)
      have hend : Tree.endOffset ts = t.offset := by
        have hfind : ts.find? (·.kind == .finish) = none := by simpa using hall
        rw [Tree.endOffset, hfind, hlast]
        rfl
      exact ⟨[], by rw [if_neg (hall t (List.mem_of_getLast? hlast)), hend, ← hbody]⟩
    · split
      · exact ⟨rest, hrest⟩
      · exact ⟨rest ++ [⟨.finish, t.offset⟩], by
          rw [← List.cons_append, ← List.append_assoc, ← hrest]⟩

theorem rest_start (ts : List Token) : (Cursor.start ts).rest = Tree.body ts := by
  obtain ⟨rest, hrest⟩ := exists_tokens_start ts
  have hall : ∀ u ∈ Tree.body ts, (u.kind != .finish) = true := fun u hu => by
    simpa using kind_ne_of_mem_body hu
  rw [Cursor.rest, hrest]
  change Tree.body (Tree.body ts ++ _) = _
  rw [Tree.body, List.takeWhile_append_of_pos hall]
  simp

theorem stop_start (ts : List Token) : (Cursor.start ts).stop = (Tree.body ts).length := by
  obtain ⟨rest, hrest⟩ := exists_tokens_start ts
  have hbody : (Tree.body ts).findIdx (·.kind = .finish) = (Tree.body ts).length :=
    List.findIdx_eq_length_of_false fun u hu => by simpa using kind_ne_of_mem_body hu
  rw [Cursor.stop, hrest, List.findIdx_append, hbody]
  simp [List.findIdx_cons]

/-- At the end of its tokens the cursor is at the token that marks the end. -/
theorem current_of_finish (hc : c.Valid) (htokens : c.tokens = (Cursor.start ts).tokens)
    (hk : c.current.kind = .finish) : c.current = ⟨.finish, Tree.endOffset ts⟩ := by
  have hget := hc.getElem?_position
  have hstop : c.stop = (Cursor.start ts).stop := by rw [Cursor.stop, htokens]; rfl
  obtain ⟨rest, hrest⟩ := exists_tokens_start ts
  rw [hc.current_eq_finish_iff.1 hk, hstop, stop_start, htokens, hrest] at hget
  simpa using hget.symm

/-- Unless it runs out of fuel, the one-pass parser puts the arena of the program together, or
misses the same thing at the same token. -/
theorem parse_eq (h : parse ts ≠ .spent) :
    (∃ root c, parse ts = .ok root c ∧ c.opened = [] ∧
      Program.ofTokens ts = .ok ⟨c.scopes.toArray, root⟩) ∨
    ∃ e t c, parse ts = .failed ⟨.token e, t⟩ c ∧ Program.ofTokens ts = .error (.parse ⟨e, t⟩) := by
  have hfollows := follows_program (Tree.fuelFor ts) (.start ts) (valid_start ts)
  rw [rest_start] at hfollows
  cases hrun : parse ts with
  | ok root c =>
    rw [parse] at hrun
    rw [hrun] at hfollows
    obtain ⟨b, hwhole, henclosed⟩ := hfollows
    have htree : Tree.parse ts = .ok b := by rw [Tree.parse, hwhole]
    have hscopes : c.scopes = Layout.block none .fresh 0 b := henclosed.scopes
    refine .inl ⟨root, c, rfl, henclosed.opened, ?_⟩
    rw [Program.ofTokens, htree, hscopes, henclosed.id_eq]
    rfl
  | failed m c =>
    rw [parse] at hrun
    rw [hrun] at hfollows
    obtain ⟨e, rfl, hwhole⟩ := hfollows
    have hlater : Later (.start ts) c := Script.later_of_run (by rw [hrun]; rfl)
    have hc := hlater.valid (valid_start ts)
    have htree : Tree.parse ts = .error ⟨e, c.current⟩ := by
      rw [Tree.parse, hwhole]
      rcases hc.rest_cases with ⟨hk, hrest⟩ | ⟨k, o, -, ht, hrest⟩
      · rw [hrest, current_of_finish hc hlater.tokens hk]
      · rw [hrest, ht]
    exact .inr ⟨e, c.current, c, rfl, by rw [Program.ofTokens, htree]⟩
  | spent => exact absurd hrun h

end Start

end ScopeScript.Reader
