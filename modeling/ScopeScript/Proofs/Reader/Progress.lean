import ScopeScript.Proofs.Grammar.Boundary
import ScopeScript.Proofs.Reader.Cursor
import ScopeScript.Reader.Parser

/-!
# The parser goes on

`Meets E x c Q`: from the valid cursor `c`, every access of the script `x` fits (`Point.Fits`); if
`x` returns, `Q` holds of what it returns, and under the condition `E` it does not run out of fuel.
`Careful n` says of all the parsers with fuel `n` that they meet this where `Q` asks that tokens
have been taken and that the same scopes are open as before, and `E` that `n` is enough for the
tokens that are left. Each parser calls the others with less fuel, so `Careful n` gives
`Careful (n + 1)`.

Twelve steps of fuel are enough for one token: in the worst case an expression statement goes from
`statement` through all the levels to a block.
-/

namespace ScopeScript.Reader

open ScopeScript.Tree (Expected Level)
open Token (Kind)
open Grammar (rank rank_tighter rank_le ne_finish_of_compound?)

namespace Cursor

variable {c c' c'' : Cursor}

/-- The number of tokens in front of the first `finish` that are still to be taken. -/
def left (c : Cursor) : Nat := c.stop - c.position

/-- One step of fuel more if a brace is next. -/
def brace (c : Cursor) : Nat := if c.current.kind = .sign .openBrace then 1 else 0

theorem brace_le (c : Cursor) : c.brace ≤ 1 := by
  unfold brace
  split <;> omega

theorem brace_of_ne (h : c.current.kind ≠ .sign .openBrace) : c.brace = 0 := if_neg h

/-- The same scopes are open, and no token has come back. -/
structure Onward (c c' : Cursor) : Prop where
  tokens : c'.tokens = c.tokens
  opened : c'.opened = c.opened
  left_le : c'.left ≤ c.left

/-- The same scopes are open, and a token has been taken. -/
structure Past (c c' : Cursor) : Prop extends Onward c c' where
  left_lt : c'.left < c.left

namespace Onward

theorem refl (c : Cursor) : Onward c c := ⟨rfl, rfl, le_rfl⟩

theorem trans (h : Onward c c') (h' : Onward c' c'') : Onward c c'' :=
  ⟨h'.tokens.trans h.tokens, h'.opened.trans h.opened, h'.left_le.trans h.left_le⟩

end Onward

namespace Past

theorem onward (h : Past c c') (h' : Onward c' c'') : Past c c'' :=
  ⟨h.toOnward.trans h', h'.left_le.trans_lt h.left_lt⟩

theorem trans (h : Past c c') (h' : Past c' c'') : Past c c'' := h.onward h'.toOnward

theorem position_lt (h : Past c c') : c.position < c'.position := by
  have hlt := h.left_lt
  simp only [left, stop, h.tokens] at hlt
  omega

end Past

theorem Valid.position_lt (h : c.Valid) (hk : c.current.kind ≠ .finish) : c.position < c.stop :=
  h.position_le.lt_of_ne (hk ∘ h.current_eq_finish_iff.2)

/-- Behind a token that is not a `finish` comes another one. -/
theorem Valid.add_lt_stop (h : c.Valid) {n : Nat} {t : Token} (hn : c.position + n ≤ c.stop)
    (ht : c.ahead? n = some t) (hk : t.kind ≠ .finish) : c.position + n < c.stop := by
  refine hn.lt_of_ne fun heq => hk ?_
  obtain ⟨hlt, rfl⟩ := List.getElem?_eq_some_iff.1 ht
  simpa only [heq, decide_eq_true_eq] using ((List.findIdx_eq h.stop_lt).1 rfl).1

theorem Valid.past_next (h : c.Valid) (hk : c.current.kind ≠ .finish) : Past c c.next := by
  have hlt := h.position_lt hk
  have hleft : c.next.left < c.left := by
    simp only [next_of_ne hk, left, stop] at hlt ⊢
    omega
  exact ⟨⟨by rw [next_of_ne hk], by rw [next_of_ne hk], hleft.le⟩, hleft⟩

@[simp] theorem left_openScope (c : Cursor) (capture : Capture) (o : Nat) :
    (c.openScope capture o).left = c.left := rfl

/-- The same scopes are open, and a token has been taken unless there was an idle one to begin
with. -/
def Moves (idle : Kind → Prop) (c c' : Cursor) : Prop :=
  Onward c c' ∧ (¬idle c.current.kind → Past c c')

theorem Past.moves (h : Past c c') (idle : Kind → Prop) : Moves idle c c' :=
  ⟨h.toOnward, fun _ => h⟩

theorem Moves.onward {idle : Kind → Prop} (h : Moves idle c c') (h' : Onward c' c'') :
    Moves idle c c'' :=
  ⟨h.1.trans h', fun hk => (h.2 hk).onward h'⟩

theorem Valid.onward_next (h : c.Valid) : Onward c c.next := by
  by_cases hk : c.current.kind = .finish
  · rw [next, if_pos hk]
    exact .refl c
  · exact (h.past_next hk).toOnward

end Cursor

open Cursor

/-- An access fits if it does not look past the first `finish` and closes the innermost scope. -/
def Point.Fits (p : Point) : Prop :=
  match p.access with
  | .ahead n => p.cursor.position + n ≤ p.cursor.stop
  | .closeScope id => p.cursor.opened.head? = some id
  | _ => True

/-! ## Rules -/

section Rules

variable {α β : Type} {E E' : Prop} {c : Cursor} {x : Script α} {f : α → Script β}
  {P P' : α → Cursor → Prop} {Q : β → Cursor → Prop}

/-- `P` holds of what is returned, and under `E` there is fuel enough. -/
def Outcome.Ends (E : Prop) (P : α → Cursor → Prop) : Outcome α → Prop
  | .ok a c => P a c
  | .failed _ _ => True
  | .spent => ¬E

def Meets (E : Prop) (x : Script α) (c : Cursor) (P : α → Cursor → Prop) : Prop :=
  c.Valid → (∀ p ∈ x.points c, p.Fits) ∧ (x.run c).Ends E P

namespace Meets

theorem done {a : α} (h : P a c) : Meets E (pure a) c P := fun _ => ⟨fun _ hp => (by cases hp), h⟩

theorem miss (e : Expected) : Meets E (.miss e) c P := by
  refine fun _ => ⟨fun p hp => ?_, trivial⟩
  cases List.mem_singleton.1 hp
  trivial

theorem spent (h : ¬E) : Meets E .spent c P := fun _ => ⟨fun _ hp => (by cases hp), h⟩

theorem imp (h : Meets E' x c P') (hE : E → E') (hP : ∀ {a c'}, P' a c' → P a c') :
    Meets E x c P := by
  refine fun hc => ⟨(h hc).1, ?_⟩
  have hrun := (h hc).2
  cases hx : x.run c with
  | ok a c' =>
    rw [hx] at hrun
    exact hP hrun
  | failed m c' => trivial
  | spent =>
    rw [hx] at hrun
    exact hrun ∘ hE

/-- One script after another. -/
theorem bind (h : Meets E' x c P) (hE : E → E') (hf : ∀ {a c'}, P a c' → Meets E (f a) c' Q) :
    Meets E (x >>= f) c Q := by
  intro hc
  obtain ⟨hp, hrun⟩ := h hc
  rw [Script.run_bind, Script.points_bind]
  cases hx : x.run c with
  | ok a c' =>
    rw [hx] at hrun
    obtain ⟨hp', hrun'⟩ := hf hrun ((Script.later_of_ok hx).valid hc)
    exact ⟨List.forall_mem_append.2 ⟨hp, hp'⟩, hrun'⟩
  | failed m c' => exact ⟨List.forall_mem_append.2 ⟨hp, by simp⟩, trivial⟩
  | spent =>
    rw [hx] at hrun
    exact ⟨List.forall_mem_append.2 ⟨hp, by simp⟩, hrun ∘ hE⟩

variable {g : Token → Script β} {k : Kind}

theorem look (h : Meets E (g c.current) c Q) : Meets E (look >>= g) c Q :=
  fun hc => ⟨List.forall_mem_cons.2 ⟨trivial, (h hc).1⟩, (h hc).2⟩

theorem lookAhead {n : Nat} {g : Option Token → Script β}
    (hn : c.Valid → c.position + n ≤ c.stop) (h : Meets E (g (c.ahead? n)) c Q) :
    Meets E (lookAhead n >>= g) c Q :=
  fun hc => ⟨List.forall_mem_cons.2 ⟨hn hc, (h hc).1⟩, (h hc).2⟩

theorem advance (hk : c.current.kind ≠ .finish)
    (h : Past c c.next → Meets E (g c.current) c.next Q) : Meets E (advance >>= g) c Q := by
  intro hc
  have hnext := h (hc.past_next hk) ((later_next c).valid hc)
  rw [← hc.previous_next hk] at hnext
  exact ⟨List.forall_mem_cons.2 ⟨trivial, hnext.1⟩, hnext.2⟩

/-- Nothing needs to be known to go on, unless a token is to be taken. -/
theorem advance_onward (h : ∀ t, Onward c c.next → Meets E (g t) c.next Q) :
    Meets E (Reader.advance >>= g) c Q := by
  intro hc
  have hnext := h c.next.previous hc.onward_next ((later_next c).valid hc)
  exact ⟨List.forall_mem_cons.2 ⟨trivial, hnext.1⟩, hnext.2⟩

theorem openScope {capture : Capture} {o : Nat} {g : ScopeId → Script β}
    (h : Meets E (g c.scopes.length) (c.openScope capture o) Q) :
    Meets E (openScope capture o >>= g) c Q := by
  intro hc
  have hnext := h ((later_openScope c capture o).valid hc)
  exact ⟨List.forall_mem_cons.2 ⟨trivial, hnext.1⟩, hnext.2⟩

theorem closeScope {id : ScopeId} {ss : List Node} {g : Unit → Script β}
    (hid : c.opened.head? = some id) (h : Meets E (g ()) (c.closeScope ss) Q) :
    Meets E (closeScope id ss >>= g) c Q := by
  intro hc
  have hnext := h ((later_closeScope c ss).valid hc)
  have hpoints : (Reader.closeScope id ss >>= g).points c =
      ⟨.closeScope id, c⟩ :: (g ()).points (c.closeScope ss) :=
    congrArg (List.cons _) (if_pos hid)
  have hrun : (Reader.closeScope id ss >>= g).run c = (g ()).run (c.closeScope ss) := if_pos hid
  rw [hpoints, hrun]
  exact ⟨List.forall_mem_cons.2 ⟨hid, hnext.1⟩, hnext.2⟩

theorem check {g : Bool → Script β} (hyes : c.current.kind = k → Meets E (g true) c Q)
    (hno : c.current.kind ≠ k → Meets E (g false) c Q) : Meets E (check k >>= g) c Q := by
  refine look (c := c) (g := fun t => g (decide (t.kind = k))) ?_
  by_cases hk : c.current.kind = k
  · simpa only [hk, decide_true] using hyes hk
  · simpa only [hk, decide_false] using hno hk

theorem checkAhead {n : Nat} {g : Bool → Script β} (hn : c.Valid → c.position + n ≤ c.stop)
    (h : ∀ b, Meets E (g b) c Q) : Meets E (checkAhead n k >>= g) c Q :=
  lookAhead (g := fun t => g (t.any fun u : Token => u.kind = k)) hn (h _)

theorem accept {g : Option Token → Script β} (hk : k ≠ .finish)
    (hyes : c.current.kind = k → Past c c.next → Meets E (g (some c.current)) c.next Q)
    (hno : c.current.kind ≠ k → Meets E (g none) c Q) : Meets E (accept k >>= g) c Q :=
  check (g := fun b => (if b then (some <$> Reader.advance) else pure none) >>= g)
    (fun h => advance (g := fun t => g (some t)) (h ▸ hk) (hyes h)) hno

theorem expect {e : Expected} (hk : k ≠ .finish)
    (h : c.current.kind = k → Past c c.next → Meets E (g c.current) c.next Q) :
    Meets E (expect k e >>= g) c Q := by
  rw [Reader.expect, Script.bind_assoc]
  exact accept hk h fun _ => miss e

theorem name {e : Expected} {g : String → Script β}
    (h : ∀ s, Past c c.next → Meets E (g s) c.next Q) : Meets E (name e >>= g) c Q := by
  rw [Reader.name, Script.bind_assoc]
  refine look ?_
  split
  · next s hk => exact advance (by simp [hk]) (h s)
  · exact miss e

theorem operator? {ℓ : Level} {g : Option (BinaryOp × Nat) → Script β}
    (hsome : ∀ op o, Past c c.next → Meets E (g (some (op, o))) c.next Q)
    (hnone : Meets E (g none) c Q) : Meets E (operator? ℓ >>= g) c Q := by
  rw [Reader.operator?, Script.bind_assoc]
  refine look ?_
  split
  · exact hnone
  · next op hop =>
    have hk : c.current.kind ≠ .finish := by
      intro hk
      rw [hk] at hop
      cases ℓ <;> cases hop
    split
    · rw [Script.bind_assoc]
      refine checkAhead (fun hc => hc.position_lt hk) fun b => ?_
      cases b with
      | true => exact hnone
      | false => exact advance hk (hsome op _)
    · exact advance hk (hsome op _)

theorem prefixOp? {ℓ : Level} {g : Option (UnaryOp × Nat) → Script β}
    (hsome : ∀ op o, Past c c.next → Meets E (g (some (op, o))) c.next Q)
    (hnone : Meets E (g none) c Q) : Meets E (prefixOp? ℓ >>= g) c Q := by
  rw [Reader.prefixOp?, Script.bind_assoc]
  refine look ?_
  split
  · exact hnone
  · next op hop =>
    refine advance (fun hk => ?_) (hsome op _)
    rw [hk] at hop
    cases ℓ <;> cases hop

theorem isReassignment {s : String} {g : Bool → Script β} (hk : c.current.kind = .name s)
    (h : ∀ b, Meets E (g b) c Q) : Meets E (isReassignment >>= g) c Q := by
  have hone : c.Valid → c.position + 1 ≤ c.stop := fun hc => hc.position_lt (by simp [hk])
  rw [Reader.isReassignment, Script.bind_assoc]
  refine checkAhead hone fun b => ?_
  cases b with
  | true => exact h true
  | false =>
    simp only [Bool.false_eq_true, if_false, Script.bind_assoc]
    refine lookAhead hone ?_
    split
    · next t ht =>
      split
      · next hcompound =>
        refine checkAhead (fun hc => ?_) h
        exact hc.add_lt_stop (hone hc) ht (ne_finish_of_compound? hcompound)
      · exact h false
    · exact h false

theorem assignment_past : Meets E Reader.assignment c fun _ => Past c := by
  rw [Reader.assignment]
  refine accept (by simp) (fun _ hnext => done hnext) fun _ => look ?_
  split
  · next op hop =>
    have hk := ne_finish_of_compound? (Option.isSome_of_eq_some hop)
    refine checkAhead (fun hc => hc.position_lt hk) fun b => ?_
    cases b with
    | false => exact miss _
    | true =>
      exact advance hk fun hnext => advance_onward fun _ hnext' => done (hnext.onward hnext')
  · exact miss _

theorem assignment {g : BinaryOp → Script β} (h : ∀ op {c'}, Past c c' → Meets E (g op) c' Q) :
    Meets E (assignment >>= g) c Q :=
  assignment_past.bind id fun hop => h _ hop

end Meets

end Rules

/-! ## The parts that are parsed on their own -/

section Parts

variable {E E' : Prop} {c : Cursor}

theorem meets_moreParameters (n : Nat) (read : List String) (c : Cursor) :
    Meets (c.left + 1 ≤ n) (moreParameters n read) c fun _ => Past c := by
  induction n generalizing read c with
  | zero => exact .spent (by omega)
  | succ n ih =>
    rw [moreParameters]
    refine .accept (by simp) (fun _ hcomma => .name fun s hname => ?_) fun _ => ?_
    · refine (ih _ _).imp (fun hE => ?_) fun h => (hcomma.trans hname).trans h
      have := hcomma.left_lt
      have := hname.left_lt
      omega
    · exact .expect (by simp) fun _ hnext => .done hnext

theorem meets_parameters (n : Nat) (c : Cursor) :
    Meets (c.left ≤ n + 1) (parameters n) c fun _ => Past c := by
  rw [parameters]
  refine .expect (by simp) fun _ hopen => .check (fun _ => ?_) fun _ => ?_
  · exact .expect (by simp) fun _ hclose => .done (hopen.trans hclose)
  · refine .name fun s hname => (meets_moreParameters n [s] _).imp (fun hE => ?_)
      fun h => (hopen.trans hname).trans h
    have := hopen.left_lt
    have := hname.left_lt
    omega

variable {first value : Script Node} {offset : Nat}

theorem meets_arguments {more : List Node → Script (List Node)}
    (hfirst : Meets E first c fun _ => Past c)
    (hmore : ∀ arg {c'}, Past c c' → Meets E (more [arg]) c' fun _ => Past c') :
    Meets E (arguments first more) c fun _ => Past c := by
  rw [arguments]
  refine .check (fun _ => ?_) fun _ => ?_
  · exact .expect (by simp) fun _ hclose => .done hclose
  · exact hfirst.bind id fun h => (hmore _ h).imp id fun h' => h.trans h'

/-- The kinds at which a statement is empty. -/
def endsBody (k : Kind) : Prop := k = .sign .closeBrace

/-- The kinds at which a `return` has no value. -/
def endsReturn (k : Kind) : Prop := k = .sign .semicolon ∨ k = .sign .closeBrace

theorem meets_statementList {more : List Node → Script (List Node × Bool)} (valued : Bool)
    (hfirst : Meets E first c fun _ => Moves endsBody c)
    (hmore : ∀ s {c'}, Onward c c' → Meets E (more [s]) c' fun _ => Onward c') :
    Meets E (statementList first more valued) c fun _ => Moves endsBody c := by
  rw [statementList]
  refine hfirst.bind id fun h => (hmore _ h.1).bind id fun h' => .look ?_
  split
  · exact .miss _
  · exact .done (h.onward h')

theorem meets_branch {condition : Script Node} {body : Script ScopeId}
    (hcondition : Meets E condition c fun _ => Past c)
    (hbody : ∀ {c'}, Past c c' → Meets E body c' fun _ => Past c') :
    Meets E (branch condition body offset) c fun _ => Past c := by
  rw [branch]
  exact hcondition.bind id fun h => (hbody h).bind id fun h' => .done (h.trans h')

theorem meets_leave (hvalue : Meets E value c fun _ => Past c) :
    Meets E (leave value offset) c fun _ => Moves endsReturn c := by
  rw [leave]
  refine .check (fun hk => ?_) fun _ => .check (fun hk => ?_) fun _ => ?_
  · exact .done ⟨.refl c, fun h => absurd (.inl hk) h⟩
  · exact .done ⟨.refl c, fun h => absurd (.inr hk) h⟩
  · exact hvalue.bind id fun h => .done (h.moves _)

theorem meets_reassignment (hvalue : ∀ {c'}, Past c c' → Meets E value c' fun _ => Past c') :
    Meets E (reassignment value offset) c fun _ => Past c := by
  rw [reassignment]
  refine .name fun s hname => .assignment fun op _ hop => ?_
  exact (hvalue (hname.trans hop)).bind id fun h => .done ((hname.trans hop).trans h)

end Parts

/-! ## The parsers that call each other -/

/-- The parsers with fuel `n` take tokens and leave the open scopes alone. -/
structure Careful (n : Nat) : Prop where
  expression : ∀ ℓ c, Meets (12 * c.left + 10 + c.brace ≤ n + rank ℓ) (expression n ℓ) c
    fun _ => Past c
  chain : ∀ ℓ left c, Meets (12 * c.left + 1 ≤ n) (chain n ℓ left) c fun _ => Onward c
  calls : ∀ callee c, Meets (12 * c.left + 1 ≤ n) (calls n callee) c fun _ => Onward c
  moreArguments : ∀ read c, Meets (12 * c.left + 1 ≤ n) (moreArguments n read) c fun _ => Past c
  primary : ∀ c, Meets (12 * c.left + 1 + c.brace ≤ n) (primary n) c fun _ => Past c
  function : ∀ o c, Meets (12 * c.left + 1 ≤ n) (function n o) c fun _ => Past c
  block : ∀ capture valued c, Meets (12 * c.left + 1 ≤ n) (block n capture valued) c fun _ => Past c
  moreStatements : ∀ read c, Meets (12 * c.left + 1 ≤ n) (moreStatements n read) c
    fun _ => Onward c
  statement : ∀ c, Meets (12 * c.left + 12 ≤ n) (statement n) c fun _ => Moves endsBody c
  bare : ∀ c, Meets (12 * c.left + 11 + c.brace ≤ n) (bare n) c fun _ => Past c
  binding : ∀ isPublic o c, Meets (12 * c.left + 1 ≤ n) (binding n isPublic o) c fun _ => Past c
  namedFunction : ∀ isPublic o c, Meets (12 * c.left + 1 ≤ n) (namedFunction n isPublic o) c
    fun _ => Past c

theorem careful_zero : Careful 0 where
  expression ℓ c := .spent (by have := rank_le ℓ; omega)
  chain _ _ _ := .spent (by omega)
  calls _ _ := .spent (by omega)
  moreArguments _ _ := .spent (by omega)
  primary _ := .spent (by omega)
  function _ _ := .spent (by omega)
  block _ _ _ := .spent (by omega)
  moreStatements _ _ := .spent (by omega)
  statement _ := .spent (by omega)
  bare _ := .spent (by omega)
  binding _ _ _ := .spent (by omega)
  namedFunction _ _ _ := .spent (by omega)

variable {n : Nat} {c : Cursor}

theorem careful_expression (ih : Careful n) (ℓ : Level) (c : Cursor) :
    Meets (12 * c.left + 10 + c.brace ≤ n + 1 + rank ℓ) (expression (n + 1) ℓ) c
      fun _ => Past c := by
  by_cases hℓ : ℓ = .call
  · subst hℓ
    rw [expression_call]
    refine (ih.primary c).bind (fun hE => by simp only [rank] at hE; omega) fun {_ c'} h => ?_
    refine (ih.calls _ c').imp (fun hE => ?_) h.onward
    have := h.left_lt
    simp only [rank] at hE
    omega
  · have hrank := rank_tighter hℓ
    have hle := rank_le ℓ.tighter
    rw [expression_ne_call hℓ]
    refine .prefixOp? (fun op o h => ?_) ?_
    · refine (ih.expression ℓ _).bind (fun hE => ?_) fun h' => .done (h.trans h')
      have := h.left_lt
      have := c.next.brace_le
      omega
    · refine (ih.expression _ c).bind (fun hE => by omega) fun {_ c'} h => ?_
      refine (ih.chain _ _ c').imp (fun hE => ?_) h.onward
      have := h.left_lt
      omega

theorem careful_chain (ih : Careful n) (ℓ : Level) (left : Node) (c : Cursor) :
    Meets (12 * c.left + 1 ≤ n + 1) (chain (n + 1) ℓ left) c fun _ => Onward c := by
  rw [chain]
  refine .operator? (fun op o h => ?_) (.done (.refl c))
  refine (ih.expression _ _).bind (fun hE => ?_) fun {_ c'} h' => ?_
  · have := h.left_lt
    have := c.next.brace_le
    omega
  · refine (ih.chain _ _ c').imp (fun hE => ?_) fun h'' => (h.trans h').toOnward.trans h''
    have := (h.trans h').left_lt
    omega

theorem careful_calls (ih : Careful n) (callee : Node) (c : Cursor) :
    Meets (12 * c.left + 1 ≤ n + 1) (calls (n + 1) callee) c fun _ => Onward c := by
  rw [calls]
  refine .accept (by simp) (fun _ h => ?_) fun _ => .done (.refl c)
  have hlt := h.left_lt
  have hbrace := c.next.brace_le
  have hargs : Meets (12 * c.left + 1 ≤ n + 1) (arguments (expression n .or) (moreArguments n))
      c.next fun _ => Past c.next := by
    refine meets_arguments ((ih.expression _ _).imp (fun hE => by omega) id) fun arg {c'} h' => ?_
    refine (ih.moreArguments _ _).imp (fun hE => ?_) id
    have := h'.left_lt
    omega
  refine hargs.bind id fun {_ c'} h' => ?_
  refine (ih.calls _ c').imp (fun hE => ?_) fun h'' => (h.trans h').toOnward.trans h''
  have := h'.left_lt
  omega

theorem careful_moreArguments (ih : Careful n) (read : List Node) (c : Cursor) :
    Meets (12 * c.left + 1 ≤ n + 1) (moreArguments (n + 1) read) c fun _ => Past c := by
  rw [moreArguments]
  refine .accept (by simp) (fun _ h => ?_) fun _ => .expect (by simp) fun _ h => .done h
  have hlt := h.left_lt
  have hbrace := c.next.brace_le
  refine (ih.expression _ _).bind (fun hE => by simp only [rank]; omega) fun {_ c'} h' => ?_
  refine (ih.moreArguments _ c').imp (fun hE => ?_) fun h'' => (h.trans h').trans h''
  have := h'.left_lt
  omega

theorem careful_primary (ih : Careful n) (c : Cursor) :
    Meets (12 * c.left + 1 + c.brace ≤ n + 1) (primary (n + 1)) c fun _ => Past c := by
  rw [primary]
  refine .look ?_
  split
  case h_1 hk | h_2 hk | h_3 hk | h_4 hk | h_5 hk =>
    exact .advance (by simp [hk]) fun h => .done h
  case h_6 hk =>
    refine .advance (by simp [hk]) fun h => ?_
    refine (ih.expression _ _).bind (fun hE => ?_) fun h' => ?_
    · have := h.left_lt
      have := c.next.brace_le
      simp only [rank]
      omega
    · exact .expect (by simp) fun _ h'' => .done ((h.trans h').trans h'')
  case h_7 hk =>
    refine .advance (by simp [hk]) fun h => (ih.function _ _).imp (fun hE => ?_) h.trans
    have := h.left_lt
    omega
  case h_8 hk =>
    refine (ih.block _ _ c).bind (fun hE => ?_) fun h => .done h
    simp only [brace, hk, if_true] at hE
    omega
  case h_9 => exact .miss _

theorem careful_function (ih : Careful n) (o : Nat) (c : Cursor) :
    Meets (12 * c.left + 1 ≤ n + 1) (function (n + 1) o) c fun _ => Past c := by
  rw [function]
  refine (meets_parameters n c).bind (fun hE => by omega) fun {_ c'} h => ?_
  refine (ih.block _ _ c').bind (fun hE => ?_) fun h' => .done (h.trans h')
  have := h.left_lt
  omega

theorem careful_block (ih : Careful n) (capture : Capture) (valued : Bool) (c : Cursor) :
    Meets (12 * c.left + 1 ≤ n + 1) (block (n + 1) capture valued) c fun _ => Past c := by
  rw [block]
  refine .look (.expect (by simp) fun _ h => .openScope ?_)
  have hlt := h.left_lt
  have hbody : Meets (12 * c.left + 1 ≤ n + 1)
      (statementList (statement n) (moreStatements n) valued)
      (c.next.openScope capture c.current.offset)
      fun _ => Moves endsBody (c.next.openScope capture c.current.offset) := by
    refine meets_statementList valued ((ih.statement _).imp (fun hE => ?_) id) fun s {c'} h' => ?_
    · simp only [left_openScope]
      omega
    · refine (ih.moreStatements _ _).imp (fun hE => ?_) id
      have := h'.left_le
      simp only [left_openScope] at this
      omega
  refine hbody.bind id fun {_ c₁} h₁ => .expect (by simp) fun _ h₂ => ?_
  have hopened : c₁.next.opened = c.next.scopes.length :: c.opened :=
    h₂.opened.trans (h₁.1.opened.trans (congrArg (List.cons _) h.opened))
  have htokens : c₁.next.tokens = c.tokens := h₂.tokens.trans (h₁.1.tokens.trans h.tokens)
  have hleft : c₁.next.left < c.left := h₂.left_lt.trans (h₁.1.left_le.trans_lt hlt)
  refine .closeScope (by rw [hopened]; rfl) (.done ⟨⟨htokens, ?_, hleft.le⟩, hleft⟩)
  exact congrArg List.tail hopened

theorem careful_moreStatements (ih : Careful n) (read : List Node) (c : Cursor) :
    Meets (12 * c.left + 1 ≤ n + 1) (moreStatements (n + 1) read) c fun _ => Onward c := by
  rw [moreStatements]
  refine .accept (by simp) (fun _ h => .check (fun _ => .done h.toOnward) fun _ => ?_)
    fun _ => .done (.refl c)
  have hlt := h.left_lt
  refine (ih.statement _).bind (fun hE => by omega) fun {_ c'} h' => ?_
  have hle := h'.1.left_le
  exact (ih.moreStatements _ c').imp (fun hE => by omega)
    fun h'' => (h.onward h'.1).toOnward.trans h''

theorem careful_statement (ih : Careful n) (c : Cursor) :
    Meets (12 * c.left + 12 ≤ n + 1) (statement (n + 1)) c fun _ => Moves endsBody c := by
  rw [statement]
  refine .look ?_
  have hbare : c.current.kind ≠ .sign .openBrace →
      Meets (12 * c.left + 12 ≤ n + 1) (bare n) c fun _ => Moves endsBody c := fun hk =>
    (ih.bare c).imp (fun hE => by rw [brace_of_ne hk]; omega) fun h => h.moves _
  -- Behind a token there is fuel enough for every expression.
  have hvalue : ∀ {c'}, Past c c' →
      Meets (12 * c.left + 12 ≤ n + 1) (expression n .or) c' fun _ => Past c' := by
    intro c' h
    refine (ih.expression .or c').imp (fun hE => ?_) id
    have := h.left_lt
    have := c'.brace_le
    simp only [rank]
    omega
  split
  case h_1 hk =>
    exact (ih.block _ _ c).bind (fun hE => by omega) fun h => .done (h.moves _)
  case h_2 hk =>
    refine .advance (by simp [hk]) fun h => (ih.binding _ _ _).imp (fun hE => ?_)
      fun h' => (h.trans h').moves _
    have := h.left_lt
    omega
  case h_3 hk =>
    refine .advance (by simp [hk]) fun h => .accept (by simp) (fun _ h' => ?_) fun _ =>
      .accept (by simp) (fun _ h' => ?_) fun _ => .miss _
    all_goals have := (h.trans h').left_lt
    · exact (ih.binding _ _ _).imp (fun hE => by omega) fun h'' => ((h.trans h').trans h'').moves _
    · exact (ih.namedFunction _ _ _).imp (fun hE => by omega)
        fun h'' => ((h.trans h').trans h'').moves _
  case h_4 hk =>
    have hfinish : c.current.kind ≠ .finish := by simp [hk]
    refine .lookAhead (fun hc => hc.position_lt hfinish) ?_
    split
    · refine .advance hfinish fun h => (ih.namedFunction _ _ _).imp (fun hE => ?_)
        fun h' => (h.trans h').moves _
      have := h.left_lt
      omega
    · exact hbare (by simp [hk])
  case h_5 hk =>
    refine .advance (by simp [hk]) fun h => ?_
    refine (meets_branch (hvalue h) fun {c'} h' => ?_).imp id fun h' => (h.trans h').moves _
    refine (ih.block _ _ _).imp (fun hE => ?_) id
    have := (h.trans h').left_lt
    omega
  case h_6 hk =>
    refine .advance (by simp [hk]) fun h => (meets_leave (hvalue h)).imp id fun h' => ?_
    exact (h.onward h'.1).moves _
  case h_7 hk =>
    refine .advance (by simp [hk]) fun h => (hvalue h).bind id fun h' => .done ?_
    exact (h.trans h').moves _
  case h_8 hk => exact .done ⟨.refl c, fun h => absurd hk h⟩
  case h_9 hk =>
    refine .isReassignment hk fun b => ?_
    cases b with
    | true => exact (meets_reassignment hvalue).imp id fun h => h.moves _
    | false => exact hbare (by simp [hk])
  case h_10 hk _ _ _ _ _ _ _ _ => exact hbare hk

theorem careful_bare (ih : Careful n) (c : Cursor) :
    Meets (12 * c.left + 11 + c.brace ≤ n + 1) (bare (n + 1)) c fun _ => Past c := by
  rw [bare]
  refine (ih.expression _ c).bind (fun hE => by simp only [rank]; omega) fun h => ?_
  exact .check (fun _ => .miss _) fun _ => .done h

theorem careful_binding (ih : Careful n) (isPublic : Bool) (o : Nat) (c : Cursor) :
    Meets (12 * c.left + 1 ≤ n + 1) (binding (n + 1) isPublic o) c fun _ => Past c := by
  rw [binding]
  refine .look (.name fun s hname => .assignment fun op {c'} hop => ?_)
  refine (ih.expression _ c').bind (fun hE => ?_) fun h => .done ((hname.trans hop).trans h)
  have := (hname.trans hop).left_lt
  have := c'.brace_le
  simp only [rank]
  omega

theorem careful_namedFunction (ih : Careful n) (isPublic : Bool) (o : Nat) (c : Cursor) :
    Meets (12 * c.left + 1 ≤ n + 1) (namedFunction (n + 1) isPublic o) c fun _ => Past c := by
  rw [namedFunction]
  refine .name fun s hname => (ih.function _ _).bind (fun hE => ?_) fun h => .done (hname.trans h)
  have := hname.left_lt
  omega

theorem careful : ∀ n : Nat, Careful n
  | 0 => careful_zero
  | n + 1 =>
    have ih := careful n
    { expression := careful_expression ih
      chain := careful_chain ih
      calls := careful_calls ih
      moreArguments := careful_moreArguments ih
      primary := careful_primary ih
      function := careful_function ih
      block := careful_block ih
      moreStatements := careful_moreStatements ih
      statement := careful_statement ih
      bare := careful_bare ih
      binding := careful_binding ih
      namedFunction := careful_namedFunction ih }

theorem meets_program (n : Nat) (c : Cursor) :
    Meets (12 * c.left + 1 ≤ n) (program n) c fun _ => Past c := by
  rw [program]
  refine ((careful n).block _ _ c).bind id fun h => ?_
  exact .check (fun _ => .done h) fun _ => .miss _

end ScopeScript.Reader
