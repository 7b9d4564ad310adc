import ScopeScript.Proofs.Grammar.Boundary

/-!
# The small parsers

When each of the parsers that take a fixed number of tokens succeeds, and with what; how the tables
of the parser and of the grammar correspond.
-/

namespace ScopeScript

section Success

variable {ε σ α β : Type} {s s' : σ}

theorem bind_ok {x : EStateM ε σ α} {f : α → EStateM ε σ β} {b : β} :
    (x >>= f) s = .ok b s' ↔ ∃ a s₁, x s = .ok a s₁ ∧ f a s₁ = .ok b s' := by
  change EStateM.bind x f s = _ ↔ _
  unfold EStateM.bind
  cases x s with
  | ok a s₁ =>
    constructor
    · exact fun h => ⟨a, s₁, rfl, h⟩
    · rintro ⟨_, _, h, hf⟩
      cases h
      exact hf
  | error e s₁ => simp

theorem bind_of_ok {x : EStateM ε σ α} {f : α → EStateM ε σ β} {a : α} (h : x s = .ok a s') :
    (x >>= f) s = f a s' := by
  change EStateM.bind x f s = _
  simp only [EStateM.bind, h]

theorem get_bind {f : σ → EStateM ε σ β} : (get >>= f) s = f s s := rfl

theorem set_bind {s₁ : σ} {f : PUnit → EStateM ε σ β} : (set s₁ >>= f) s = f ⟨⟩ s₁ := rfl

theorem pure_ok {a b : α} : (pure a : EStateM ε σ α) s = .ok b s' ↔ a = b ∧ s = s' := by
  change EStateM.Result.ok a s = _ ↔ _
  rw [EStateM.Result.ok.injEq]

theorem throw_ok {e : ε} {a : α} : (throw e : EStateM ε σ α) s = .ok a s' ↔ False :=
  ⟨fun h => (by cases h), False.elim⟩

end Success

/-! ## Failure of a computation with state -/

section Failure

variable {ε σ α β : Type} {s s' : σ}

theorem bind_error {x : EStateM ε σ α} {f : α → EStateM ε σ β} {e : ε} :
    (x >>= f) s = .error e s' ↔
      x s = .error e s' ∨ ∃ a s₁, x s = .ok a s₁ ∧ f a s₁ = .error e s' := by
  change EStateM.bind x f s = _ ↔ _
  unfold EStateM.bind
  cases x s with
  | ok a s₁ =>
    constructor
    · exact fun h => .inr ⟨a, s₁, rfl, h⟩
    · rintro (h | ⟨_, _, h, hf⟩)
      · cases h
      · cases h
        exact hf
  | error e s₁ => simp

theorem pure_error {a : α} {e : ε} : (pure a : EStateM ε σ α) s = .error e s' ↔ False :=
  ⟨fun h => (by cases h), False.elim⟩

theorem throw_error {e e' : ε} :
    (throw e : EStateM ε σ α) s = .error e' s' ↔ e = e' ∧ s = s' := by
  change EStateM.Result.error e s = _ ↔ _
  rw [EStateM.Result.error.injEq]

end Failure

namespace Tree.Parse

open Grammar (Derivation joins? leads? compounds? rank Opening Closed)
open Token (Kind)

theorem operator?_eq_some_iff {ℓ : Level} {k : Kind} {op : BinaryOp} :
    ℓ.operator? k = some op ↔ joins? k = some (ℓ, op) := by
  constructor
  · intro h
    unfold Level.operator? at h
    split at h <;> first | cases h; rfl | cases h
  · intro h
    unfold joins? at h
    split at h <;> first | cases h; rfl | cases h

theorem prefixOp?_eq_some_iff {ℓ : Level} {k : Kind} {op : UnaryOp} :
    ℓ.prefixOp? k = some op ↔ leads? k = some (ℓ, op) := by
  constructor
  · intro h
    unfold Level.prefixOp? at h
    split at h <;> first | cases h; rfl | cases h
  · intro h
    unfold leads? at h
    split at h <;> first | cases h; rfl | cases h

/-! ## Parsers of one token -/

section

variable {ts r : List Token}

theorem refuse_ok {p : List Token → Bool} {e : Expected} {u : Unit} :
    refuse p e ts = .ok u r ↔ p ts = false ∧ ts = r := by
  rw [refuse, get_bind]
  cases p ts with
  | true => simp [throw_ok]
  | false => simp [pure_ok]

theorem expect_ok {g : Sign} {e : Expected} {o : Nat} :
    expect g e ts = .ok o r ↔ ts = ⟨.sign g, o⟩ :: r := by
  rw [expect, get_bind]
  constructor
  · intro h
    split at h
    · split at h
      · simp only [set_bind, pure_ok] at h
        simp_all
      · exact (throw_ok.1 h).elim
    · exact (throw_ok.1 h).elim
  · rintro rfl
    simp only [↓reduceIte, set_bind, pure_ok, and_self]

theorem name_ok {e : Expected} {s : String} {o : Nat} :
    name e ts = .ok (s, o) r ↔ ts = ⟨.name s, o⟩ :: r := by
  rw [name, get_bind]
  constructor
  · intro h
    split at h
    · simp only [set_bind, pure_ok, Prod.mk.injEq] at h
      simp_all
    · exact (throw_ok.1 h).elim
  · rintro rfl
    simp only [set_bind, pure_ok, and_self]

theorem assignment_ok {op : BinaryOp} :
    assignment ts = .ok op r ↔ assignment? ts = some (op, r) := by
  rw [assignment, get_bind]
  cases assignment? ts with
  | none => simp [throw_ok]
  | some p => simp [set_bind, pure_ok, Prod.ext_iff]

theorem operator?_eq_some {ℓ : Level} {op : BinaryOp} {o : Nat}
    (h : operator? ℓ ts = some (op, o, r)) :
    ∃ k, ts = ⟨k, o⟩ :: r ∧ joins? k = some (ℓ, op) := by
  unfold operator? at h
  split at h
  · split at h
    · cases h
    · simp only [Option.map_eq_some_iff, Prod.mk.injEq, operator?_eq_some_iff] at h
      obtain ⟨_, hk, rfl, rfl, rfl⟩ := h
      exact ⟨_, rfl, hk⟩
  · cases h

theorem prefixOp?_eq_some {ℓ : Level} {op : UnaryOp} {o : Nat}
    (h : prefixOp? ℓ ts = some (op, o, r)) :
    ∃ k, ts = ⟨k, o⟩ :: r ∧ leads? k = some (ℓ, op) := by
  unfold prefixOp? at h
  split at h
  · simp only [Option.map_eq_some_iff, Prod.mk.injEq, prefixOp?_eq_some_iff] at h
    obtain ⟨_, hk, rfl, rfl, rfl⟩ := h
    exact ⟨_, rfl, hk⟩
  · cases h

theorem assignment?_eq_some {op : BinaryOp} (h : assignment? ts = some (op, r)) :
    ∃ d : Derivation .assignment, ts = d.tokens ++ r ∧ d.tree = op := by
  unfold assignment? at h
  split at h
  · next o rest =>
    cases h
    exact ⟨.plain o, rfl, rfl⟩
  · next k o o' rest _ =>
    simp only [Option.map_eq_some_iff, Prod.mk.injEq] at h
    obtain ⟨op, hk, rfl, rfl⟩ := h
    exact ⟨.compound k op hk o o', rfl, rfl⟩
  · cases h

theorem assignment?_compound {k : Kind} (hk : k ≠ .sign .equal) (o o' : Nat)
    (ts : List Token) :
    assignment? (⟨k, o⟩ :: ⟨.sign .equal, o'⟩ :: ts) = (compound? k).map (·, ts) := by
  unfold assignment?
  split
  · next e => exact absurd (congrArg (fun ts => (ts.head?.map Token.kind)) e) (by simp [hk])
  · next e => cases e; rfl
  · next h => exact absurd rfl (h _ _ _ _)

end

end Tree.Parse

end ScopeScript
