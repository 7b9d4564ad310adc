import Mathlib
import ScopeScript.Proofs.Token.Pieces

/-!
# The steps of the lexer

`Steps o cs ps`: the lexer goes through the text `cs`, which stands at offset `o`, in the stretches
`ps`. A stretch holds the characters of one step, with the kind of the token that the step makes, if
it makes one. The tokens of a text are those of its stretches (`exists_steps`); unlike the tokens,
the stretches also say where each token ends, and where a comment was skipped.
-/

namespace ScopeScript.Token

open Text (byteLength StandsAt)

/-- What one step takes: the characters from `offset` on, and the kind of the token that they are,
unless they are skipped. -/
structure Stretch where
  kind : Option Kind
  offset : Nat
  text : List Char
  deriving DecidableEq

namespace Stretch

def token? (p : Stretch) : Option Token := p.kind.map (⟨·, p.offset⟩)

/-- Where the stretch starts, and its characters. -/
def extent (p : Stretch) : Nat × List Char := (p.offset, p.text)

def isText (p : Stretch) : Bool :=
  match p.kind with
  | some (.text _) => true
  | _ => false

/-- The stretch is a comment, which is skipped. -/
def isComment (p : Stretch) : Bool := p.kind.isNone && p.text.head? == some '#'

theorem isComment_of_isText {p : Stretch} (h : p.isText = true) : p.isComment = false := by
  unfold isText at h
  split at h
  · next hk => simp [isComment, hk]
  · cases h

theorem head_of_isComment {p : Stretch} (h : p.isComment = true) : p.text.head? = some '#' := by
  rw [isComment, Bool.and_eq_true, beq_iff_eq] at h
  exact h.2

end Stretch

/-- The lexer goes through the text, which stands at `offset`, in these stretches. -/
inductive Steps : Nat → List Char → List Stretch → Prop where
  | done (offset : Nat) : Steps offset [] []
  | step {offset : Nat} {c : Char} {cs rest : List Char} {kind : Option Kind} {ps : List Stretch} :
      lexeme offset c (cs ++ rest) = .ok ⟨kind, offset + byteLength (c :: cs), rest⟩ →
      Steps (offset + byteLength (c :: cs)) rest ps →
      Steps offset (c :: (cs ++ rest)) (⟨kind, offset, c :: cs⟩ :: ps)

variable {offset : Nat} {c : Char} {cs rest : List Char} {ps : List Stretch}

/-- A step takes its first character, at least. -/
theorem exists_taken {step : Step} (h : lexeme offset c cs = .ok step) :
    ∃ ds, cs = ds ++ step.rest ∧ step.offset = offset + byteLength (c :: ds) := by
  cases piece_of_lexeme h with
  | @lexeme k l rest hl hend hcs =>
    obtain ⟨d, ds, rfl, -⟩ := lexeme_of_written hl hend offset
    obtain ⟨rfl, hds⟩ := List.cons.inj hcs
    exact ⟨ds, hds, rfl⟩
  | blank _ => exact ⟨[], rfl, rfl⟩
  | @comment body rest _ _ _ hcs => exact ⟨body, hcs, rfl⟩

/-- What is taken is a lexeme, a blank, or a comment up to the end of its line. -/
theorem taken_cases {kind : Option Kind} {n : Nat}
    (h : lexeme offset c (cs ++ rest) = .ok ⟨kind, n, rest⟩) :
    (∃ k, kind = some k ∧ k.Written (c :: cs)) ∨
      (kind = none ∧ cs = [] ∧ Text.isBlank c = true) ∨
      (kind = none ∧ c = '#' ∧ '\n' ∉ cs ∧ ∀ d ∈ rest.head?, d = '\n') := by
  generalize hstep : (⟨kind, n, rest⟩ : Step) = step at h
  cases piece_of_lexeme h with
  | @lexeme k l after hl _ hcs =>
    obtain ⟨rfl, -, rfl⟩ := Step.mk.inj hstep
    rw [← List.cons_append] at hcs
    exact .inl ⟨k, rfl, List.append_cancel_right hcs ▸ hl⟩
  | blank hc =>
    obtain ⟨rfl, -, hrest⟩ := Step.mk.inj hstep
    exact .inr (.inl ⟨rfl, List.self_eq_append_left.1 hrest, hc⟩)
  | @comment body after hc hbody hafter hcs =>
    obtain ⟨rfl, -, rfl⟩ := Step.mk.inj hstep
    obtain rfl := List.append_cancel_right hcs
    exact .inr (.inr ⟨rfl, hc, hbody, hafter⟩)

/-- In a line, nothing is behind a comment. -/
theorem eq_nil_of_head (hend : ∀ d ∈ rest.head?, d = '\n') (hrest : '\n' ∉ rest) : rest = [] := by
  cases rest with
  | nil => rfl
  | cons d rest =>
    obtain rfl := hend d rfl
    exact absurd List.mem_cons_self hrest

/-- A text that is read is gone through in stretches, and its tokens are theirs. -/
theorem exists_steps {fuel : Nat} {read ts : List Token} (hfuel : cs.length ≤ fuel)
    (h : scanFrom fuel offset cs read = .ok ts) :
    ∃ ps, Steps offset cs ps ∧ ts = read.reverse ++ ps.filterMap Stretch.token? := by
  induction fuel generalizing offset cs read with
  | zero =>
    obtain rfl := List.eq_nil_of_length_eq_zero (Nat.le_zero.1 hfuel)
    cases h
    exact ⟨[], .done offset, (List.append_nil _).symm⟩
  | succ fuel ih =>
    cases cs with
    | nil =>
      cases h
      exact ⟨[], .done offset, (List.append_nil _).symm⟩
    | cons c cs =>
      rw [scanFrom] at h
      split at h
      · cases h
      next step hstep =>
      obtain ⟨ds, rfl, hoffset⟩ := exists_taken hstep
      obtain ⟨kind, n, rest⟩ := step
      obtain rfl : n = offset + byteLength (c :: ds) := hoffset
      dsimp only at hfuel h
      rw [List.length_cons, List.length_append] at hfuel
      obtain ⟨ps, hps, rfl⟩ := ih (by omega) h
      refine ⟨⟨kind, offset, c :: ds⟩ :: ps, .step hstep hps, ?_⟩
      cases kind with
      | none => rfl
      | some k =>
        dsimp only
        rw [List.reverse_cons, List.append_assoc]
        rfl

/-- A token is what is written in its stretch. -/
theorem Steps.written (h : Steps offset cs ps) :
    ∀ p ∈ ps, ∀ k, p.kind = some k → k.Written p.text := by
  induction h with
  | done => simp
  | @step offset c cs rest kind ps hlex _ ih =>
    refine List.forall_mem_cons.2 ⟨fun k hk => ?_, ih⟩
    obtain rfl : kind = some k := hk
    rcases taken_cases hlex with ⟨k', hk', hwritten⟩ | ⟨hnone, -⟩ | ⟨hnone, -⟩
    · obtain rfl := Option.some.inj hk'
      exact hwritten
    · cases hnone
    · cases hnone

/-- A comment stands at its offset, and runs to the end of a line. -/
theorem Steps.standsAt_comment (h : Steps offset cs ps) (hline : '\n' ∉ cs) :
    ∀ p ∈ ps, p.isComment = true → ∃ n, p.offset = offset + n ∧ StandsAt cs n p.text := by
  induction h with
  | done => simp
  | @step offset c cs rest kind ps hlex _ ih =>
    have hrest : '\n' ∉ rest := fun hmem => hline (by simp [hmem])
    refine List.forall_mem_cons.2 ⟨fun hcomment => ⟨0, rfl, ?_⟩, fun p hp hcomment => ?_⟩
    · have hhash := Stretch.head_of_isComment hcomment
      rcases taken_cases hlex with ⟨k, rfl, -⟩ | ⟨-, -, hblank⟩ | ⟨-, -, -, hend⟩
      · cases hcomment
      · obtain rfl : c = '#' := Option.some.inj hhash
        cases hblank
      · obtain rfl := eq_nil_of_head hend hrest
        rw [List.append_nil]
        exact .refl _
    · obtain ⟨n, hn, hstands⟩ := ih hrest p hp hcomment
      refine ⟨byteLength (c :: cs) + n, by rw [hn, Nat.add_assoc], ?_⟩
      exact StandsAt.trans ⟨c :: cs, rfl, rfl⟩ hstands

end ScopeScript.Token
