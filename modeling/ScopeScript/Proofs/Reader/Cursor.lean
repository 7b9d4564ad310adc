import Mathlib.Data.List.Infix
import ScopeScript.Reader.Script

/-!
# What every script keeps

A cursor is valid (`Cursor.Valid`) if its position is not past the first `finish` and its open
scopes are nested. Every access to a cursor keeps that, never goes back, and leaves the tokens alone
(`Cursor.Later`); so does every run, whatever the script.
-/

namespace ScopeScript.Reader

namespace Cursor

variable {c c' c'' : Cursor}

/-- The index of the first `finish`. -/
def stop (c : Cursor) : Nat := c.tokens.findIdx (·.kind = .finish)

structure Valid (c : Cursor) : Prop where
  position_le : c.position ≤ c.stop
  stop_lt : c.stop < c.tokens.length
  /-- The numbers of the open scopes rise from the outermost to the innermost one. -/
  decreasing : c.opened.Pairwise (· > ·)
  /-- An open scope lies in the one below it on the stack. -/
  inside : ∀ {id outer}, id :: outer <:+ c.opened →
    ∃ s, c.scopes[id]? = some s ∧ s.id = id ∧ s.parent = outer.head?

theorem Valid.getElem?_position (h : c.Valid) : c.tokens[c.position]? = some c.current := by
  have hlt : c.position < c.tokens.length := h.position_le.trans_lt h.stop_lt
  rw [current, tokenAt, Nat.min_eq_left (by omega), List.getElem?_eq_getElem hlt]
  rfl

theorem Valid.current_eq_finish_iff (h : c.Valid) :
    c.current.kind = .finish ↔ c.position = c.stop := by
  obtain ⟨hlt, hget⟩ := List.getElem?_eq_some_iff.1 h.getElem?_position
  obtain ⟨hstop, hbefore⟩ := (List.findIdx_eq h.stop_lt).1 rfl
  constructor
  · intro hk
    refine le_antisymm h.position_le (Nat.le_of_not_lt fun hpos => ?_)
    simpa [hget, hk] using hbefore _ hpos
  · intro hpos
    simpa [← hget, hpos] using hstop

theorem next_of_ne (hk : c.current.kind ≠ .finish) :
    c.next = { c with position := c.position + 1 } := if_neg hk

theorem Valid.previous_next (h : c.Valid) (hk : c.current.kind ≠ .finish) :
    c.next.previous = c.current := by
  simp only [next_of_ne hk, previous, tokenAt, Nat.add_sub_cancel, h.getElem?_position,
    Option.getD_some]

/-- What a run makes of a cursor: it keeps the tokens and does not go back. -/
structure Later (c c' : Cursor) : Prop where
  tokens : c'.tokens = c.tokens
  position_le : c.position ≤ c'.position
  valid : c.Valid → c'.Valid

namespace Later

theorem refl (c : Cursor) : Later c c := ⟨rfl, le_rfl, id⟩

theorem trans (h : Later c c') (h' : Later c' c'') : Later c c'' :=
  ⟨h'.tokens.trans h.tokens, h.position_le.trans h'.position_le, h'.valid ∘ h.valid⟩

end Later

theorem later_next (c : Cursor) : Later c c.next := by
  by_cases hk : c.current.kind = .finish
  · rw [next, if_pos hk]
    exact .refl c
  rw [next_of_ne hk]
  refine ⟨rfl, Nat.le_succ _, fun h => ⟨?_, h.stop_lt, h.decreasing, h.inside⟩⟩
  exact h.position_le.lt_of_ne (hk ∘ h.current_eq_finish_iff.2)

/-- The numbers of open scopes are numbers of scopes. -/
theorem Valid.lt_of_mem (h : c.Valid) {id : ScopeId} (hid : id ∈ c.opened) :
    id < c.scopes.length := by
  obtain ⟨inner, outer, ho⟩ := List.append_of_mem hid
  obtain ⟨s, hs, -⟩ := h.inside ⟨inner, ho.symm⟩
  exact (List.getElem?_eq_some_iff.1 hs).1

theorem later_openScope (c : Cursor) (capture : Capture) (o : Nat) :
    Later c (c.openScope capture o) := by
  refine ⟨rfl, le_rfl, fun h => ⟨h.position_le, h.stop_lt, ?_, fun {id outer} hsuffix => ?_⟩⟩
  · exact List.pairwise_cons.2 ⟨fun _ hid => h.lt_of_mem hid, h.decreasing⟩
  rcases List.suffix_cons_iff.1 hsuffix with heq | hsuffix
  · obtain ⟨rfl, rfl⟩ := List.cons.inj heq
    exact ⟨_, List.getElem?_concat_length, rfl, rfl⟩
  · obtain ⟨s, hs, hprop⟩ := h.inside hsuffix
    exact ⟨s, by rw [openScope, List.getElem?_append_left (List.getElem?_eq_some_iff.1 hs).1, hs],
      hprop⟩

/-- The innermost scope can be taken off the stack. -/
theorem later_tail (c : Cursor) : Later c { c with opened := c.opened.tail } :=
  ⟨rfl, le_rfl, fun h => ⟨h.position_le, h.stop_lt, h.decreasing.tail,
    fun hsuffix => h.inside (hsuffix.trans (List.tail_suffix _))⟩⟩

theorem later_closeScope (c : Cursor) (statements : List Node) :
    Later c (c.closeScope statements) := by
  refine (later_tail c).trans ⟨rfl, le_rfl, fun h => ⟨h.position_le, h.stop_lt, h.decreasing, ?_⟩⟩
  intro id outer hsuffix
  obtain ⟨s, hs, hid, hparent⟩ := h.inside hsuffix
  simp only [closeScope] at hs ⊢
  cases c.opened with
  | nil => exact ⟨s, hs, hid, hparent⟩
  | cons top _ =>
    rw [List.getElem?_modify, hs]
    by_cases htop : top = id
    · exact ⟨{ s with statements }, by simp [htop], hid, hparent⟩
    · exact ⟨s, by simp [htop], hid, hparent⟩

theorem valid_start (tokens : List Token) : (start tokens).Valid := by
  suffices h : ∃ t ∈ (start tokens).tokens, t.kind = .finish by
    refine ⟨Nat.zero_le _, List.findIdx_lt_length.2 (by simpa using h), .nil, fun h => ?_⟩
    cases List.eq_nil_of_suffix_nil h
  simp only [start]
  cases hlast : tokens.getLast? with
  | none => exact ⟨_, List.mem_singleton_self _, rfl⟩
  | some t =>
    dsimp only
    split
    · next hk => exact ⟨t, List.mem_of_getLast? hlast, hk⟩
    · exact ⟨_, List.mem_append_right _ (List.mem_singleton_self _), rfl⟩

end Cursor

/-! ## Runs -/

def Outcome.cursor? {α : Type} : Outcome α → Option Cursor
  | .ok _ c | .failed _ c => some c
  | .spent => none

namespace Script

open Cursor

variable {α β γ : Type} {c c' : Cursor}

theorem bind_assoc (x : Script α) (f : α → Script β) (g : β → Script γ) :
    x >>= f >>= g = x >>= fun a => f a >>= g := by
  change (x.bind f).bind g = x.bind fun a => (f a).bind g
  induction x with
  | done | miss | spent => rfl
  | peek k ih | ahead _ k ih | advance k ih | openScope _ _ k ih =>
    simp only [bind]
    congr 1
    exact funext ih
  | closeScope id ss k ih => simp only [bind, ih]

theorem run_bind (x : Script α) (f : α → Script β) (c : Cursor) :
    (x >>= f).run c =
      match x.run c with
      | .ok a c' => (f a).run c'
      | .failed m c' => .failed m c'
      | .spent => .spent := by
  change (x.bind f).run c = _
  induction x generalizing c with
  | done | miss | spent => rfl
  | peek k ih | ahead _ k ih | advance k ih | openScope _ _ k ih => exact ih _ _
  | closeScope id ss k ih =>
    simp only [bind, run]
    split
    · exact ih _
    · rfl

theorem points_bind (x : Script α) (f : α → Script β) (c : Cursor) :
    (x >>= f).points c = x.points c ++
      match x.run c with
      | .ok a c' => (f a).points c'
      | _ => [] := by
  change (x.bind f).points c = _
  induction x generalizing c with
  | done | miss | spent => rfl
  | peek k ih | ahead _ k ih | advance k ih | openScope _ _ k ih =>
    exact congrArg (List.cons _) (ih _ _)
  | closeScope id ss k ih =>
    simp only [bind, run, points]
    split
    · exact congrArg (List.cons _) (ih _)
    · rfl

theorem later_of_run {x : Script α} (h : (x.run c).cursor? = some c') : Later c c' := by
  induction x generalizing c with
  | done | miss => cases h; exact .refl _
  | spent => cases h
  | peek k ih | ahead _ k ih => exact ih _ h
  | advance k ih => exact (later_next c).trans (ih _ h)
  | openScope _ _ k ih => exact (later_openScope c _ _).trans (ih _ h)
  | closeScope id ss k ih =>
    rw [run] at h
    split at h
    · exact (later_closeScope c ss).trans (ih h)
    · cases h
      exact later_tail c

theorem later_of_ok {x : Script α} {a : α} (h : x.run c = .ok a c') : Later c c' :=
  later_of_run (by rw [h]; rfl)

theorem later_of_mem_points {x : Script α} {p : Point} (h : p ∈ x.points c) :
    Later c p.cursor := by
  induction x generalizing c with
  | done | spent => cases h
  | miss =>
    cases List.mem_singleton.1 h
    exact .refl c
  | peek k ih | ahead _ k ih =>
    rcases List.mem_cons.1 h with rfl | h
    · exact .refl c
    · exact ih _ h
  | advance k ih =>
    rcases List.mem_cons.1 h with rfl | h
    · exact .refl c
    · exact (later_next c).trans (ih _ h)
  | openScope _ _ k ih =>
    rcases List.mem_cons.1 h with rfl | h
    · exact .refl c
    · exact (later_openScope c _ _).trans (ih _ h)
  | closeScope id ss k ih =>
    rcases List.mem_cons.1 h with rfl | h
    · exact .refl c
    split at h
    · exact (later_closeScope c ss).trans (ih h)
    · cases List.mem_singleton.1 h
      exact later_tail c

end Script

end ScopeScript.Reader
