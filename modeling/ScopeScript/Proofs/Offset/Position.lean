import Mathlib
import ScopeScript.Proofs.Offset.Execution
import ScopeScript.Proofs.Token.Position

/-!
# Reported positions

Every offset in an execution is that of a token, and every printed line has the offset of a `print`:
this is matching a token list with itself, along the alignment of its own offsets. What the lexer
says about tokens then places all of them in the source text (`execute_positions`).
-/

namespace ScopeScript

open Token (AllMatch Spells)
open Text (StandsAt)

/-- All offsets of an execution: of the statement started last, of the fault and of the lines. -/
def Execution.positions (e : Execution) : List Nat :=
  e.last :: (e.fault.map (·.offset)).toList ++ e.output.toList.map (·.offset)

/-- The offsets of these tokens, each standing for itself. -/
def Alignment.among (ts : List Token) : Alignment where
  place o o' := o = o' ∧ ∃ t ∈ ts, t.offset = o
  print o _ := ⟨.keyword .print, o⟩ ∈ ts

theorem Token.allMatch_self (ts : List Token) : AllMatch (.among ts) ts ts := by
  refine List.forall₂_same.2 fun t ht => ?_
  obtain ⟨k, o⟩ := t
  refine .mk ⟨rfl, _, ht, rfl⟩ fun hk => ?_
  subst hk
  exact ht

namespace Execution

variable {ts : List Token}

/-- Every line of an execution has the offset of a `print`. -/
theorem print_mem (h : ts ≠ []) (limit : Nat) :
    ∀ l ∈ (ofTokens ts limit).output, (⟨.keyword .print, l.offset⟩ : Token) ∈ ts := by
  intro l hl
  have hlines := List.forall₂_same.1 (matches_ofTokens (Token.allMatch_self ts) h limit).output
  cases hlines l (Array.mem_toList_iff.2 hl) with
  | mk _ _ hp => exact hp

/-- Every offset of an execution is that of a token. -/
theorem exists_token (h : ts ≠ []) (limit : Nat) :
    ∀ o ∈ (ofTokens ts limit).positions, ∃ t ∈ ts, t.offset = o := by
  intro o ho
  have hmatch := matches_ofTokens (Token.allMatch_self ts) h limit
  simp only [positions, List.cons_append, List.mem_cons, List.mem_append, List.mem_map,
    Option.mem_toList, Option.map_eq_some_iff] at ho
  rcases ho with rfl | ⟨f, hf, rfl⟩ | ⟨l, hl, rfl⟩
  · exact hmatch.last.2
  · have hfault := hmatch.fault
    rw [hf] at hfault
    cases hfault with
    | some hf => exact hf.offset.2
  · exact ⟨_, print_mem h limit l (Array.mem_toList_iff.1 hl), rfl⟩

end Execution

/-- Something of the source text stands at every offset of its execution. -/
theorem exists_standsAt (source : String) (limit : Nat) :
    ∀ o ∈ (execute source limit).positions, ∃ rest, StandsAt source.toList o rest := by
  intro o ho
  cases h : Token.scan source with
  | ok ts =>
    rw [execute_of_scan h] at ho
    obtain ⟨t, ht, rfl⟩ := Execution.exists_token (Token.ne_nil_of_scan h) limit o ho
    obtain ⟨rest, hrest, -⟩ := Token.located_of_scan h t ht
    exact ⟨rest, hrest⟩
  | error f =>
    obtain ⟨c, rest, hrest⟩ := Token.inside_of_scan h
    rw [execute_of_scan_error h] at ho
    have hf : o = f.offset := by
      simpa [Execution.positions, Fault.offset] using ho
    exact ⟨c :: rest, hf ▸ hrest⟩

/-- Every reported position is real. It is a character boundary of the source text, where a report
cuts the text exactly. If the text has tokens, the position is that of a token, and that of a line
is where the keyword `print` is written; if not, the fault is at a character of the text. -/
theorem execute_positions (source : String) (limit : Nat) :
    let e := execute source limit
    (∀ o ∈ e.positions, o ≤ source.utf8ByteSize ∧ String.Pos.Raw.IsValid source ⟨o⟩ ∧
      Text.byteLength (Text.splitAtByte o source.toList).1 = o) ∧
    (∀ ts, Token.scan source = .ok ts → (∀ o ∈ e.positions, ∃ t ∈ ts, t.offset = o) ∧
      ∀ l ∈ e.output, ⟨.keyword .print, l.offset⟩ ∈ ts ∧
        ∃ rest, StandsAt source.toList l.offset rest ∧ Spells rest .print) ∧
    ∀ f, Token.scan source = .error f →
      e.fault = some (.lex f) ∧ f.offset < source.utf8ByteSize := by
  refine ⟨fun o ho => ?_, fun ts h => ?_, fun f h => ?_⟩
  · obtain ⟨rest, hrest⟩ := exists_standsAt source limit o ho
    have hvalid := Text.isValid_of_standsAt hrest
    exact ⟨hvalid.le_rawEndPos, hvalid, Text.splitAtByte_of_standsAt hrest⟩
  · rw [execute_of_scan h]
    have hne := Token.ne_nil_of_scan h
    refine ⟨Execution.exists_token hne limit, fun l hl => ?_⟩
    have hprint := Execution.print_mem hne limit l hl
    obtain ⟨rest, hrest, hspells⟩ := Token.located_of_scan h _ hprint
    exact ⟨hprint, rest, hrest, hspells .print rfl⟩
  · obtain ⟨c, rest, hrest⟩ := Token.inside_of_scan h
    rw [execute_of_scan_error h]
    exact ⟨rfl, Text.lt_of_standsAt hrest⟩

/-- A text with a character of two bytes in it that prints a line and then faults, and that
character alone, which has no tokens. -/
theorem execute_positions_multibyte :
    let ts : List Token := [⟨.sign .openBrace, 0⟩, ⟨.keyword .print, 5⟩, ⟨.keyword .true, 11⟩,
      ⟨.sign .semicolon, 15⟩, ⟨.name "y", 17⟩, ⟨.sign .closeBrace, 18⟩, ⟨.finish, 18⟩]
    let source := "# é\nprint true; y"
    let e := execute source 5
    e.positions = [17, 17, 5] ∧ Token.scan source = .ok ts ∧
      (∀ o ∈ e.positions, o ≤ source.utf8ByteSize ∧ String.Pos.Raw.IsValid source ⟨o⟩ ∧
        Text.byteLength (Text.splitAtByte o source.toList).1 = o) ∧
      ((∀ o ∈ e.positions, ∃ t ∈ ts, t.offset = o) ∧
        ∀ l ∈ e.output, ⟨.keyword .print, l.offset⟩ ∈ ts ∧
          ∃ rest, StandsAt source.toList l.offset rest ∧ Spells rest .print) ∧
      Token.scan "é" = .error ⟨.strayCharacter 'é', 0⟩ ∧
      (execute "é" 5).fault = some (.lex ⟨.strayCharacter 'é', 0⟩) ∧ 0 < "é".utf8ByteSize := by
  intro ts source e
  have hscan : Token.scan "# é\nprint true; y" = .ok ts := by cbv
  have hstray : Token.scan "é" = .error ⟨.strayCharacter 'é', 0⟩ := by cbv
  obtain ⟨hreal, htokens, -⟩ := execute_positions source 5
  exact ⟨by decide +kernel, hscan, hreal, htokens ts hscan, hstray,
    (execute_positions "é" 5).2.2 _ hstray⟩

end ScopeScript
