import Mathlib
import ScopeScript.Diagnostic
import ScopeScript.Text.Lines
import ScopeScript.Proofs.Token.Position

/-!
# Places in a text

A place in a text is a cut in two: what stands before it and what stands after it. Cutting at a
byte offset cuts at the largest character boundary that is not past it (`isGreatest_splitAtByte`).
A place lies in one of the pieces that the newlines leave of the text: the piece is the last line
of what stands before it with the first line of what stands after it, and as many pieces are ahead
of it as newlines (`splitOn_append`). The lines of a text are these pieces, but for a last one that
is empty (`length_lines`).
-/

namespace ScopeScript.Text

variable {cs before after rest : List Char} {n : Nat}

theorem length_le_byteLength (cs : List Char) : cs.length ≤ byteLength cs := by
  induction cs with
  | nil => exact Nat.le_refl _
  | cons c cs ih =>
    have hpos := c.utf8Size_pos
    rw [byteLength_cons, List.length_cons]
    omega

/-- A prefix of the text that is short enough is not longer than the part that is cut off. -/
theorem byteLength_le_splitAtByte (h : byteLength before ≤ n) :
    byteLength before ≤ byteLength (splitAtByte n (before ++ rest)).1 := by
  induction before generalizing n with
  | nil => exact Nat.zero_le _
  | cons c before ih =>
    rw [byteLength_cons] at h
    have htail := ih (n := n - c.utf8Size) (by omega)
    rw [List.cons_append, splitAtByte, if_pos (by omega)]
    simp only [byteLength_cons]
    omega

/-- A text is cut at the largest character boundary that is at most the offset. -/
theorem isGreatest_splitAtByte (source : String) (n : Nat) :
    IsGreatest {b | b ≤ min n source.utf8ByteSize ∧ String.Pos.Raw.IsValid source ⟨b⟩}
      (byteLength (splitAtByte n source.toList).1) := by
  have hcut := splitAtByte_append n source.toList
  have hstands : StandsAt source.toList (byteLength (splitAtByte n source.toList).1)
      (splitAtByte n source.toList).2 := ⟨_, hcut.symm, rfl⟩
  have hvalid := isValid_of_standsAt hstands
  refine ⟨⟨?_, hvalid⟩, fun b hb => ?_⟩
  · exact Nat.le_min.2 ⟨byteLength_splitAtByte_le n _, hvalid.le_rawEndPos⟩
  · obtain ⟨hle, hb⟩ := hb
    obtain ⟨s, t, rfl, hs⟩ := String.Pos.Raw.isValid_iff_exists_append.1 hb
    have hb : b = byteLength s.toList := by
      rw [byteLength_toList]
      exact congrArg String.Pos.Raw.byteIdx hs
    rw [hb, String.toList_append]
    exact byteLength_le_splitAtByte (by omega)

/-- A text is cut exactly at a character boundary. -/
theorem byteLength_splitAtByte_of_isValid {source : String}
    (h : String.Pos.Raw.IsValid source ⟨n⟩) :
    byteLength (splitAtByte n source.toList).1 = n := by
  refine Nat.le_antisymm (byteLength_splitAtByte_le n _) ?_
  exact (isGreatest_splitAtByte source n).2 ⟨Nat.le_min.2 ⟨Nat.le_refl n, h.le_rawEndPos⟩, h⟩

/-! ## Pieces -/

theorem lastLine_of_not_mem (h : '\n' ∉ cs) : lastLine cs = cs := by
  have hall : cs.reverse.takeWhile (· != '\n') = cs.reverse := by
    refine List.takeWhile_eq_self_iff.2 fun c hc => ?_
    rw [bne_iff_ne]
    rintro rfl
    exact h (List.mem_reverse.1 hc)
  rw [lastLine, hall, List.reverse_reverse]

theorem dropEndWhile_append_lastLine (cs : List Char) :
    dropEndWhile (· != '\n') cs ++ lastLine cs = cs := by
  rw [dropEndWhile, lastLine, ← List.reverse_append, List.takeWhile_append_dropWhile,
    List.reverse_reverse]

theorem newline_notMem_lastLine (cs : List Char) : '\n' ∉ lastLine cs := by
  intro hmem
  have hne := List.mem_takeWhile_imp (List.mem_reverse.1 hmem)
  exact bne_iff_ne.1 hne rfl

/-- No newline stands between the start of a line and a place in it. -/
theorem lineNumber_splitAtByte_lineStart (before after : List Char) :
    lineNumber (splitAtByte (lineStart before) (before ++ after)).1 = lineNumber before := by
  have hlast := List.count_eq_zero.2 (newline_notMem_lastLine before)
  have hbefore := dropEndWhile_append_lastLine before
  generalize hstart : dropEndWhile (· != '\n') before = start at hbefore
  rw [lineStart, hstart, ← hbefore, List.append_assoc, splitAtByte_byteLength, lineNumber,
    lineNumber, List.count_append, hlast, Nat.add_zero]

/-- Only what stands behind a newline counts for the last line. -/
theorem lastLine_append_newline (ds cs : List Char) :
    lastLine (ds ++ '\n' :: cs) = lastLine cs := by
  have hcut : (cs.reverse ++ '\n' :: ds.reverse).takeWhile (· != '\n') =
      cs.reverse.takeWhile (· != '\n') := by
    rw [List.takeWhile_append]
    split
    · next hall =>
      rw [(List.takeWhile_prefix _).eq_of_length hall]
      exact List.append_nil _
    · rfl
  rw [lastLine, List.reverse_append, List.reverse_cons, List.append_assoc, List.singleton_append,
    hcut, lastLine]

theorem lastLine_cons (c : Char) (cs : List Char) :
    lastLine (c :: cs) = if '\n' ∈ c :: cs then lastLine cs else c :: cs := by
  split
  · next hmem =>
    rcases List.mem_cons.1 hmem with rfl | hmem
    · exact lastLine_append_newline [] cs
    · obtain ⟨ds, es, rfl⟩ := List.append_of_mem hmem
      rw [lastLine_append_newline ds es, ← List.cons_append, lastLine_append_newline]
  · next hmem => exact lastLine_of_not_mem hmem

theorem splitOn_cons (c : Char) (cs : List Char) :
    (c :: cs).splitOn '\n' =
      if c = '\n' then [] :: cs.splitOn '\n' else (cs.splitOn '\n').modifyHead (c :: ·) := by
  rw [List.splitOn, List.splitOnP_cons_eq_if_modifyHead]
  simp only [beq_iff_eq]
  rfl

/-- The first piece goes up to the first newline. -/
theorem exists_splitOn (cs : List Char) :
    ∃ qs, cs.splitOn '\n' = cs.takeWhile (· != '\n') :: qs := by
  induction cs with
  | nil => exact ⟨[], rfl⟩
  | cons c cs ih =>
    obtain ⟨qs, hqs⟩ := ih
    rw [splitOn_cons]
    by_cases hc : c = '\n'
    · exact ⟨cs.splitOn '\n', by simp [hc]⟩
    · exact ⟨qs, by simp [hc, hqs]⟩

/-- The pieces of a text at a place: those ahead of it, each with the newline that ends it, are what
stands before the line of the place. -/
theorem splitOn_append (before after : List Char) :
    ∃ ps qs, (before ++ after).splitOn '\n' =
        ps ++ (lastLine before ++ after.takeWhile (· != '\n')) :: qs ∧
      ps.length = before.count '\n' ∧ before = ps.flatMap (· ++ ['\n']) ++ lastLine before := by
  induction before with
  | nil =>
    obtain ⟨qs, hqs⟩ := exists_splitOn after
    exact ⟨[], qs, hqs, rfl, rfl⟩
  | cons c before ih =>
    obtain ⟨ps, qs, hsplit, hlen, hbefore⟩ := ih
    rw [List.cons_append, splitOn_cons, hsplit]
    by_cases hc : c = '\n'
    · subst hc
      have hlast : lastLine ('\n' :: before) = lastLine before := lastLine_append_newline [] before
      refine ⟨[] :: ps, qs, by rw [if_pos rfl, hlast]; rfl, by simp [hlen], ?_⟩
      rw [hlast, List.flatMap_cons, List.nil_append, List.append_assoc, ← hbefore]
      rfl
    · rw [if_neg hc]
      cases ps with
      | nil =>
        -- the line of the place is the first one, and grows
        have hnone : '\n' ∉ c :: before := by
          rw [List.length_nil, eq_comm, List.count_eq_zero] at hlen
          simp [Ne.symm hc, hlen]
        have hlast := lastLine_of_not_mem hnone
        have hlast' := lastLine_of_not_mem (List.not_mem_of_not_mem_cons hnone)
        refine ⟨[], qs, ?_, ?_, hlast.symm⟩
        · rw [hlast, hlast']
          rfl
        · rw [List.length_nil, eq_comm]
          exact List.count_eq_zero.2 hnone
      | cons p ps =>
        have hmem : '\n' ∈ before := by
          rw [← List.count_pos_iff, ← hlen]
          exact Nat.succ_pos _
        have hlast : lastLine (c :: before) = lastLine before := by
          rw [lastLine_cons, if_pos (List.mem_cons_of_mem c hmem)]
        refine ⟨(c :: p) :: ps, qs, ?_, ?_, ?_⟩
        · rw [hlast]
          rfl
        · rw [List.count_cons_of_ne hc, ← hlen]
          rfl
        · rw [hlast]
          exact congrArg (c :: ·) hbefore

/-! ## Lines -/

/-- The text is empty or ends with a newline: no line is begun at its end. -/
def EndsLine (cs : List Char) : Prop := ∀ c ∈ cs.getLast?, c = '\n'

instance (cs : List Char) : Decidable (EndsLine cs) :=
  inferInstanceAs (Decidable (∀ c ∈ cs.getLast?, c = '\n'))

theorem endsLine_nil : EndsLine [] := by simp [EndsLine]

theorem endsLine_append_newline (ds cs : List Char) :
    EndsLine (ds ++ '\n' :: cs) ↔ EndsLine cs := by
  cases hlast : cs.getLast? with
  | none => simp [EndsLine, List.getLast?_cons, hlast]
  | some c => simp [EndsLine, List.getLast?_cons, hlast]

theorem length_linesFrom (cs : List Char) {line : List Char} (h : '\n' ∉ line) :
    (linesFrom line cs).length =
      cs.count '\n' + if EndsLine (line.reverse ++ cs) then 0 else 1 := by
  induction cs generalizing line with
  | nil =>
    cases line with
    | nil => rw [List.reverse_nil, List.nil_append, if_pos endsLine_nil]; rfl
    | cons d line =>
      have hends : ¬ EndsLine ((d :: line).reverse ++ []) := by
        intro hends
        obtain rfl : d = '\n' := hends d (by rw [List.append_nil, List.getLast?_reverse]; rfl)
        exact h List.mem_cons_self
      rw [if_neg hends]
      rfl
  | cons c cs ih =>
    by_cases hc : c = '\n'
    · subst hc
      rw [linesFrom, List.length_cons, ih List.not_mem_nil, List.count_cons_self,
        List.reverse_nil, List.nil_append, Nat.add_right_comm]
      simp only [endsLine_append_newline]
    · rw [linesFrom.eq_3 _ _ _ hc, ih (List.not_mem_cons_of_ne_of_not_mem (Ne.symm hc) h),
        List.count_cons_of_ne hc, List.reverse_cons, List.append_assoc, List.singleton_append]

/-- A text has as many lines as newlines, and one more if it does not end with one. -/
theorem length_lines (cs : List Char) :
    (lines cs).length = cs.count '\n' + if EndsLine cs then 0 else 1 :=
  length_linesFrom cs List.not_mem_nil

/-- The line of a place is one of the lines, but behind a newline at the very end. -/
theorem lt_length_lines_iff (before after : List Char) :
    before.count '\n' < (lines (before ++ after)).length ↔ ¬ (after = [] ∧ EndsLine before) := by
  rw [length_lines]
  cases after with
  | nil =>
    rw [List.append_nil]
    split
    · next hends => simp [hends]
    · next hends => simp [hends]
  | cons c after =>
    simp only [reduceCtorEq, false_and, not_false_eq_true, iff_true]
    rw [List.count_append]
    split
    · next hends =>
      -- the newline at the end is behind the place
      have hpos : 0 < (c :: after).count '\n' := by
        have hlast : (c :: after).getLast (List.cons_ne_nil c after) = '\n' := by
          refine hends _ ?_
          rw [List.getLast?_append_cons, List.getLast?_eq_some_getLast]
          rfl
        rw [List.count_pos_iff, ← hlast]
        exact List.getLast_mem _
      omega
    · omega

end ScopeScript.Text
