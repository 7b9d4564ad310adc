import Mathlib
import ScopeScript.Proofs.Text.Place

/-!
# What a report points at

`d.Marks source before lead piece`: the report `d` is about the place of the source text behind
`before`. The text is cut at its newlines; the place is in `piece`, behind the part `lead` of it.
Every report marks the largest character boundary that is not past its offset (`marks_locate`), and
its line and column say which boundary that is (`Marks.before_unique`).
-/

namespace ScopeScript.Diagnostic

open Text (byteLength splitAtByte)

/-- The report is about the place behind `before`, which is behind `lead` in the piece of its
line. -/
structure Marks (d : Diagnostic) (source : String) (before lead piece : List Char) : Prop where
  line_eq : d.line = before.count '\n' + 1
  piece_eq : (source.toList.splitOn '\n')[d.line - 1]? = some piece
  /-- Before the place stand the pieces ahead of its line, each with its newline, and `lead`. -/
  before_eq : before =
    ((source.toList.splitOn '\n').take (d.line - 1)).flatMap (· ++ ['\n']) ++ lead
  lead_prefix : lead <+: piece
  column_eq : d.column = lead.length + 1
  lineText_eq : d.lineText.toList = piece.rdropWhile (· == '\r')
  caret_eq : d.caret.toList = lead.map (fun c => if c = '\t' then '\t' else ' ') ++ ['^']
  length_caret : d.caret.length = d.column

variable {d d' : Diagnostic} {source : String} {before before' lead lead' piece piece' : List Char}

/-- The line and the column say what stands before the place. -/
theorem Marks.before_unique (h : d.Marks source before lead piece)
    (h' : d'.Marks source before' lead' piece') (hline : d.line = d'.line)
    (hcolumn : d.column = d'.column) : before = before' := by
  have hpiece : piece = piece' := by
    have hsome := h.piece_eq
    rw [hline, h'.piece_eq] at hsome
    exact (Option.some.inj hsome).symm
  have hlen : lead.length = lead'.length := by
    have hc := h.column_eq
    have hc' := h'.column_eq
    omega
  have hlead : lead = lead' := by
    rw [List.prefix_iff_eq_take.1 h.lead_prefix, List.prefix_iff_eq_take.1 h'.lead_prefix, hlen,
      hpiece]
  rw [h.before_eq, h'.before_eq, hline, hlead]

theorem lineNumber_le (source : String) (n : Nat) :
    lineNumber source n ≤ source.utf8ByteSize + 1 := by
  have hcount : (splitAtByte n source.toList).1.count '\n' ≤
      (splitAtByte n source.toList).1.length := List.count_le_length
  have hlen := Text.length_le_byteLength (splitAtByte n source.toList).1
  have hcut := (Text.isGreatest_splitAtByte source n).1.1
  show (splitAtByte n source.toList).1.count '\n' + 1 ≤ _
  omega

/-- A report counts the newlines before the start of the line, which are those before the place. -/
theorem line_locate (stage : Stage) (n : Nat) (message source label : String) :
    (locate stage n message source label).line = lineNumber source n := by
  have hnumber := Text.lineNumber_splitAtByte_lineStart (splitAtByte n source.toList).1
    (splitAtByte n source.toList).2
  rw [Text.splitAtByte_append] at hnumber
  exact hnumber

/-- A report marks the place where its offset cuts the text. -/
theorem marks_locate (stage : Stage) (n : Nat) (message source label : String) :
    ∃ lead piece, (locate stage n message source label).Marks source
      (splitAtByte n source.toList).1 lead piece := by
  obtain ⟨ps, qs, hsplit, hlen, hbefore⟩ :=
    Text.splitOn_append (splitAtByte n source.toList).1 (splitAtByte n source.toList).2
  rw [Text.splitAtByte_append] at hsplit
  have hline : (locate stage n message source label).line - 1 = ps.length := by
    rw [line_locate, hlen]
    rfl
  refine ⟨_, _, line_locate stage n message source label, ?_, ?_, List.prefix_append _ _, rfl,
    String.toList_ofList, String.toList_ofList, ?_⟩
  · rw [hline, hsplit, List.getElem?_append_right (Nat.le_refl _), Nat.sub_self]
    rfl
  · rw [hline, hsplit, List.take_left]
    exact hbefore
  · show (String.ofList _).length = _
    rw [String.length_ofList, List.length_append, List.length_map]
    rfl

/-- A report locates exactly. It marks the largest character boundary that is not past its offset:
its line is the number of newlines before that place and one, its text is the piece of the source
text with that number without the carriage returns at its end, its column is one more than the
characters of the piece that are before the place, and its caret line has as many characters as the
column says, a tab for each tab, a blank for every other character, and the caret at the end. No
two character boundaries have the same line and column. -/
theorem locate_exact (stage : Stage) (message source label : String) :
    let report (n : Nat) := locate stage n message source label
    (∀ n, ∃ before after lead piece, source.toList = before ++ after ∧
      IsGreatest {b | b ≤ min n source.utf8ByteSize ∧ String.Pos.Raw.IsValid source ⟨b⟩}
        (byteLength before) ∧
      (report n).Marks source before lead piece ∧ lineNumber source n = (report n).line) ∧
    Set.InjOn (fun b => ((report b).line, (report b).column))
      {b | String.Pos.Raw.IsValid source ⟨b⟩} := by
  intro report
  refine ⟨fun n => ?_, fun b hb b' hb' hsame => ?_⟩
  · obtain ⟨lead, piece, hmarks⟩ := marks_locate stage n message source label
    exact ⟨_, _, lead, piece, (Text.splitAtByte_append n _).symm,
      Text.isGreatest_splitAtByte source n, hmarks, (line_locate stage n message source label).symm⟩
  · obtain ⟨hline, hcolumn⟩ := Prod.mk.inj hsame
    obtain ⟨lead, piece, h⟩ := marks_locate stage b message source label
    obtain ⟨lead', piece', h'⟩ := marks_locate stage b' message source label
    rw [← Text.byteLength_splitAtByte_of_isValid hb, ← Text.byteLength_splitAtByte_of_isValid hb',
      h.before_unique h' hline hcolumn]

/-- An offset inside a character, behind a tab, in a line that ends with two carriage returns. -/
example :
    let d := locate .running 6 "" "é\r\n\tπx\r\r\nz" "f"
    (d.line, d.column, d.lineText, d.caret) = (2, 2, "\tπx", "\t^") := by
  decide +kernel

end ScopeScript.Diagnostic
