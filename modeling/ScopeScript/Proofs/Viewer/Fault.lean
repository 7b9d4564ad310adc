import Mathlib
import ScopeScript.Proofs.Offset.Position
import ScopeScript.Proofs.Viewer.Scroll

/-!
# The line of a fault on the screen

A row of the source pane is drawn in the colours of a fault just if it is the marked line of a run
with a fault (`drawnAsFault_iff`). The pane starts a few lines above the marked line, so after the
first draw it shows that line if it numbers it at all (`fault_shown`). The one place whose line is
not numbered is the end of a text that ends with a newline: a report counts a line there, the pane
does not (`fault_unnumbered`).
-/

namespace ScopeScript.Viewer

/-- The colours of the number of a faulty line. -/
def faultNumber : Style := { fg := some Palette.fault, bold := true }

/-- The colours of the text of a faulty line. -/
def faultText : Style := { fg := some .white, bg := some Palette.fault, bold := true }

/-- The row is drawn as the line of a fault. -/
def DrawnAsFault : List Span → Prop
  | [] => False
  | number :: text => number.style = faultNumber ∧ ∀ span ∈ text, span.style = faultText

theorem drawnAsFault_sourceLine (marked faulty : Bool) (number : Nat) (line : List Char) :
    DrawnAsFault (sourceLine marked faulty number line) ↔ marked = true ∧ faulty = true := by
  cases marked with
  | false => simp [sourceLine, DrawnAsFault, faultNumber, Style.ofFg]
  | true =>
    cases faulty with
    | false => simp [sourceLine, DrawnAsFault, faultNumber, Palette.ok, Palette.fault]
    | true =>
      refine iff_of_true ⟨rfl, fun span hspan => ?_⟩ ⟨rfl, rfl⟩
      obtain ⟨span, -, rfl⟩ := List.mem_map.1 hspan
      rfl

variable {s : Subject} {h : Heights} {st : State}

/-- A row is drawn as the line of the fault just if its number is that of the marked line. -/
theorem drawnAsFault_iff (hf : s.execution.fault.isSome = true) (h : Heights) (st : State)
    (i : Nat) :
    (∃ row, (visibleSource h.source s st)[i]? = some row ∧ DrawnAsFault row) ↔
      i < (s.shown h st .source).length ∧ st.offset .source + 1 + i = s.markedLine := by
  rw [visibleSource_eq, List.getElem?_map, List.getElem?_zipIdx, Option.map_map]
  constructor
  · rintro ⟨row, hrow, hfault⟩
    obtain ⟨line, hline, rfl⟩ := Option.map_eq_some_iff.1 hrow
    obtain ⟨hmarked, -⟩ := (drawnAsFault_sourceLine ..).1 hfault
    exact ⟨(List.getElem?_eq_some_iff.1 hline).1, beq_iff_eq.1 hmarked⟩
  · rintro ⟨hi, hn⟩
    refine ⟨_, by rw [List.getElem?_eq_getElem hi]; rfl, ?_⟩
    exact (drawnAsFault_sourceLine ..).2 ⟨beq_iff_eq.2 hn, hf⟩

/-- The end of a text that is empty or ends with a newline: the pane has no line there. -/
def Unnumbered (source : String) (o : Nat) : Prop :=
  o = source.utf8ByteSize ∧ Text.EndsLine source.toList

instance (source : String) (o : Nat) : Decidable (Unnumbered source o) :=
  inferInstanceAs (Decidable (_ ∧ _))

theorem lineNumber_of_unnumbered {source : String} {o : Nat} (hu : Unnumbered source o) :
    Diagnostic.lineNumber source o = (Text.lines source.toList).length + 1 := by
  obtain ⟨rfl, hends⟩ := hu
  have hall : Text.splitAtByte source.utf8ByteSize source.toList = (source.toList, []) := by
    have hcut := Text.splitAtByte_byteLength source.toList []
    rwa [List.append_nil, Text.byteLength_toList] at hcut
  rw [Text.length_lines, if_pos hends, Diagnostic.lineNumber, hall]
  rfl

/-- The line of every other place is numbered. -/
theorem lineNumber_le_length_lines {source : String} {o : Nat}
    (ho : String.Pos.Raw.IsValid source ⟨o⟩) (hu : ¬ Unnumbered source o) :
    Diagnostic.lineNumber source o ≤ (Text.lines source.toList).length := by
  have hcut := Text.splitAtByte_append o source.toList
  have hlen := Text.byteLength_splitAtByte_of_isValid ho
  have hplace : ¬ ((Text.splitAtByte o source.toList).2 = [] ∧
      Text.EndsLine (Text.splitAtByte o source.toList).1) := by
    rintro ⟨hnil, hends⟩
    rw [hnil, List.append_nil] at hcut
    rw [hcut] at hlen hends
    exact hu ⟨by rw [← hlen, Text.byteLength_toList], hends⟩
  have hlt := (Text.lt_length_lines_iff ..).2 hplace
  rwa [hcut] at hlt

/-- The fault of an execution is at a character boundary of its source text. -/
theorem isValid_of_fault {source : String} {limit : Nat} {f : Fault}
    (hf : (execute source limit).fault = some f) : String.Pos.Raw.IsValid source ⟨f.offset⟩ := by
  have hmem : f.offset ∈ (execute source limit).positions := by
    simp [Execution.positions, hf]
  obtain ⟨rest, hrest⟩ := exists_standsAt source limit f.offset hmem
  exact Text.isValid_of_standsAt hrest

/-- An offset a few lines above the marked one keeps it in sight when it is settled. -/
theorem le_clamp_add {marked total visible : Nat} (htotal : marked ≤ total)
    (hvisible : 4 ≤ visible) : marked ≤ clamp (marked - 4) total visible + visible := by
  unfold clamp
  split <;> omega

/-- Where the marked line is in sight, just its row is drawn as the line of the fault. -/
theorem existsUnique_drawnAsFault (hf : s.execution.fault.isSome = true)
    (hlt : st.offset .source < s.markedLine)
    (hle : s.markedLine ≤ st.offset .source + (s.shown h st .source).length) :
    ∃! i : Nat, ∃ row, (visibleSource h.source s st)[i]? = some row ∧ DrawnAsFault row := by
  refine ⟨s.markedLine - st.offset .source - 1, ?_, fun i hi => ?_⟩
  · exact (drawnAsFault_iff hf h st _).2 ⟨by omega, by omega⟩
  · obtain ⟨-, hn⟩ := (drawnAsFault_iff hf h st i).1 hi
    omega

/-- The viewer shows the line of a fault, if the fault is not at the end of a text that ends with a
newline: after the first draw with room for four lines, the marked line is one of the numbered lines
in sight, and just one row is drawn as the line of a fault. At such an end the marked line is the
one after the last numbered line, and no row is drawn so. -/
theorem fault_shown (source label : String) (limit : Nat) {f : Fault}
    (hf : (execute source limit).fault = some f) (h : Heights) (hrows : 4 ≤ h.source - 2) :
    let s : Subject := ⟨execute source limit, source, label⟩
    let st := s.session [.draw h]
    st.sourceScroll < s.markedLine ∧
    (¬ Unnumbered source f.offset →
      s.markedLine ≤ st.sourceScroll + (h.source - 2) ∧ s.markedLine ≤ s.sourceLines.length ∧
      ∃! i : Nat, ∃ row, (visibleSource h.source s st)[i]? = some row ∧ DrawnAsFault row) ∧
    (Unnumbered source f.offset →
      s.markedLine = s.sourceLines.length + 1 ∧
      ∀ row ∈ visibleSource h.source s st, ¬ DrawnAsFault row) := by
  intro s st
  have hsome : s.execution.fault.isSome = true := Option.isSome_of_eq_some hf
  have hmarked : s.markedLine = Diagnostic.lineNumber source f.offset := markedLine_of_fault hf
  have hvisible : visibleRows h.source = h.source - 2 := by
    unfold visibleRows
    omega
  have hoffset : st.offset .source =
      clamp (s.markedLine - 4) s.sourceLines.length (h.source - 2) := by
    rw [← hvisible]
    rfl
  have hshown : (s.shown h st .source).length = min s.sourceLines.length (h.source - 2) := by
    rw [← hvisible]
    exact length_shown (.inl rfl) h _
  have hlt : st.offset .source < s.markedLine := by
    have hle := clamp_le_offset (s.markedLine - 4) s.sourceLines.length (h.source - 2)
    have hpos : 0 < s.markedLine := by
      rw [hmarked]
      exact Nat.succ_pos _
    omega
  refine ⟨hlt, fun hu => ?_, fun hu => ?_⟩
  · have htotal : s.markedLine ≤ s.sourceLines.length := by
      rw [hmarked]
      exact lineNumber_le_length_lines (isValid_of_fault hf) hu
    have hin : s.markedLine ≤ st.offset .source + (h.source - 2) := by
      rw [hoffset]
      exact le_clamp_add htotal hrows
    refine ⟨hin, htotal, existsUnique_drawnAsFault hsome hlt ?_⟩
    omega
  · have hafter : s.markedLine = s.sourceLines.length + 1 := by
      rw [hmarked]
      exact lineNumber_of_unnumbered hu
    refine ⟨hafter, fun row hrow hfault => ?_⟩
    obtain ⟨i, hi⟩ := List.mem_iff_getElem?.1 hrow
    obtain ⟨hi, hn⟩ := (drawnAsFault_iff hsome h st i).1 ⟨row, hi, hfault⟩
    have hfull := clamp_le (s.markedLine - 4) s.sourceLines.length (h.source - 2)
    omega

/-- A name without a value on the ninth line, and a pane with room for four lines. -/
theorem fault_shown_scrolled :
    let source := "\n\n\n\n\n\n\n\nx"
    let f : Fault := .run (.fault (.undefined "x") 8)
    let h : Heights := ⟨6, 3, 3⟩
    let s : Subject := ⟨execute source 5, source, "f"⟩
    let st := s.session [.draw h]
    (execute source 5).fault = some f ∧ 4 ≤ h.source - 2 ∧ ¬ Unnumbered source f.offset ∧
      s.markedLine = 9 ∧ st.sourceScroll < 9 ∧ 9 ≤ st.sourceScroll + 4 ∧
      9 ≤ s.sourceLines.length ∧
      ∃! i : Nat, ∃ row, (visibleSource h.source s st)[i]? = some row ∧ DrawnAsFault row := by
  intro source f h s st
  have hf : (execute source 5).fault = some f := by decide +kernel
  have hnumbered : ¬ Unnumbered source f.offset := by decide +kernel
  have hmarked : s.markedLine = 9 := by decide +kernel
  obtain ⟨hlt, hshown, -⟩ := fault_shown source "f" 5 hf h (by decide)
  obtain ⟨hin, htotal, hrow⟩ := hshown hnumbered
  rw [hmarked] at hlt hin htotal
  exact ⟨hf, by decide, hnumbered, hmarked, hlt, hin, htotal, hrow⟩

/-- An operand is missing at the end of a text that ends with a newline: the fault is on the second
line, the pane has one. -/
theorem fault_hidden :
    let s : Subject := ⟨execute "print\n" 2000, "print\n", "f"⟩
    let h : Heights := ⟨6, 3, 3⟩
    s.execution.fault = some (.parse ⟨.expression, ⟨.sign .closeBrace, 6⟩⟩) ∧ 4 ≤ h.source - 2 ∧
      s.sourceLines.length < s.markedLine ∧
      ∀ row ∈ visibleSource h.source s (s.session [.draw h]), ¬ DrawnAsFault row := by
  intro s h
  have hf : s.execution.fault = some (.parse ⟨.expression, ⟨.sign .closeBrace, 6⟩⟩) := by
    decide +kernel
  have hmarked : s.markedLine = 2 := by decide +kernel
  have hlines : s.sourceLines.length = 1 := by decide +kernel
  have hoffset : (s.session [.draw h]).offset .source = 0 := by decide +kernel
  refine ⟨hf, by decide, by rw [hmarked, hlines]; decide, fun row hrow hfault => ?_⟩
  obtain ⟨i, hi⟩ := List.mem_iff_getElem?.1 hrow
  obtain ⟨hlt, hn⟩ := (drawnAsFault_iff (Option.isSome_of_eq_some hf) h _ i).1 ⟨row, hi, hfault⟩
  have hshown : (s.shown h (s.session [.draw h]) .source).length ≤ s.sourceLines.length :=
    ((List.take_sublist _ _).trans (List.drop_sublist _ _)).length_le
  omega

end ScopeScript.Viewer
