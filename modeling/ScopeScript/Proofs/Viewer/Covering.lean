import ScopeScript.Viewer.Highlight

/-!
# Highlighting keeps the text

`Covers cs spans`: none of the spans is empty, and their texts, one after the other, are `cs`. The
spans made so far cover what the highlighter has gone through, up to the word or the text that is
still open (`Highlight.State.pending`). Each character goes to what is open or is made a span of its
own, so in the end the spans cover the line, closed or not (`covers_spansFrom`).
-/

namespace ScopeScript.Viewer

open Highlight

/-- The texts of the spans, none of which is empty, are together `cs`. -/
structure Covers (cs : List Char) (spans : List Span) : Prop where
  flatMap_text : spans.flatMap (·.text) = cs
  text_ne_nil : ∀ s ∈ spans, s.text ≠ []

namespace Covers

variable {cs : List Char} {spans : List Span}

theorem nil : Covers [] ([] : List Span).reverse := ⟨rfl, by simp⟩

/-- Spans are made in reverse, so the next one goes to the front. -/
theorem push (h : Covers cs spans.reverse) (s : Span) (hs : s.text ≠ []) :
    Covers (cs ++ s.text) (s :: spans).reverse := by
  rw [List.reverse_cons]
  refine ⟨?_, ?_⟩
  · rw [List.flatMap_append, h.flatMap_text, List.flatMap_singleton]
  · rw [List.forall_mem_append, List.forall_mem_singleton]
    exact ⟨h.text_ne_nil, hs⟩

/-- The word that ends here is covered too; without one, nothing is made. -/
theorem flush (h : Covers cs spans.reverse) (read : List Char) (called : Bool) :
    Covers (cs ++ read.reverse) (Highlight.flush read called spans).reverse := by
  unfold Highlight.flush
  split
  · next hempty =>
    rw [List.isEmpty_iff.1 hempty, List.reverse_nil, List.append_nil]
    exact h
  · next hempty =>
    have hread : read.reverse ≠ [] := by simpa using hempty
    exact h.push ⟨read.reverse, _⟩ hread

/-- The text that ends here is covered too. -/
theorem flushText (h : Covers cs spans.reverse) {read : List Char} (hread : read ≠ []) :
    Covers (cs ++ read.reverse) (Highlight.flushText read spans).reverse :=
  h.push ⟨read.reverse, _⟩ (by simpa using hread)

end Covers

namespace Highlight.State

/-- The characters that belong to no span yet. -/
@[simp] def pending : State → List Char
  | .word read | .text _ _ read => read.reverse

/-- A text has its opening quote. -/
def Opened : State → Prop
  | .word _ => True
  | .text _ _ read => read ≠ []

end Highlight.State

/-- The rest of a line is covered from any state. The induction is on the characters; `done` is what
the spans made so far cover. -/
theorem covers_spansFrom (state : Highlight.State) (cs : List Char) {done : List Char}
    {spans : List Span} (h : Covers done spans.reverse) (hopen : state.Opened) :
    Covers (done ++ state.pending ++ cs) (spansFrom state cs spans) := by
  induction cs generalizing state done spans with
  | nil =>
    rw [List.append_nil]
    cases state with
    | word read => exact h.flush read false
    | text quote escaped read => exact h.flushText hopen
  | cons c cs ih =>
    cases state with
    | word read =>
      have hword (called : Bool) :
          Covers (done ++ read.reverse) (flush read called spans).reverse :=
        h.flush read called
      rw [spansFrom]
      split
      · -- a comment is the rest of the line
        exact (hword false).push ⟨c :: cs, _⟩ (List.cons_ne_nil c cs)
      split
      · simpa using ih (.text c false [c]) (hword false) (List.cons_ne_nil c [])
      split
      · simpa using ih (.word (c :: read)) h trivial
      · have hsign := (hword (c == '(')).push ⟨[c], signStyle c⟩ (List.cons_ne_nil c [])
        simpa using ih (.word []) hsign trivial
    | text quote escaped read =>
      have hmore (e : Bool) : Covers (done ++ read.reverse ++ c :: cs)
          (spansFrom (.text quote e (c :: read)) cs spans) := by
        simpa using ih (.text quote e (c :: read)) h (List.cons_ne_nil c read)
      cases escaped with
      | true => exact hmore false
      | false =>
        rw [spansFrom]
        split
        · have htext := h.flushText (List.cons_ne_nil c read)
          simpa using ih (.word []) htext trivial
        · exact hmore (c == '\\')

/-- Highlighting keeps the text of every line, whether or not it lexes: the spans put together are
the line, and none of them is empty. -/
theorem flatMap_text_highlight (line : List Char) :
    (highlight line).flatMap (·.text) = line ∧ ∀ s ∈ highlight line, s.text ≠ [] := by
  have h : Covers line (highlight line) := covers_spansFrom (.word []) line .nil trivial
  exact ⟨h.flatMap_text, h.text_ne_nil⟩

/-- A backslash at the end of a text that is not closed. -/
example : (highlight "f('é\\".toList).map (·.text) =
    ["f".toList, "(".toList, "'é\\".toList] := by decide +kernel

end ScopeScript.Viewer
