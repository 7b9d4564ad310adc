import Mathlib
import ScopeScript.Proofs.Token.Stretch
import ScopeScript.Viewer.Highlight

/-!
# Highlighting and the lexer

`extents style o spans`: where the spans of a style stand, and their texts. The highlighter reads a
line without the lexer, with rules of its own for the end of a text; on a line that the lexer
accepts both find the same text literals and the same comment (`extents_highlight`). The induction
is on the steps of the lexer: what is neither a text nor a comment leaves the highlighter between
texts (`Reached.plain`), a text literal takes it from its opening quote to its closing one
(`spansFrom_text`), and a comment is the rest of the line.
-/

namespace ScopeScript.Viewer

open Text (byteLength)
open Token (Stretch Steps Unescapes)
open Highlight

/-- The bytes of these spans. -/
def width (spans : List Span) : Nat := byteLength (spans.flatMap (·.text))

/-- The spans of a style, each as the byte offset where it starts and its text; the first span of
all stands at `o`. -/
def extents (style : Style) : Nat → List Span → List (Nat × List Char)
  | _, [] => []
  | o, s :: ss =>
    if s.style = style then (o, s.text) :: extents style (o + byteLength s.text) ss
    else extents style (o + byteLength s.text) ss

theorem width_append (ss ss' : List Span) : width (ss ++ ss') = width ss + width ss' := by
  rw [width, List.flatMap_append, Text.byteLength_append]
  rfl

theorem width_singleton (s : Span) : width [s] = byteLength s.text := by
  rw [width, List.flatMap_cons, List.flatMap_nil, List.append_nil]

theorem extents_append (style : Style) (o : Nat) (ss ss' : List Span) :
    extents style o (ss ++ ss') = extents style o ss ++ extents style (o + width ss) ss' := by
  induction ss generalizing o with
  | nil => rfl
  | cons s ss ih =>
    have hwidth : o + width (s :: ss) = o + byteLength s.text + width ss := by
      rw [← List.singleton_append, width_append, width_singleton, Nat.add_assoc]
    rw [List.cons_append, extents, extents, ih, hwidth]
    split <;> rfl

/-! ## Between texts -/

/-- No word and no sign has this style. -/
def Reserved (style : Style) : Prop :=
  (∀ word called, wordStyle word called ≠ style) ∧ ∀ c, signStyle c ≠ style

theorem wordStyle_mem (word : List Char) (called : Bool) :
    wordStyle word called ∈ [{ fg := some Palette.keyword, bold := true }, .ofFg Palette.keyword,
      .ofFg Palette.literal, .ofFg Palette.callable, .ofFg Palette.text] := by
  unfold wordStyle
  dsimp only
  split_ifs <;> simp

theorem signStyle_mem (c : Char) :
    signStyle c ∈ [.ofFg Palette.keyword, .ofFg Palette.text] := by
  unfold signStyle
  split <;> simp

theorem reserved_string : Reserved (.ofFg Palette.string) :=
  ⟨fun word called => ne_of_mem_of_not_mem (wordStyle_mem word called) (by decide),
    fun c => ne_of_mem_of_not_mem (signStyle_mem c) (by decide)⟩

theorem reserved_muted : Reserved (.ofFg Palette.muted) :=
  ⟨fun word called => ne_of_mem_of_not_mem (wordStyle_mem word called) (by decide),
    fun c => ne_of_mem_of_not_mem (signStyle_mem c) (by decide)⟩

/-- The spans made so far (in reverse) and the current word take up `o` bytes; the spans of the
style are these. -/
structure Reached (style : Style) (o : Nat) (read : List Char) (spans : List Span)
    (found : List (Nat × List Char)) : Prop where
  width_eq : width spans.reverse + byteLength read.reverse = o
  extents_eq : extents style 0 spans.reverse = found

namespace Reached

variable {style : Style} {o : Nat} {read l : List Char} {spans : List Span}
  {found : List (Nat × List Char)}

theorem start (style : Style) : Reached style 0 [] [] [] := ⟨rfl, rfl⟩

/-- A character goes to the current word. -/
theorem push (h : Reached style o read spans found) (c : Char) :
    Reached style (o + c.utf8Size) (c :: read) spans found := by
  refine ⟨?_, h.extents_eq⟩
  rw [List.reverse_cons, Text.byteLength_append, ← h.width_eq, Nat.add_assoc]
  rfl

/-- A span is made where no word is open. -/
theorem span (h : Reached style o [] spans found) (s : Span) :
    Reached style (o + byteLength s.text) [] (s :: spans)
      (found ++ if s.style = style then [(o, s.text)] else []) := by
  have hwidth : width spans.reverse = o := h.width_eq
  refine ⟨?_, ?_⟩
  · rw [List.reverse_cons, width_append, width_singleton, hwidth]
    rfl
  · rw [List.reverse_cons, extents_append, h.extents_eq, Nat.zero_add, hwidth]
    rfl

/-- The word that ends here is made a span. -/
theorem flush (hstyle : Reserved style) (h : Reached style o read spans found) (called : Bool) :
    Reached style o [] (Highlight.flush read called spans) found := by
  unfold Highlight.flush
  split
  · next hempty =>
    obtain rfl := List.isEmpty_iff.1 hempty
    exact h
  · refine ⟨?_, ?_⟩
    · rw [List.reverse_cons, width_append, width_singleton, h.width_eq]
      rfl
    · rw [List.reverse_cons, extents_append, h.extents_eq, extents,
        if_neg (hstyle.1 read.reverse called)]
      exact List.append_nil _

/-- What holds no quote and no hash leaves the highlighter between texts. -/
theorem plain (hstyle : Reserved style) (hl : ∀ c ∈ l, c ≠ '#' ∧ c ≠ '"' ∧ c ≠ '\'')
    (h : Reached style o read spans found) (rest : List Char) :
    ∃ read' spans', Reached style (o + byteLength l) read' spans' found ∧
      spansFrom (.word read) (l ++ rest) spans = spansFrom (.word read') rest spans' := by
  induction l generalizing o read spans with
  | nil => exact ⟨read, spans, h, rfl⟩
  | cons c l ih =>
    rw [List.forall_mem_cons] at hl
    obtain ⟨⟨hhash, hdouble, hsingle⟩, hl⟩ := hl
    rw [List.cons_append, spansFrom, if_neg hhash, if_neg (not_or.2 ⟨hdouble, hsingle⟩),
      Text.byteLength_cons, ← Nat.add_assoc]
    split
    · exact ih hl (h.push c)
    · have hsign := (h.flush hstyle (c == '(')).span ⟨[c], signStyle c⟩
      rw [if_neg (hstyle.2 c), List.append_nil] at hsign
      exact ih hl hsign

end Reached

/-! ## Texts -/

section

variable {quote : Char} {body ds read s : List Char} {spans : List Span}

theorem spansFrom_text_of_ne (hds : ∀ d ∈ ds, d ≠ quote ∧ d ≠ '\\') (rest : List Char) :
    spansFrom (.text quote false read) (ds ++ rest) spans =
      spansFrom (.text quote false (ds.reverse ++ read)) rest spans := by
  induction ds generalizing read with
  | nil => rfl
  | cons d ds ih =>
    rw [List.forall_mem_cons] at hds
    obtain ⟨⟨hquote, hslash⟩, hds⟩ := hds
    rw [List.cons_append, spansFrom, if_neg hquote, beq_eq_false_iff_ne.2 hslash, ih hds,
      List.reverse_cons, List.append_assoc]
    rfl

/-- The character behind a backslash is passed, whatever it is. -/
theorem spansFrom_backslash (hslash : '\\' ≠ quote) (c : Char) (rest : List Char) :
    spansFrom (.text quote false read) ('\\' :: c :: rest) spans =
      spansFrom (.text quote false (c :: '\\' :: read)) rest spans := by
  rw [spansFrom, if_neg hslash, beq_self_eq_true, spansFrom]

/-- A text goes up to the quote that ends what it stands for. -/
theorem spansFrom_text (hslash : '\\' ≠ quote) (hdigit : quote.isDigit = false)
    (h : Unescapes quote body s) (rest : List Char) :
    spansFrom (.text quote false read) (body ++ quote :: rest) spans =
      spansFrom (.word []) rest (flushText (quote :: (body.reverse ++ read)) spans) := by
  induction h generalizing read with
  | nil => rw [List.nil_append, spansFrom, if_pos rfl]; rfl
  | @plain c body s hc hbackslash _ ih =>
    rw [List.cons_append, spansFrom, if_neg hc, beq_eq_false_iff_ne.2 hbackslash, ih,
      List.reverse_cons, List.append_assoc]
    rfl
  | @named e c body s _ _ ih =>
    rw [List.cons_append, List.cons_append, spansFrom_backslash hslash, ih, List.reverse_cons,
      List.reverse_cons, List.append_assoc, List.append_assoc]
    rfl
  | @code ds body s c hne hds _ _ _ ih =>
    obtain ⟨d, ds, rfl⟩ := List.exists_cons_of_ne_nil hne
    have hdigits : ∀ e ∈ ds, e ≠ quote ∧ e ≠ '\\' := by
      intro e he
      have hdigit' := hds e (List.mem_cons_of_mem d he)
      constructor
      · rintro rfl
        rw [hdigit] at hdigit'
        cases hdigit'
      · rintro rfl
        cases hdigit'
    rw [List.cons_append, List.cons_append, List.cons_append, spansFrom_backslash hslash,
      List.append_assoc, spansFrom_text_of_ne hdigits, ih]
    simp

end

/-- The style for a stretch that is a text or a comment. -/
def styleOf? (p : Stretch) : Option Style :=
  if p.isText then some (.ofFg Palette.string)
  else if p.isComment then some (.ofFg Palette.muted)
  else none

/-- The extents of the stretches that are to have a style. -/
def styled (style : Style) (ps : List Stretch) : List (Nat × List Char) :=
  (ps.filter fun p => styleOf? p = some style).map Stretch.extent

theorem styled_cons (style : Style) (p : Stretch) (ps : List Stretch) :
    styled style (p :: ps) =
      (if styleOf? p = some style then [p.extent] else []) ++ styled style ps := by
  rw [styled, List.filter_cons]
  by_cases hp : styleOf? p = some style
  · simp only [hp, decide_true, if_true]
    rfl
  · simp only [hp, decide_false, if_false]
    rfl

theorem isNamePart_of_isWord {cs : List Char} (h : Token.isWord cs = true) :
    ∀ c ∈ cs, Token.isNamePart c = true := by
  cases cs with
  | nil => simp
  | cons c cs =>
    simp only [Token.isWord, Bool.and_eq_true, List.all_eq_true] at h
    exact List.forall_mem_cons.2 ⟨Token.isNamePart_of_isNameStart h.1, h.2⟩

/-- A lexeme that is no text holds no quote and no hash. -/
theorem plain_of_written {k : Token.Kind} {l : List Char} (h : k.Written l)
    (hk : ∀ s, k ≠ .text s) : ∀ c ∈ l, c ≠ '#' ∧ c ≠ '"' ∧ c ≠ '\'' := by
  have hword {cs : List Char} (h : Token.isWord cs = true) :
      ∀ c ∈ cs, c ≠ '#' ∧ c ≠ '"' ∧ c ≠ '\'' := by
    intro c hc
    have hpart := isNamePart_of_isWord h c hc
    refine ⟨?_, ?_, ?_⟩ <;> rintro rfl <;> cases hpart
  cases h with
  | number hcs _ _ =>
    intro c hc
    refine ⟨?_, ?_, ?_⟩ <;> rintro rfl <;> exact absurd (hcs _ hc) (by decide)
  | text _ _ => exact absurd rfl (hk _)
  | name h _ => exact hword h
  | keyword k => exact hword (Token.isWord_spelling k)
  | sign g => cases g <;> simp [Sign.spelling]

section

variable {style : Style} {o : Nat} {cs read : List Char} {spans : List Span}
  {found : List (Nat × List Char)} {ps : List Stretch}

/-- The spans of a style are the stretches that are to have it. -/
theorem extents_spansFrom (hstyle : Reserved style) (h : Steps o cs ps) (hline : '\n' ∉ cs)
    (hr : Reached style o read spans found) :
    extents style 0 (spansFrom (.word read) cs spans) = found ++ styled style ps := by
  induction h generalizing read spans found with
  | done o => exact (hr.flush hstyle false).extents_eq.trans (List.append_nil found).symm
  | @step o c cs rest kind ps hlex hsteps ih =>
    have hrest : '\n' ∉ rest := fun hmem => hline (by simp [hmem])
    rw [styled_cons]
    -- what is neither a text nor a comment leaves the highlighter between texts
    have hskip (hplain : ∀ d ∈ c :: cs, d ≠ '#' ∧ d ≠ '"' ∧ d ≠ '\'')
        (hnone : styleOf? ⟨kind, o, c :: cs⟩ = none) :
        extents style 0 (spansFrom (.word read) (c :: (cs ++ rest)) spans) =
          found ++ ((if styleOf? ⟨kind, o, c :: cs⟩ = some style then [(o, c :: cs)] else []) ++
            styled style ps) := by
      obtain ⟨read', spans', hr', hsame⟩ := hr.plain hstyle hplain rest
      rw [← List.cons_append, hsame, ih hrest hr', hnone, if_neg (by simp), List.nil_append]
    rcases Token.taken_cases hlex with ⟨k, rfl, hk⟩ | ⟨rfl, rfl, hblank⟩ | ⟨rfl, rfl, -, hend⟩
    · by_cases htext : ∃ s, k = .text s
      · -- a text literal takes the highlighter from quote to quote
        obtain ⟨s, rfl⟩ := htext
        cases hk with
        | @text _ body _ hquote hbody =>
        have hhash : c ≠ '#' := by rcases hquote with rfl | rfl <;> decide
        have hslash : '\\' ≠ c := by rcases hquote with rfl | rfl <;> decide
        have hdigit : c.isDigit = false := by rcases hquote with rfl | rfl <;> decide
        have hspan := (hr.flush hstyle false).span ⟨c :: (body ++ [c]), .ofFg Palette.string⟩
        have hread : flushText (c :: (body.reverse ++ [c])) (flush read false spans) =
            ⟨c :: (body ++ [c]), .ofFg Palette.string⟩ :: flush read false spans := by
          simp [flushText]
        have hof : styleOf? ⟨some (.text s), o, c :: (body ++ [c])⟩ =
            some (.ofFg Palette.string) := rfl
        rw [spansFrom, if_neg hhash, if_pos hquote, List.append_assoc, List.singleton_append,
          spansFrom_text hslash hdigit hbody, hread, ih hrest hspan, List.append_assoc, hof]
        simp only [Option.some.injEq]
        rfl
      · refine hskip (plain_of_written hk fun s hs => htext ⟨s, hs⟩) ?_
        cases k with
        | text s => exact absurd ⟨s, rfl⟩ htext
        | _ => rfl
    · have hplain : c ≠ '#' ∧ c ≠ '"' ∧ c ≠ '\'' := by
        refine ⟨?_, ?_, ?_⟩ <;> rintro rfl <;> cases hblank
      refine hskip (List.forall_mem_singleton.2 hplain) ?_
      simp [styleOf?, Stretch.isText, Stretch.isComment, hplain.1]
    · -- a comment is the rest of the line
      obtain rfl := Token.eq_nil_of_head hend hrest
      cases hsteps
      have hspan := (hr.flush hstyle false).span ⟨'#' :: cs, .ofFg Palette.muted⟩
      rw [List.append_nil, spansFrom, if_pos rfl, hspan.extents_eq]
      have hof : styleOf? ⟨none, o, '#' :: cs⟩ = some (.ofFg Palette.muted) := rfl
      have hnone : styled style [] = [] := rfl
      rw [hof, hnone, List.append_nil]
      simp only [Option.some.injEq]
      rfl

end

theorem extents_highlight {style : Style} {line : List Char} {ps : List Stretch}
    (hstyle : Reserved style) (h : Steps 0 line ps) (hline : '\n' ∉ line) :
    extents style 0 (highlight line) = styled style ps :=
  extents_spansFrom hstyle h hline (.start style)

theorem styled_string (ps : List Stretch) :
    styled (.ofFg Palette.string) ps = (ps.filter Stretch.isText).map Stretch.extent := by
  refine congrArg _ (List.filter_congr fun p _ => ?_)
  have hne : Style.ofFg Palette.muted ≠ Style.ofFg Palette.string := by decide
  unfold styleOf?
  split
  · next htext => simp [htext]
  · next htext => split <;> simp [htext, hne]

theorem styled_muted (ps : List Stretch) :
    styled (.ofFg Palette.muted) ps = (ps.filter Stretch.isComment).map Stretch.extent := by
  refine congrArg _ (List.filter_congr fun p _ => ?_)
  have hne : Style.ofFg Palette.string ≠ Style.ofFg Palette.muted := by decide
  unfold styleOf?
  split
  · next htext => simp [hne, Stretch.isComment_of_isText htext]
  · split
    · next hcomment => simp [hcomment]
    · next hcomment => simp [hcomment]

/-- The highlighter finds the texts and comments of the lexer. On a line that the lexer accepts, the
spans in the colour of texts are the text literals that it reads, from the opening quote to the
closing one, in order and at the same places, and the spans in the colour of comments are the
comments that it skips: there is one just if the lexer skips one, it starts at the same `#` and runs
to the end of the line. -/
theorem highlight_eq_scan {line : String} {ts : List Token} (hline : '\n' ∉ line.toList)
    (h : Token.scan line = .ok ts) :
    ∃ ps, Steps 0 line.toList ps ∧
      ts = Token.wrap line.utf8ByteSize (ps.filterMap Stretch.token?) ∧
      extents (.ofFg Palette.string) 0 (highlight line.toList) =
        (ps.filter Stretch.isText).map Stretch.extent ∧
      extents (.ofFg Palette.muted) 0 (highlight line.toList) =
        (ps.filter Stretch.isComment).map Stretch.extent ∧
      (∀ p ∈ ps, ∀ s, p.kind = some (.text s) → (Token.Kind.text s).Written p.text) ∧
      ∀ p ∈ ps, p.isComment = true →
        p.text.head? = some '#' ∧ Text.StandsAt line.toList p.offset p.text := by
  obtain ⟨ts, hts, rfl⟩ := Token.scan_eq_ok_iff_lexemes.1 h
  obtain ⟨ps, hps, rfl⟩ := Token.exists_steps (Nat.le_refl _) hts
  refine ⟨ps, hps, rfl, ?_, ?_, fun p hp s hs => hps.written p hp _ hs, fun p hp hcomment => ?_⟩
  · rw [extents_highlight reserved_string hps hline, styled_string]
  · rw [extents_highlight reserved_muted hps hline, styled_muted]
  · obtain ⟨n, hn, hstands⟩ := hps.standsAt_comment hline p hp hcomment
    rw [hn, Nat.zero_add]
    exact ⟨Stretch.head_of_isComment hcomment, hstands⟩

/-- A text with a hash, an escaped quote and a code in it, a text in the other quotes, and a comment
with quotes. -/
theorem highlight_eq_scan_mixed :
    let line := "print 'a # \\'b\\65' + \"é\"; # \"c\""
    let ts := Token.wrap 32 [⟨.keyword .print, 0⟩, ⟨.text "a # 'bA", 6⟩, ⟨.sign .plus, 19⟩,
      ⟨.text "é", 21⟩, ⟨.sign .semicolon, 25⟩]
    '\n' ∉ line.toList ∧ Token.scan line = .ok ts ∧
      ∃ ps, Steps 0 line.toList ps ∧ ts = Token.wrap 32 (ps.filterMap Stretch.token?) ∧
        (ps.filter Stretch.isText).map Stretch.extent =
          [(6, "'a # \\'b\\65'".toList), (21, "\"é\"".toList)] ∧
        (ps.filter Stretch.isComment).map Stretch.extent = [(27, "# \"c\"".toList)] := by
  intro line ts
  have hline : '\n' ∉ line.toList := by decide +kernel
  have hscan : Token.scan line = .ok ts := by decide +kernel
  obtain ⟨ps, hps, hts, htexts, hcomments, -⟩ := highlight_eq_scan hline hscan
  have hstring : extents (.ofFg Palette.string) 0 (highlight line.toList) =
      [(6, "'a # \\'b\\65'".toList), (21, "\"é\"".toList)] := by decide +kernel
  have hmuted : extents (.ofFg Palette.muted) 0 (highlight line.toList) =
      [(27, "# \"c\"".toList)] := by decide +kernel
  exact ⟨hline, hscan, ps, hps, hts, htexts.symm.trans hstring, hcomments.symm.trans hmuted⟩

end ScopeScript.Viewer
