import Mathlib
import ScopeScript.Proofs.Diagnostic.Location
import ScopeScript.Viewer.Session

/-!
# Scrolling

A session of the viewer is a list of events: keys, and draws with panes of any heights.
`s.session es` is the state after it, on any terminal (`state_run`). A pane that lists something
draws the items from its offset on (`drawsShown_screen`). A draw settles that offset
(`offset_settle`), which makes the pane show as many of its items as it has room for
(`length_shown`); a key changes one thing (`changes_press`). No event moves an offset out of bounds,
so none ever is (`offset_session_le`).
-/

namespace ScopeScript.Viewer

def Pane.Item : Pane → Type
  | .source => List Char
  | .output => Line
  | .globals => String × Value

def Heights.rows (h : Heights) : Pane → Nat
  | .source => h.source
  | .output => h.output
  | .globals => h.globals

/-- The items of a pane, shown or not. -/
def Subject.items (s : Subject) : (p : Pane) → List p.Item
  | .source => s.sourceLines
  | .output => s.execution.output.toList
  | .globals => s.execution.globals

/-- The pane lists its items: the source pane always does, the other two show a text in their place
when there are none. -/
def Subject.Lists (s : Subject) (p : Pane) : Prop := p = .source ∨ s.items p ≠ []

def State.offset (st : State) : Pane → Nat
  | .source => st.sourceScroll
  | .output => st.outputScroll
  | .globals => st.globalsScroll

/-- The items that a pane shows. -/
def Subject.shown (s : Subject) (h : Heights) (st : State) (p : Pane) : List p.Item :=
  ((s.items p).drop (st.offset p)).take (visibleRows (h.rows p))

variable {s : Subject} {h : Heights} {st : State} {p : Pane}

theorem lists_output_iff : s.Lists .output ↔ s.execution.output.isEmpty = false := by
  rw [← Array.isEmpty_toList, List.isEmpty_eq_false_iff]
  exact or_iff_right Pane.noConfusion

theorem lists_globals_iff : s.Lists .globals ↔ s.execution.globals.isEmpty = false := by
  rw [List.isEmpty_eq_false_iff]
  exact or_iff_right Pane.noConfusion

theorem take_drop_zipIdx {α : Type} (xs : List α) (n k v : Nat) :
    ((xs.zipIdx n).drop k).take v = ((xs.drop k).take v).zipIdx (n + k) := by
  refine List.ext_getElem? fun i => ?_
  rw [List.getElem?_zipIdx, List.getElem?_take, List.getElem?_take, List.getElem?_drop,
    List.getElem?_drop, List.getElem?_zipIdx]
  split
  · rw [Nat.add_assoc]
  · rfl

/-- The source pane draws the lines that are shown, with their numbers. -/
theorem visibleSource_eq (h : Heights) (s : Subject) (st : State) :
    visibleSource h.source s st =
      ((s.shown h st .source).zipIdx (st.offset .source + 1)).map fun (line, n) =>
        sourceLine (n == s.markedLine) s.execution.fault.isSome n line := by
  rw [visibleSource, take_drop_zipIdx, Nat.add_comm 1]
  rfl

/-- The panels of the screen hold the items that are shown and no others: the lines with their
numbers, the printed texts, the bindings. -/
structure Subject.DrawsShown (s : Subject) (h : Heights) (st : State) : Prop where
  source : (screen h s st).source.content =
    .lines (((s.shown h st .source).zipIdx (st.offset .source + 1)).map fun (line, n) =>
      sourceLine (n == s.markedLine) s.execution.fault.isSome n line)
  output : s.Lists .output → (screen h s st).output.content =
    .texts (.ofFg Palette.text) ((s.shown h st .output).map fun (l : Line) => l.text.toList)
  globals : s.Lists .globals → (screen h s st).globals.content =
    .entries ((s.shown h st .globals).map fun (b : String × Value) => bindingLine b.1 b.2)

theorem drawsShown_screen (s : Subject) (h : Heights) (st : State) : s.DrawsShown h st where
  source := congrArg Content.lines (visibleSource_eq h s st)
  output hp := by
    rw [lists_output_iff, ← Array.isEmpty_toList] at hp
    simp only [screen, outputPanel, hp]
    rfl
  globals hp := by
    rw [lists_globals_iff] at hp
    simp only [screen, globalsPanel, hp]
    rfl

/-! ## A draw -/

/-- A draw settles the offset of a pane that lists its items. -/
theorem offset_settle (hp : s.Lists p) (h : Heights) (st : State) :
    (settle h s st).offset p =
      clamp (st.offset p) (s.items p).length (visibleRows (h.rows p)) := by
  cases p with
  | source => rfl
  | output =>
    have hne := lists_output_iff.1 hp
    simp only [State.offset, settle, hne]
    rfl
  | globals =>
    have hne := lists_globals_iff.1 hp
    simp only [State.offset, settle, hne]
    rfl

/-- A draw leaves the offset of every other pane. -/
theorem offset_settle_of_not_lists (hp : ¬ s.Lists p) (h : Heights) (st : State) :
    (settle h s st).offset p = st.offset p := by
  cases p with
  | source => exact absurd (.inl rfl) hp
  | output =>
    rw [lists_output_iff, Bool.not_eq_false] at hp
    simp only [State.offset, settle, hp, if_true]
  | globals =>
    rw [lists_globals_iff, Bool.not_eq_false] at hp
    simp only [State.offset, settle, hp, if_true]

theorem State.ext_offset {st st' : State} (hoffset : ∀ p, st.offset p = st'.offset p)
    (hfocus : st.focus = st'.focus) (hquit : st.quit = st'.quit) : st = st' := by
  have hsource := hoffset .source
  have houtput := hoffset .output
  have hglobals := hoffset .globals
  cases st
  cases st'
  simp only [State.offset] at hsource houtput hglobals hfocus hquit
  simp only [State.mk.injEq]
  exact ⟨hfocus, hsource, houtput, hglobals, hquit⟩

/-- Drawing again at the same size changes nothing. -/
theorem settle_settle (h : Heights) (s : Subject) (st : State) :
    settle h s (settle h s st) = settle h s st := by
  refine State.ext_offset (fun p => ?_) rfl rfl
  by_cases hp : s.Lists p
  · rw [offset_settle hp, offset_settle hp, clamp_clamp]
  · rw [offset_settle_of_not_lists hp]

theorem offset_settle_le (h : Heights) (s : Subject) (st : State) (p : Pane) :
    (settle h s st).offset p ≤ st.offset p := by
  by_cases hp : s.Lists p
  · rw [offset_settle hp]
    exact clamp_le_offset _ _ _
  · rw [offset_settle_of_not_lists hp]

/-- After a draw, a pane that lists its items shows as many as it has room for. -/
theorem length_shown (hp : s.Lists p) (h : Heights) (st : State) :
    (s.shown h (settle h s st) p).length = min (s.items p).length (visibleRows (h.rows p)) := by
  rw [Subject.shown, List.length_take, List.length_drop, offset_settle hp, clamp]
  split <;> omega

/-- What is shown stands in a row among the items, from the offset on. -/
theorem exists_items_eq (hoffset : st.offset p ≤ (s.items p).length) (h : Heights) :
    ∃ ahead behind, s.items p = ahead ++ s.shown h st p ++ behind ∧
      ahead.length = st.offset p := by
  refine ⟨(s.items p).take (st.offset p),
    ((s.items p).drop (st.offset p)).drop (visibleRows (h.rows p)), ?_, ?_⟩
  · rw [Subject.shown, List.append_assoc, List.take_append_drop, List.take_append_drop]
  · rw [List.length_take, Nat.min_eq_left hoffset]

/-! ## A key -/

/-- What a key may change: the offset of the focused pane, which goes no further than the largest
offset, or the focus, or whether to quit. -/
inductive Changes (st : State) : State → Prop where
  | scroll {n : Nat} : n ≤ max (st.offset st.focus) largestScroll →
      Changes st (st.scroll fun _ => n)
  | focus (p : Pane) : Changes st { st with focus := p }
  | quit : Changes st { st with quit := true }

theorem changes_scroll {f : Nat → Nat} (hf : ∀ n, f n ≤ max n largestScroll) (st : State) :
    Changes st (st.scroll f) := by
  have hsame : st.scroll f = st.scroll fun _ => f (st.offset st.focus) := by
    cases hfocus : st.focus <;> simp only [State.scroll, State.offset, hfocus]
  rw [hsame]
  exact .scroll (hf _)

/-- Every key changes at most one thing. -/
theorem changes_press (st : State) (k : Key) : Changes st (st.press k) := by
  have hup (d n : Nat) : n - d ≤ max n largestScroll := by omega
  have hdown (d n : Nat) : scrollDown d n ≤ max n largestScroll := by
    unfold scrollDown
    omega
  cases k with
  | quit => exact .quit
  | tab => exact .focus _
  | backTab => exact .focus _
  | up => exact changes_scroll (hup 1) st
  | down => exact changes_scroll (hdown 1) st
  | pageUp => exact changes_scroll (hup 10) st
  | pageDown => exact changes_scroll (hdown 10) st
  | other => exact .focus st.focus

theorem Changes.offset_le {st' : State} (hc : Changes st st')
    (hst : ∀ p, st.offset p ≤ largestScroll) (p : Pane) : st'.offset p ≤ largestScroll := by
  cases hc with
  | @scroll n hn =>
    have hn : n ≤ largestScroll := by
      have hfocus := hst st.focus
      omega
    have hp := hst p
    cases hfocus : st.focus <;> cases p <;>
      simp only [State.scroll, hfocus, State.offset] at hp ⊢ <;> assumption
  | focus => exact hst p
  | quit => exact hst p

/-! ## A session -/

inductive Event where
  | draw (h : Heights)
  | key (k : Key)

def Subject.respond (s : Subject) (st : State) : Event → State
  | .draw h => settle h s st
  | .key k => st.press k

/-- The state after a session. -/
def Subject.session (s : Subject) (es : List Event) : State := es.foldl s.respond (.start s)

@[simp] theorem session_append (s : Subject) (es : List Event) (e : Event) :
    s.session (es ++ [e]) = s.respond (s.session es) e := by
  rw [Subject.session, List.foldl_append]
  rfl

section

variable {δ : Type} (t : Terminal δ)

/-- One turn of the viewer: a key, if there was one, and a screen of some size. -/
def Terminal.turn (s : Subject) (v : Session δ) : Option Key × Size → Session δ
  | (none, z) => t.redraw z s v
  | (some k, z) => t.press z s v k

/-- The viewer on a terminal: its first screen and the turns that follow. -/
def Terminal.run (s : Subject) (z : Size) (turns : List (Option Key × Size)) : Session δ :=
  turns.foldl (t.turn s) (t.start z s)

def Terminal.events (z : Size) (turns : List (Option Key × Size)) : List Event :=
  .draw (t.heights z) ::
    turns.flatMap fun (k, z) => k.toList.map .key ++ [.draw (t.heights z)]

theorem state_start (z : Size) (s : Subject) :
    (t.start z s).state = s.session [.draw (t.heights z)] := rfl

theorem state_turn {v : Session δ} {es : List Event} (hv : v.state = s.session es)
    (k : Option Key) (z : Size) :
    (t.turn s v (k, z)).state =
      s.session (es ++ (k.toList.map .key ++ [.draw (t.heights z)])) := by
  rw [← List.append_assoc, session_append]
  cases k with
  | none =>
    rw [Option.toList_none, List.map_nil, List.append_nil, ← hv]
    rfl
  | some k =>
    rw [Option.toList_some, List.map_singleton, session_append, ← hv]
    rfl

/-- The state of the viewer is that after the events, whatever the terminal. -/
theorem state_run (s : Subject) (z : Size) (turns : List (Option Key × Size)) :
    (t.run s z turns).state = s.session (t.events z turns) := by
  induction turns using List.reverseRecOn with
  | nil => exact state_start t z s
  | append_singleton turns turn ih =>
    have hevents : t.events z (turns ++ [turn]) = t.events z turns ++
        (turn.1.toList.map .key ++ [.draw (t.heights turn.2)]) := by
      simp [Terminal.events]
    rw [Terminal.run, List.foldl_append, hevents]
    exact state_turn t ih turn.1 turn.2

end

theorem markedLine_of_fault {f : Fault} (hf : s.execution.fault = some f) :
    s.markedLine = Diagnostic.lineNumber s.source f.offset := by
  rw [Subject.markedLine, Subject.diagnostic?, hf]
  exact Diagnostic.line_locate f.stage f.offset f.message s.source s.label

theorem markedLine_le (s : Subject) : s.markedLine ≤ s.source.utf8ByteSize + 1 := by
  cases hf : s.execution.fault with
  | none =>
    rw [Subject.markedLine, Subject.diagnostic?, hf]
    exact Diagnostic.lineNumber_le _ _
  | some f =>
    rw [markedLine_of_fault hf]
    exact Diagnostic.lineNumber_le _ _

/-- No offset is ever out of bounds. -/
theorem offset_session_le (hsource : s.source.utf8ByteSize ≤ largestScroll) (es : List Event)
    (p : Pane) : (s.session es).offset p ≤ largestScroll := by
  induction es using List.reverseRecOn generalizing p with
  | nil =>
    have hmarked := markedLine_le s
    cases p with
    | source =>
      show s.markedLine - 4 ≤ largestScroll
      omega
    | output => exact Nat.le_refl _
    | globals => exact Nat.zero_le _
  | append_singleton es e ih =>
    rw [session_append]
    cases e with
    | draw h => exact (offset_settle_le h s _ p).trans (ih p)
    | key k => exact (changes_press _ k).offset_le ih p

/-- Scrolling stays in range. After every draw of a session, the offset of a pane that lists its
items leaves no row empty that an item could fill, so the pane shows as many items as it has room
for, those from the offset on; drawing again at the same size changes nothing, and a draw never
changes the offset of a pane that lists nothing. A key changes at most the offset of the focused
pane, or the focus, or whether to quit, and no offset goes past the largest one. What a terminal is
given to draw are the items that are shown, and the viewer on a terminal goes through such
sessions. -/
theorem session_scrolling (s : Subject) (es : List Event) (h : Heights) :
    let before := s.session es
    let after := s.session (es ++ [.draw h])
    (∀ p, s.Lists p →
      let total := (s.items p).length
      let visible := max (h.rows p - 2) 1
      (visible < total → after.offset p ≤ total - visible) ∧
      (total ≤ visible → after.offset p = 0) ∧
      (s.shown h after p).length = min total visible ∧
      ∃ ahead behind, s.items p = ahead ++ s.shown h after p ++ behind ∧
        ahead.length = after.offset p) ∧
    s.session (es ++ [.draw h] ++ [.draw h]) = after ∧
    (∀ p, ¬ s.Lists p → after.offset p = before.offset p) ∧
    (∀ k, Changes before (s.session (es ++ [.key k]))) ∧
    (s.source.utf8ByteSize ≤ largestScroll → ∀ p, before.offset p ≤ largestScroll) ∧
    s.DrawsShown h after ∧
    ∀ (δ : Type) (t : Terminal δ) (z : Size),
      (∀ turns, (t.run s z turns).state = s.session (t.events z turns)) ∧
      ∀ v : Session δ, v.state = before → t.heights z = h →
        t.redraw z s v = ⟨after, t.draw z (screen h s after) v.display⟩ := by
  intro before after
  have hafter : after = settle h s before := session_append s es (.draw h)
  refine ⟨fun p hp => ?_, ?_, fun p hp => ?_, fun k => ?_, fun hsource => ?_,
    drawsShown_screen s h after, fun δ t z => ⟨state_run t s z, ?_⟩⟩
  · have hclamp : after.offset p = clamp (before.offset p) (s.items p).length
        (max (h.rows p - 2) 1) := by
      rw [hafter]
      exact offset_settle hp h before
    have hle := clamp_le (before.offset p) (s.items p).length (max (h.rows p - 2) 1)
    refine ⟨fun _ => hclamp ▸ hle, fun hfits => ?_, ?_, exists_items_eq ?_ h⟩
    · rw [hclamp, clamp, if_neg (Nat.not_lt.2 hfits)]
    · rw [hafter]
      exact length_shown hp h before
    · omega
  · rw [session_append]
    show settle h s after = after
    rw [hafter, settle_settle]
  · rw [hafter]
    exact offset_settle_of_not_lists hp h before
  · rw [session_append]
    exact changes_press before k
  · exact offset_session_le hsource es
  · rintro v hv rfl
    rw [hafter, ← hv]
    rfl

/-- Three printed lines in a pane with room for one, then, a line further up, for two, on a terminal
that keeps every screen it is given; there are no bindings. -/
theorem session_scrolling_resized :
    let s : Subject := ⟨⟨#[⟨"a", 0⟩, ⟨"b", 10⟩, ⟨"c", 20⟩], [], none, 20⟩, "", "f"⟩
    let es : List Event := [.draw ⟨6, 3, 3⟩, .key .tab, .key .up]
    let h : Heights := ⟨8, 4, 4⟩
    let t : Terminal (List Screen) :=
      { heights := fun z => ⟨z.height - 1, (z.height - 1) / 2, z.height - 1 - (z.height - 1) / 2⟩
        blank := fun _ => []
        draw := fun _ screen screens => screen :: screens }
    let before := s.session es
    let after := s.session (es ++ [.draw h])
    s.Lists .output ∧ 2 < (s.items .output).length ∧ after.offset .output ≤ 1 ∧
      (s.shown h after .output).length = 2 ∧
      (screen h s after).output.content = .texts (.ofFg Palette.text) [['b'], ['c']] ∧
      s.Lists .source ∧ (s.items .source).length ≤ 6 ∧ after.offset .source = 0 ∧
      ¬ s.Lists .globals ∧ after.offset .globals = before.offset .globals ∧
      (s.source.utf8ByteSize ≤ largestScroll ∧ ∀ p, before.offset p ≤ largestScroll) ∧
      t.heights ⟨40, 9⟩ = h ∧ t.redraw ⟨40, 9⟩ s ⟨before, []⟩ = ⟨after, [screen h s after]⟩ := by
  intro s es h t before after
  obtain ⟨hlists, -, hrest, -, hbound, hdraws, hterminal⟩ := session_scrolling s es h
  have houtput : s.Lists .output := lists_output_iff.2 rfl
  have hglobals : ¬ s.Lists .globals := by simp [lists_globals_iff, s]
  have hsize : s.source.utf8ByteSize ≤ largestScroll := Nat.zero_le _
  have hshown : (s.shown h after .output).map (fun (l : Line) => l.text.toList) =
      [['b'], ['c']] := by decide +kernel
  obtain ⟨hle, -, hlen, -⟩ := hlists .output houtput
  obtain ⟨-, hzero, -⟩ := hlists .source (.inl rfl)
  obtain ⟨-, hredraw⟩ := hterminal _ t ⟨40, 9⟩
  exact ⟨houtput, by decide, hle (by decide), hlen, by rw [hdraws.output houtput, hshown],
    .inl rfl, by decide, hzero (by decide), hglobals, hrest .globals hglobals,
    ⟨hsize, hbound hsize⟩, rfl, hredraw ⟨before, []⟩ rfl rfl⟩

end ScopeScript.Viewer
