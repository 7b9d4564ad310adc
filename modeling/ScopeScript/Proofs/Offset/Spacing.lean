import Mathlib
import ScopeScript.Proofs.Offset.Relocation
import ScopeScript.Proofs.Token.Pieces

/-!
# More space between tokens

Blanks and comments put in front of a token, or at the end of a source text, change no token but
for its offset (`scan_insert`). The argument is on the tiling of the text: the new trivia joins the
trivia that stands there, no lexeme in front of it grows (`endsBefore_insert`), and the lexemes
behind it move (`Tiles.shift`). At the end of the text an unfinished comment may swallow a part of
what is put in (`FinalTrivia.append`).
-/

namespace ScopeScript.Token

open Text (byteLength)

/-- Where an offset comes to stand when `n` bytes are put in at `o`. -/
def pushed (o n p : Nat) : Nat := if p < o then p else p + n

theorem relocate_pushed_of_lt {o n : Nat} {t : Token} (h : t.offset < o) :
    t.relocate (pushed o n) = t := by
  rw [relocate, pushed, if_pos h]

theorem map_relocate_pushed {o n : Nat} {ts : List Token} (h : ∀ t ∈ ts, o ≤ t.offset) :
    ts.map (·.relocate (pushed o n)) = ts.map (·.relocate (· + n)) := by
  refine List.map_congr_left fun t ht => ?_
  rw [relocate, pushed, if_neg (Nat.not_lt.2 (h t ht)), relocate]

namespace Kind

theorem extendedBy_hash (k : Kind) : k.extendedBy '#' = false := by
  cases k with
  | sign g => cases g <;> rfl
  | _ => rfl

theorem extendedBy_of_isBlank {c : Char} (h : Text.isBlank c = true) (k : Kind) :
    k.extendedBy c = false := by
  cases k with
  | number x => exact not_isNumeric_of_isBlank h
  | name s => exact not_isNamePart_of_isBlank h
  | keyword k => exact not_isNamePart_of_isBlank h
  | sign g =>
    simp only [extendedBy, Sign.extend?, Option.isSome_eq_false_iff]
    split
    case h_6 => rfl
    all_goals cases h
  | text s => rfl
  | finish => rfl

end Kind

theorem endsBefore_insert {k : Kind} {before w after : List Char}
    (h : k.EndsBefore (before ++ after)) (hw : Trivia w) :
    k.EndsBefore (before ++ (w ++ after)) := by
  cases before with
  | cons c before => exact h
  | nil =>
    cases hw with
    | nil => exact h
    | blank hc _ =>
      rintro _ ⟨⟩
      exact Kind.extendedBy_of_isBlank hc k
    | comment _ _ =>
      rintro _ ⟨⟩
      exact Kind.extendedBy_hash k

/-! ## Tilings with more trivia -/

/-- Trivia behind an unfinished comment goes on with it up to the first end of a line. -/
theorem finalTrivia_unfinished {body w : List Char} (hbody : '\n' ∉ body) (hw : Trivia w) :
    FinalTrivia ('#' :: (body ++ w)) := by
  induction hw generalizing body with
  | nil =>
    rw [List.append_nil]
    exact .unclosed .nil hbody
  | @blank c w _ hw ih =>
    by_cases hc : c = '\n'
    · subst hc
      exact .closed (.comment hbody hw)
    · rw [List.append_cons]
      refine ih ?_
      simp [hbody, Ne.symm hc]
  | @comment body' w hbody' hw _ =>
    have hline : '\n' ∉ body ++ '#' :: body' := by simp [hbody, hbody']
    have hjoined : body ++ '#' :: (body' ++ '\n' :: w) =
        (body ++ '#' :: body') ++ '\n' :: w := by simp
    rw [hjoined]
    exact .closed (.comment hline hw)

theorem FinalTrivia.append {cs w : List Char} (h : FinalTrivia cs) (hw : Trivia w) :
    FinalTrivia (cs ++ w) := by
  cases h with
  | closed h => exact .closed (h.append hw)
  | unclosed h hbody =>
    rw [List.append_assoc]
    exact (finalTrivia_unfinished hbody hw).prepend h

/-- A tiling is the same from any offset on. -/
theorem Tiles.shift {offset : Nat} {cs : List Char} {ts : List Token} (h : Tiles offset cs ts)
    (n : Nat) : Tiles (offset + n) cs (ts.map (·.relocate (· + n))) := by
  induction h with
  | done h => exact .done h
  | @next offset gap l rest k ts hgap hl hrest _ ih =>
    have hstart : offset + byteLength gap + n = offset + n + byteLength gap := by omega
    have hend : offset + byteLength gap + byteLength l + n =
        offset + n + byteLength gap + byteLength l := by omega
    rw [hend] at ih
    rw [List.map_cons, relocate, hstart]
    exact .next hgap hl hrest ih

/-- Trivia may be put in front of any token and at the end. -/
theorem Tiles.insert {offset o : Nat} {cs : List Char} {ts : List Token} (h : Tiles offset cs ts)
    (ho : (∃ t ∈ ts, t.offset = o) ∨ o = offset + byteLength cs) :
    ∃ before after, cs = before ++ after ∧ o = offset + byteLength before ∧
      ∀ w, Trivia w →
        Tiles offset (before ++ (w ++ after)) (ts.map (·.relocate (pushed o (byteLength w)))) := by
  induction h with
  | @done offset cs hcs =>
    rcases ho with ⟨t, ht, _⟩ | rfl
    · cases ht
    · refine ⟨cs, [], (List.append_nil cs).symm, rfl, fun w hw => .done ?_⟩
      rw [List.append_nil]
      exact hcs.append hw
  | @next offset gap l rest k ts hgap hl hrest htiles ih =>
    have hpos : 0 < byteLength l := hl.byteLength_pos
    by_cases hfirst : o = offset + byteLength gap
    · -- The trivia in front of the first lexeme grows, and all the tokens move.
      subst hfirst
      refine ⟨gap, l ++ rest, rfl, rfl, fun w hw => ?_⟩
      have hmoved (t : Token) (ht : t ∈ ts) : offset + byteLength gap ≤ t.offset := by
        have hle := htiles.increasing.1 t ht
        omega
      have hstart : pushed (offset + byteLength gap) (byteLength w) (offset + byteLength gap) =
          offset + byteLength (gap ++ w) := by
        rw [pushed, if_neg (Nat.lt_irrefl _), Text.byteLength_append]
        omega
      have hend : offset + byteLength gap + byteLength l + byteLength w =
          offset + byteLength (gap ++ w) + byteLength l := by
        rw [Text.byteLength_append]
        omega
      have hshift := htiles.shift (byteLength w)
      rw [hend] at hshift
      rw [List.map_cons, map_relocate_pushed hmoved, relocate, hstart, ← List.append_assoc]
      exact .next (hgap.append hw) hl hrest hshift
    · -- The first lexeme stays where it is, and does not grow.
      have hlater : (∃ t ∈ ts, t.offset = o) ∨
          o = offset + byteLength gap + byteLength l + byteLength rest := by
        rcases ho with ⟨t, ht, rfl⟩ | rfl
        · rcases List.mem_cons.1 ht with rfl | ht
          · exact absurd rfl hfirst
          · exact .inl ⟨t, ht, rfl⟩
        · right
          rw [Text.byteLength_append, Text.byteLength_append]
          omega
      obtain ⟨before, after, rfl, ho', hinsert⟩ := ih hlater
      refine ⟨gap ++ (l ++ before), after, by simp, ?_, fun w hw => ?_⟩
      · rw [Text.byteLength_append, Text.byteLength_append]
        omega
      · have hstays : offset + byteLength gap < o := by omega
        rw [List.map_cons, relocate_pushed_of_lt hstays, List.append_assoc, List.append_assoc]
        exact .next hgap hl (endsBefore_insert hrest hw) (hinsert w hw)

/-! ## Whole texts -/

/-- Blanks and finished comments that are put in where a token starts, or at the end of the text,
move the tokens from there on and change nothing else. -/
theorem scan_insert {source : String} {tokens : List Token} (h : scan source = .ok tokens) :
    ∃ ts, tokens = wrap source.utf8ByteSize ts ∧
      ∀ o, (∃ t ∈ ts, t.offset = o) ∨ o = source.utf8ByteSize →
        ∃ before after, source = before ++ after ∧ before.utf8ByteSize = o ∧
          ∀ w : String, Trivia w.toList →
            scan (before ++ w ++ after) = .ok (wrap (source.utf8ByteSize + w.utf8ByteSize)
              (ts.map (·.relocate (pushed o w.utf8ByteSize)))) := by
  obtain ⟨ts, hts, rfl⟩ := scan_eq_ok_iff_lexemes.1 h
  refine ⟨ts, rfl, fun o ho => ?_⟩
  have hplace : (∃ t ∈ ts, t.offset = o) ∨ o = 0 + byteLength source.toList := by
    rwa [Text.byteLength_toList, Nat.zero_add]
  obtain ⟨before, after, hsource, hbefore, hinsert⟩ := (lexemes_eq_ok_iff.1 hts).insert hplace
  refine ⟨String.ofList before, String.ofList after, ?_, ?_, fun w hw => ?_⟩
  · rw [← String.ofList_append, ← hsource, String.ofList_toList]
  · rw [← Text.byteLength_toList, String.toList_ofList, hbefore, Nat.zero_add]
  · have htiles := hinsert w.toList hw
    rw [Text.byteLength_toList] at htiles
    have hall : (String.ofList before ++ w ++ String.ofList after).toList =
        before ++ (w.toList ++ after) := by simp
    have hsize : source.utf8ByteSize + w.utf8ByteSize =
        (String.ofList before ++ w ++ String.ofList after).utf8ByteSize := by
      rw [← Text.byteLength_toList, ← Text.byteLength_toList, ← Text.byteLength_toList, hall,
        hsource]
      simp only [Text.byteLength_append]
      omega
    rw [hsize]
    exact scan_eq_ok_iff_lexemes.2 ⟨_, lexemes_eq_ok_iff.2 (hall ▸ htiles), rfl⟩

/-- A comment is put in between two lexemes that touch, and behind a comment without its end of
line. -/
theorem scan_insert_touching :
    let ts : List Token := [⟨.text "é", 0⟩, ⟨.name "x", 4⟩, ⟨.sign .slashSlash, 5⟩, ⟨.name "y", 7⟩]
    scan "'é'x//y#" = .ok (wrap 9 ts) ∧ (∃ t ∈ ts, t.offset = 4) ∧ Trivia " #é\n".toList ∧
    (∃ before after, "'é'x//y#" = before ++ after ∧ before.utf8ByteSize = 4 ∧
      scan (before ++ " #é\n" ++ after) = .ok (wrap 14 [⟨.text "é", 0⟩, ⟨.name "x", 9⟩,
        ⟨.sign .slashSlash, 10⟩, ⟨.name "y", 12⟩])) ∧
    ∃ before after, "'é'x//y#" = before ++ after ∧ before.utf8ByteSize = 9 ∧
      scan (before ++ " #é\n" ++ after) = .ok (wrap 14 ts) := by
  intro ts
  have hscan : scan "'é'x//y#" = .ok (wrap 9 ts) := rfl
  have hx : ∃ t ∈ ts, t.offset = 4 := ⟨⟨.name "x", 4⟩, by simp [ts], rfl⟩
  have hw : Trivia " #é\n".toList := .blank rfl (@Trivia.comment ['é'] [] (by decide) .nil)
  obtain ⟨_, hts, hinsert⟩ := scan_insert hscan
  obtain rfl := List.append_cancel_right (List.cons.inj hts).2
  obtain ⟨before, after, hsource, hbefore, hmiddle⟩ := hinsert 4 (.inl hx)
  obtain ⟨before', after', hsource', hbefore', hend⟩ := hinsert 9 (.inr rfl)
  exact ⟨hscan, hx, hw, ⟨before, after, hsource, hbefore, hmiddle _ hw⟩, before', after', hsource',
    hbefore', hend _ hw⟩

end ScopeScript.Token
