import Mathlib
import ScopeScript.Proofs.Token.Escape
import ScopeScript.Proofs.Token.Position

/-!
# A source text as pieces

A source text is read as lexemes with trivia before, between and behind them. `k.Written cs` says
how a token of kind `k` is written, `Trivia` what may stand between two lexemes, and
`Tiles o cs ts` that the text `cs` from offset `o` on is made of the lexemes of the tokens `ts`
with trivia around them, each lexeme as long as it can be. The lexer accepts just the texts that
are tiled so, and its tokens are those of the tiling (`scan_eq_ok_iff`): it drops nothing but
trivia.
-/

namespace ScopeScript.Token

open Text (byteLength StandsAt)

namespace Kind

/-- The ways to write a kind. -/
inductive Written : Kind → List Char → Prop where
  | number {cs : List Char} {x : Float} : (∀ c ∈ cs, c.isDigit = true ∨ c = '.') →
      cs.count '.' ≤ 1 → Decimal.numeral cs = some x → Written (.number x) cs
  | text {quote : Char} {body : List Char} {s : String} : quote = '"' ∨ quote = '\'' →
      Unescapes quote body s.toList → Written (.text s) (quote :: (body ++ [quote]))
  | name {s : String} : isWord s.toList = true → Keyword.ofSpelling? s = none →
      Written (.name s) s.toList
  | keyword (k : Keyword) : Written (.keyword k) k.spelling.toList
  | sign (g : Sign) : Written (.sign g) g.spelling.toList

/-- Whether a character right behind a lexeme of this kind would belong to it. -/
def extendedBy : Kind → Char → Bool
  | .number _, c => isNumeric c
  | .name _, c | .keyword _, c => isNamePart c
  | .sign g, c => (g.extend? c).isSome
  | .text _, _ | .finish, _ => false

/-- A lexeme of this kind can end before `rest`. -/
def EndsBefore (k : Kind) (rest : List Char) : Prop := ∀ c ∈ rest.head?, k.extendedBy c = false

theorem extendedBy_wordKind (s : String) (c : Char) :
    (wordKind s).extendedBy c = isNamePart c := by
  unfold wordKind
  split <;> rfl

theorem written_word {cs : List Char} (h : isWord cs = true) :
    (wordKind (String.ofList cs)).Written cs := by
  unfold wordKind
  split
  · next k hk =>
    have hspell := List.find?_some hk
    rw [← String.toList_ofList (l := cs), ← beq_iff_eq.1 hspell]
    exact .keyword k
  · next hnone =>
    have hname : Written (.name (String.ofList cs)) (String.ofList cs).toList :=
      .name (by rwa [String.toList_ofList]) hnone
    rwa [String.toList_ofList] at hname

end Kind

theorem isNumeric_iff {c : Char} : isNumeric c = true ↔ c.isDigit = true ∨ c = '.' := by
  simp [isNumeric]

theorem count_point_eq_zero_iff (cs : List Char) :
    cs.count '.' = 0 ↔ cs.length ≤ (cs.takeWhile (· != '.')).length := by
  induction cs with
  | nil => simp
  | cons c cs ih => by_cases hc : c = '.' <;> simp [hc, ih]

/-- No point is left over just if there is at most one. -/
theorem count_point_le_one_iff (cs : List Char) :
    cs.count '.' ≤ 1 ↔ ¬ (cs.takeWhile (· != '.')).length + 1 +
      ((cs.drop ((cs.takeWhile (· != '.')).length + 1)).takeWhile (· != '.')).length <
        cs.length := by
  induction cs with
  | nil => simp
  | cons c cs ih =>
    by_cases hc : c = '.'
    · have hrest := count_point_eq_zero_iff cs
      subst hc
      simp only [List.count_cons_self, bne_self_eq_false, Bool.false_eq_true, not_false_eq_true,
        List.takeWhile_cons_of_neg, List.length_nil, Nat.zero_add, List.drop_succ_cons,
        List.drop_zero, List.length_cons]
      omega
    · have hwhole : (c :: cs).takeWhile (· != '.') = c :: cs.takeWhile (· != '.') :=
        List.takeWhile_cons_of_pos (by simpa using hc)
      rw [List.count_cons_of_ne hc, hwhole, ih, List.length_cons, List.drop_succ_cons,
        List.length_cons]
      omega

/-! ## One lexeme -/

section

variable {offset : Nat} {c : Char} {cs rest l : List Char} {step : Step} {k : Kind}

/-- The offset moves on by what was taken. -/
theorem offset_of_lexeme (h : lexeme offset c cs = .ok step) (hl : c :: cs = l ++ step.rest) :
    step.offset = offset + byteLength l := by
  have hstep := proceeds_lexeme offset c cs
  rw [h] at hstep
  cases hstep with
  | step kind hrest =>
    obtain ⟨before, hbefore, hn⟩ := hrest
    have hsame : before = l := List.append_cancel_right (hbefore.symm.trans hl)
    rw [← hn, hsame]

/-- What was read: a lexeme, a blank, or a comment up to the end of its line. -/
inductive Piece (offset : Nat) (c : Char) (cs : List Char) : Step → Prop where
  | lexeme {k : Kind} {l rest : List Char} : k.Written l → k.EndsBefore rest →
      c :: cs = l ++ rest → Piece offset c cs ⟨some k, offset + byteLength l, rest⟩
  | blank : Text.isBlank c = true → Piece offset c cs ⟨none, offset + c.utf8Size, cs⟩
  | comment {body rest : List Char} : c = '#' → '\n' ∉ body → (∀ d ∈ rest.head?, d = '\n') →
      cs = body ++ rest → Piece offset c cs ⟨none, offset + byteLength (c :: body), rest⟩

theorem piece_of_written (h : lexeme offset c cs = .ok step) (hkind : step.kind = some k)
    (hl : c :: cs = l ++ step.rest) (hk : k.Written l) (hend : k.EndsBefore step.rest) :
    Piece offset c cs step := by
  have ho := offset_of_lexeme h hl
  obtain ⟨kind, n, rest⟩ := step
  dsimp only at hkind ho hl hend
  subst hkind ho
  exact .lexeme hk hend hl

theorem readNumber_ok (h : readNumber offset cs = .ok step) :
    ∃ x, step.kind = some (.number x) ∧ step.rest = cs.dropWhile isNumeric ∧
      Kind.Written (.number x) (cs.takeWhile isNumeric) := by
  unfold readNumber at h
  dsimp only at h
  split at h
  · cases h
  · next hpoints =>
    split at h
    · cases h
    · next x hx =>
      cases h
      refine ⟨x, rfl, rfl, .number (fun d hd => ?_) ((count_point_le_one_iff _).2 hpoints) hx⟩
      exact isNumeric_iff.1 (List.mem_takeWhile_imp hd)

theorem head_dropWhile {p : Char → Bool} {d : Char} (hd : d ∈ (cs.dropWhile p).head?) :
    p d = false := by
  have hhead := List.head?_dropWhile_not p cs
  rwa [Option.mem_def.1 hd] at hhead

theorem isWord_takeWhile (h : isNameStart c = true) (cs : List Char) :
    isWord ((c :: cs).takeWhile isNamePart) = true := by
  rw [List.takeWhile_cons_of_pos (isNamePart_of_isNameStart h)]
  simp only [isWord, h, Bool.true_and, List.all_eq_true]
  exact fun d hd => List.mem_takeWhile_imp hd

theorem spelling_of_ofChar? {g : Sign} (h : Sign.ofChar? c = some g) :
    g.spelling.toList = [c] := by
  unfold Sign.ofChar? at h
  split at h
  case h_17 => cases h
  all_goals
    cases h
    rfl

/-- Two characters make a sign that no third one extends. -/
theorem spelling_of_extend? {g g' : Sign} {d : Char} (h : Sign.ofChar? c = some g)
    (h' : g.extend? d = some g') :
    g'.spelling.toList = [c, d] ∧ ∀ e, g'.extend? e = none := by
  have hc := spelling_of_ofChar? h
  unfold Sign.extend? at h'
  split at h'
  case h_6 => cases h'
  all_goals
    cases h'
    cases hc
    exact ⟨rfl, fun _ => rfl⟩

/-- Every step takes a piece. -/
theorem piece_of_lexeme (h : lexeme offset c cs = .ok step) : Piece offset c cs step := by
  have hread := h
  unfold lexeme at hread
  split at hread
  · obtain ⟨x, hkind, hrest, hwritten⟩ := readNumber_ok hread
    refine piece_of_written h hkind ?_ hwritten fun d hd => ?_
    · rw [hrest, List.takeWhile_append_dropWhile]
    · rw [hrest] at hd
      exact head_dropWhile hd
  split at hread
  · next hname =>
    cases hread
    have hwritten := Kind.written_word (isWord_takeWhile hname cs)
    refine piece_of_written h rfl List.takeWhile_append_dropWhile.symm hwritten fun d hd => ?_
    exact (Kind.extendedBy_wordKind _ d).trans (head_dropWhile hd)
  split at hread
  · next hquote =>
    obtain ⟨body, s, hbody, hs, hkind⟩ := readText_sound .plain hread
    have hwritten : Kind.Written (.text (String.ofList s)) (c :: (body ++ [c])) :=
      .text hquote (by rwa [String.toList_ofList])
    refine piece_of_written h hkind ?_ hwritten fun _ _ => rfl
    rw [hbody]
    simp
  split at hread
  · next hhash =>
    subst hhash
    cases hread
    refine .comment rfl (fun hmem => ?_) (fun d hd => ?_) List.takeWhile_append_dropWhile.symm
    · cases List.mem_takeWhile_imp hmem
    · simpa using head_dropWhile hd
  split at hread
  · next hblank =>
    cases hread
    exact .blank hblank
  split at hread
  · next g hg =>
    have hone : Kind.Written (.sign g) [c] := spelling_of_ofChar? hg ▸ .sign g
    cases hread
    cases cs with
    | nil => exact piece_of_written h rfl rfl hone nofun
    | cons d ds =>
      cases hd : g.extend? d with
      | none =>
        have hstep : readSign g (offset + 1) (d :: ds) = ⟨some (.sign g), offset + 1, d :: ds⟩ := by
          rw [readSign, hd]
        rw [hstep] at h ⊢
        refine piece_of_written h rfl rfl hone fun e he => ?_
        cases he
        simp only [Kind.extendedBy, hd, Option.isSome_none]
      | some g' =>
        obtain ⟨hspell, hlast⟩ := spelling_of_extend? hg hd
        have htwo : Kind.Written (.sign g') [c, d] := hspell ▸ .sign g'
        have hstep : readSign g (offset + 1) (d :: ds) =
            ⟨some (.sign g'), offset + 1 + 1, ds⟩ := by
          rw [readSign, hd]
        rw [hstep] at h ⊢
        refine piece_of_written h rfl rfl htwo fun e _ => ?_
        simp only [Kind.extendedBy, hlast, Option.isSome_none]
  · cases hread

/-- What is written as a kind is read as that kind, if it can end there. -/
theorem lexeme_of_written (h : k.Written l) (hrest : k.EndsBefore rest) (offset : Nat) :
    ∃ c ds, l = c :: ds ∧
      lexeme offset c (ds ++ rest) = .ok ⟨some k, offset + byteLength l, rest⟩ := by
  suffices hread : ∃ c ds n, l = c :: ds ∧
      lexeme offset c (ds ++ rest) = .ok ⟨some k, n, rest⟩ by
    obtain ⟨c, ds, n, rfl, hn⟩ := hread
    have ho : n = offset + byteLength (c :: ds) := offset_of_lexeme hn rfl
    exact ⟨c, ds, rfl, by rw [hn, ho]⟩
  cases h with
  | @number cs x hcs hcount hx =>
    have hnumeric (d : Char) (hd : d ∈ l) : isNumeric d = true := isNumeric_iff.2 (hcs d hd)
    obtain ⟨c, ds, rfl⟩ : ∃ c ds, l = c :: ds := by
      refine List.exists_cons_of_ne_nil ?_
      rintro rfl
      cases hx
    refine ⟨c, ds, offset + (c :: ds).length, rfl, ?_⟩
    rw [lexeme, if_pos (hnumeric c List.mem_cons_self), readNumber, ← List.cons_append,
      takeWhile_append_of_head hnumeric hrest, dropWhile_append_of_head hnumeric hrest,
      if_neg ((count_point_le_one_iff _).1 hcount), hx]
  | @text quote body s hquote hbody =>
    have hdigit : quote.isDigit = false := by rcases hquote with rfl | rfl <;> decide
    have hslash : '\\' ≠ quote := by rcases hquote with rfl | rfl <;> decide
    obtain ⟨n, hn⟩ := readText_of_unescapes hdigit hslash hbody (.plain []) (by simp) offset
      (offset + 1) rest
    refine ⟨quote, body ++ [quote], n, rfl, ?_⟩
    rw [List.append_assoc]
    rw [List.reverse_nil, List.nil_append, String.ofList_toList] at hn
    rcases hquote with rfl | rfl <;> exact hn
  | @name s hword hnone =>
    obtain ⟨c, ds, hs, hread⟩ := lexeme_word hword hrest offset
    rw [String.ofList_toList, wordKind, hnone] at hread
    exact ⟨c, ds, _, hs, hread⟩
  | keyword k =>
    obtain ⟨c, ds, hs, hread⟩ := lexeme_word (isWord_spelling k) hrest offset
    rw [String.ofList_toList, wordKind, Keyword.ofSpelling?_spelling] at hread
    exact ⟨c, ds, _, hs, hread⟩
  | sign g =>
    rcases spelling_sign g with ⟨c, hspell, hc⟩ | ⟨c, d, g₀, hspell, hc, hd⟩
    · refine ⟨c, [], offset + 1, hspell, ?_⟩
      rw [List.nil_append, lexeme_of_sign hc]
      cases rest with
      | nil => rfl
      | cons e rest =>
        have he : g.extend? e = none := by
          simpa only [Kind.extendedBy, Option.isSome_eq_false_iff, Option.isNone_iff_eq_none]
            using hrest e rfl
        rw [readSign, he]
    · refine ⟨c, [d], offset + 1 + 1, hspell, ?_⟩
      rw [List.cons_append, List.nil_append, lexeme_of_sign hc, readSign, hd]

end

/-- What may stand between two lexemes: blanks, and comments with the ends of their lines. -/
inductive Trivia : List Char → Prop where
  | nil : Trivia []
  | blank {c : Char} {cs : List Char} : Text.isBlank c = true → Trivia cs → Trivia (c :: cs)
  | comment {body cs : List Char} : '\n' ∉ body → Trivia cs → Trivia ('#' :: (body ++ '\n' :: cs))

/-- What may stand behind the last lexeme: trivia, of which the last comment may go on to the end
of the text. -/
inductive FinalTrivia : List Char → Prop where
  | closed {cs : List Char} : Trivia cs → FinalTrivia cs
  | unclosed {cs body : List Char} : Trivia cs → '\n' ∉ body → FinalTrivia (cs ++ '#' :: body)

/-- The text, which stands at `offset`, is made of the lexemes of these tokens, with trivia before
each and behind the last. -/
inductive Tiles : Nat → List Char → List Token → Prop where
  | done {offset : Nat} {cs : List Char} : FinalTrivia cs → Tiles offset cs []
  | next {offset : Nat} {gap l rest : List Char} {k : Kind} {ts : List Token} : Trivia gap →
      k.Written l → k.EndsBefore rest →
      Tiles (offset + byteLength gap + byteLength l) rest ts →
      Tiles offset (gap ++ (l ++ rest)) (⟨k, offset + byteLength gap⟩ :: ts)

/-! ## Blanks and comments end every lexeme -/

section

variable {c : Char}

theorem toNat_of_isBlank (h : Text.isBlank c = true) : c.toNat ≤ 32 ∨ 133 ≤ c.toNat := by
  simp only [Text.isBlank, Bool.or_eq_true, Bool.and_eq_true, decide_eq_true_eq, beq_iff_eq] at h
  omega

theorem not_isNumeric_of_isBlank (h : Text.isBlank c = true) : isNumeric c = false := by
  rw [Bool.eq_false_iff]
  intro hnum
  have hblank := toNat_of_isBlank h
  rcases isNumeric_iff.1 hnum with hdigit | rfl
  · have hrange := toNat_of_isDigit hdigit
    omega
  · cases h

theorem not_isNamePart_of_isBlank (h : Text.isBlank c = true) : isNamePart c = false := by
  rw [Bool.eq_false_iff]
  intro hpart
  have hblank := toNat_of_isBlank h
  rcases Bool.or_eq_true_iff.1 hpart with halphanum | hunder
  · rcases Bool.or_eq_true_iff.1 halphanum with halpha | hdigit
    · have hle := toNat_le_of_isAlpha halpha
      have hge := le_toNat_of_isAlpha halpha
      omega
    · have hrange := toNat_of_isDigit hdigit
      omega
  · cases beq_iff_eq.1 hunder
    cases h

theorem lexeme_blank (h : Text.isBlank c = true) (offset : Nat) (cs : List Char) :
    lexeme offset c cs = .ok ⟨none, offset + c.utf8Size, cs⟩ := by
  have hname : isNameStart c = false := by
    rw [Bool.eq_false_iff]
    intro hstart
    have hpart := isNamePart_of_isNameStart hstart
    rw [not_isNamePart_of_isBlank h] at hpart
    cases hpart
  have hquote : ¬ (c = '"' ∨ c = '\'') := by
    rintro (rfl | rfl) <;> cases h
  have hhash : c ≠ '#' := by
    rintro rfl
    cases h
  rw [lexeme, if_neg (by simp [not_isNumeric_of_isBlank h]), if_neg (by simp [hname]),
    if_neg hquote, if_neg hhash, if_pos h]

theorem lexeme_comment (offset : Nat) (cs : List Char) :
    lexeme offset '#' cs = .ok ⟨none, offset + byteLength (('#' :: cs).takeWhile (· != '\n')),
      ('#' :: cs).dropWhile (· != '\n')⟩ := rfl

end

/-! ## Whole texts -/

section

variable {fuel offset : Nat} {gap l rest cs : List Char} {k : Kind} {read ts : List Token}

theorem scanFrom_nil (fuel offset : Nat) (read : List Token) :
    scanFrom fuel offset [] read = .ok read.reverse := by
  cases fuel <;> rfl

/-- The scan steps over a comment up to the end of its line. -/
theorem scanFrom_comment {body : List Char} (hbody : '\n' ∉ body)
    (hrest : ∀ c ∈ rest.head?, c = '\n') (offset : Nat) (read : List Token) :
    scanFrom (fuel + 1) offset ('#' :: (body ++ rest)) read =
      scanFrom fuel (offset + byteLength ('#' :: body)) rest read := by
  have hline : ∀ c ∈ '#' :: body, (c != '\n') = true := by
    intro c hc
    rcases List.mem_cons.1 hc with rfl | hc
    · rfl
    · exact bne_iff_ne.2 (ne_of_mem_of_not_mem hc hbody)
  have hend : ∀ c ∈ rest.head?, (c != '\n') = false := by
    intro c hc
    rw [hrest c hc]
    rfl
  rw [scanFrom, lexeme_comment, ← List.cons_append, takeWhile_append_of_head hline hend,
    dropWhile_append_of_head hline hend]

/-- The scan steps over trivia. -/
theorem scanFrom_trivia (h : Trivia gap) (hfuel : (gap ++ rest).length ≤ fuel) (offset : Nat)
    (read : List Token) :
    ∃ fuel', rest.length ≤ fuel' ∧
      scanFrom fuel offset (gap ++ rest) read =
        scanFrom fuel' (offset + byteLength gap) rest read := by
  induction h generalizing fuel offset with
  | nil => exact ⟨fuel, hfuel, rfl⟩
  | @blank c cs hc _ ih =>
    rw [List.cons_append, List.length_cons] at hfuel
    obtain ⟨fuel, rfl⟩ : ∃ m, fuel = m + 1 := ⟨fuel - 1, by omega⟩
    obtain ⟨fuel', hfuel', hscan⟩ := ih (Nat.le_of_succ_le_succ hfuel) (offset + c.utf8Size)
    refine ⟨fuel', hfuel', ?_⟩
    rw [List.cons_append, scanFrom, lexeme_blank hc]
    dsimp only
    rw [hscan, Text.byteLength_cons, Nat.add_assoc]
  | @comment body cs hbody _ ih =>
    simp only [List.cons_append, List.append_assoc, List.length_cons, List.length_append] at hfuel
    obtain ⟨fuel, rfl⟩ : ∃ m, fuel = m + 1 + 1 := ⟨fuel - 2, by omega⟩
    have hcs : (cs ++ rest).length ≤ fuel := by
      rw [List.length_append]
      omega
    obtain ⟨fuel', hfuel', hscan⟩ := ih hcs (offset + byteLength ('#' :: body) + 1)
    refine ⟨fuel', hfuel', ?_⟩
    have hend : ∀ c ∈ ('\n' :: (cs ++ rest)).head?, c = '\n' := by simp
    rw [List.cons_append, List.append_assoc, List.cons_append, scanFrom_comment hbody hend,
      scanFrom, lexeme_blank (by decide)]
    dsimp only
    rw [show '\n'.utf8Size = 1 from rfl, hscan]
    congr 1
    simp [Nat.add_assoc, show '\n'.utf8Size = 1 from rfl]

/-- The scan reads a lexeme. -/
theorem scanFrom_written (h : k.Written l) (hrest : k.EndsBefore rest)
    (hfuel : (l ++ rest).length ≤ fuel) (offset : Nat) (read : List Token) :
    ∃ fuel', rest.length ≤ fuel' ∧
      scanFrom fuel offset (l ++ rest) read =
        scanFrom fuel' (offset + byteLength l) rest (⟨k, offset⟩ :: read) := by
  obtain ⟨c, ds, rfl, hlex⟩ := lexeme_of_written h hrest offset
  rw [List.cons_append, List.length_cons, List.length_append] at hfuel
  obtain ⟨fuel, rfl⟩ : ∃ m, fuel = m + 1 := ⟨fuel - 1, by omega⟩
  refine ⟨fuel, by omega, ?_⟩
  rw [List.cons_append, scanFrom, hlex]

/-- A tiled text is read as its tokens. -/
theorem scanFrom_of_tiles (h : Tiles offset cs ts) (hfuel : cs.length ≤ fuel)
    (read : List Token) : scanFrom fuel offset cs read = .ok (read.reverse ++ ts) := by
  induction h generalizing fuel read with
  | @done offset cs hcs =>
    rw [List.append_nil]
    cases hcs with
    | closed hcs =>
      rw [← List.append_nil cs] at hfuel ⊢
      obtain ⟨fuel', -, hscan⟩ := scanFrom_trivia hcs hfuel offset read
      rw [hscan, scanFrom_nil]
    | @unclosed gap body hgap hbody =>
      obtain ⟨fuel', hfuel', hscan⟩ := scanFrom_trivia hgap hfuel offset read
      rw [List.length_cons] at hfuel'
      obtain ⟨fuel', rfl⟩ : ∃ m, fuel' = m + 1 := ⟨fuel' - 1, by omega⟩
      rw [hscan, ← List.append_nil body, scanFrom_comment hbody (by simp), scanFrom_nil]
  | next hgap hl hrest _ ih =>
    obtain ⟨fuel', hfuel', hscan⟩ := scanFrom_trivia hgap hfuel _ read
    obtain ⟨fuel'', hfuel'', hread⟩ := scanFrom_written hl hrest hfuel' _ read
    rw [hscan, hread, ih hfuel'', List.reverse_cons, List.append_assoc]
    rfl

theorem Trivia.append (h : Trivia gap) (h' : Trivia cs) : Trivia (gap ++ cs) := by
  induction h with
  | nil => exact h'
  | blank hc _ ih => exact .blank hc ih
  | @comment body _ hbody _ ih =>
    rw [List.cons_append, List.append_assoc, List.cons_append]
    exact .comment hbody ih

theorem FinalTrivia.prepend (hgap : Trivia gap) (h : FinalTrivia cs) : FinalTrivia (gap ++ cs) := by
  cases h with
  | closed h => exact .closed (hgap.append h)
  | unclosed h hbody =>
    rw [← List.append_assoc]
    exact .unclosed (hgap.append h) hbody

/-- Trivia may stand in front of a tiled text. -/
theorem Tiles.prepend (hgap : Trivia gap) (h : Tiles (offset + byteLength gap) cs ts) :
    Tiles offset (gap ++ cs) ts := by
  generalize hoffset : offset + byteLength gap = here at h
  cases h with
  | done h => exact .done (h.prepend hgap)
  | @next _ gap' l rest k ts hgap' hl hrest h =>
    have hall : here + byteLength gap' = offset + byteLength (gap ++ gap') := by
      rw [Text.byteLength_append]
      omega
    rw [hall] at h ⊢
    rw [← List.append_assoc]
    exact .next (hgap.append hgap') hl hrest h

/-- A text that is read is tiled by the tokens read. -/
theorem tiles_of_scanFrom (hfuel : cs.length ≤ fuel) (h : scanFrom fuel offset cs read = .ok ts) :
    ∃ new, ts = read.reverse ++ new ∧ Tiles offset cs new := by
  -- A comment takes a second step, over the end of its line.
  induction fuel using Nat.strong_induction_on generalizing offset cs read with
  | _ fuel ih =>
  cases cs with
  | nil =>
    cases (scanFrom_nil fuel offset read).symm.trans h
    exact ⟨[], (List.append_nil _).symm, .done (.closed .nil)⟩
  | cons c cs =>
    rw [List.length_cons] at hfuel
    obtain ⟨fuel, rfl⟩ : ∃ m, fuel = m + 1 := ⟨fuel - 1, by omega⟩
    rw [scanFrom] at h
    split at h
    · cases h
    next step hstep =>
    cases piece_of_lexeme hstep with
    | @lexeme k l rest hl hend hcs =>
      obtain ⟨d, ds, rfl, -⟩ := lexeme_of_written hl hend offset
      have hlen := congrArg List.length hcs
      rw [List.cons_append, List.length_cons, List.length_cons, List.length_append] at hlen
      have hrest : rest.length ≤ fuel := by omega
      obtain ⟨new, rfl, hnew⟩ := ih fuel (Nat.lt_succ_self fuel) hrest h
      refine ⟨⟨k, offset⟩ :: new, by simp, ?_⟩
      rw [hcs]
      exact .next .nil hl hend hnew
    | blank hc =>
      obtain ⟨new, rfl, hnew⟩ := ih fuel (Nat.lt_succ_self fuel) (Nat.le_of_succ_le_succ hfuel) h
      exact ⟨new, rfl, Tiles.prepend (.blank hc .nil) hnew⟩
    | @comment body rest hc hbody hrest hcs =>
      subst hc hcs
      cases rest with
      | nil =>
        cases (scanFrom_nil fuel _ read).symm.trans h
        refine ⟨[], (List.append_nil _).symm, .done ?_⟩
        rw [List.append_nil]
        exact .unclosed .nil hbody
      | cons d rest =>
        obtain rfl := hrest d rfl
        rw [List.length_append, List.length_cons] at hfuel
        obtain ⟨fuel, rfl⟩ : ∃ m, fuel = m + 1 := ⟨fuel - 1, by omega⟩
        dsimp only at h
        rw [scanFrom, lexeme_blank (by decide)] at h
        obtain ⟨new, rfl, hnew⟩ := ih fuel (by omega) (by dsimp only; omega) h
        refine ⟨new, rfl, ?_⟩
        rw [List.append_cons, ← List.cons_append]
        refine Tiles.prepend ?_ ?_
        · exact .comment hbody .nil
        · simpa [Nat.add_assoc] using hnew

end

theorem Kind.Written.byteLength_pos {k : Kind} {l : List Char} (h : k.Written l) :
    0 < byteLength l := by
  have hend : k.EndsBefore [] := nofun
  obtain ⟨c, ds, rfl, -⟩ := lexeme_of_written h hend 0
  have hc := c.utf8Size_pos
  rw [Text.byteLength_cons]
  omega

/-- Lexemes are not empty, so tokens stand one behind another. -/
theorem Tiles.increasing {offset : Nat} {cs : List Char} {ts : List Token}
    (h : Tiles offset cs ts) :
    (∀ t ∈ ts, offset ≤ t.offset) ∧ ts.Pairwise (·.offset < ·.offset) := by
  induction h with
  | done _ => exact ⟨by simp, .nil⟩
  | @next offset gap l rest k ts _ hl _ _ ih =>
    have hpos := hl.byteLength_pos
    have hlater (t : Token) (ht : t ∈ ts) : offset + byteLength gap < t.offset := by
      have hle := ih.1 t ht
      omega
    refine ⟨List.forall_mem_cons.2 ⟨Nat.le_add_right .., fun t ht => ?_⟩, .cons hlater ih.2⟩
    have hlt := hlater t ht
    omega

/-- A text is read as these lexemes just if they tile it. -/
theorem lexemes_eq_ok_iff {cs : List Char} {ts : List Token} :
    lexemes cs = .ok ts ↔ Tiles 0 cs ts := by
  constructor
  · intro h
    obtain ⟨new, rfl, hnew⟩ := tiles_of_scanFrom (Nat.le_refl _) h
    exact hnew
  · intro h
    exact scanFrom_of_tiles h (Nat.le_refl _) []

theorem scan_eq_ok_iff_lexemes {source : String} {tokens : List Token} :
    scan source = .ok tokens ↔
      ∃ ts, lexemes source.toList = .ok ts ∧ tokens = wrap source.utf8ByteSize ts := by
  unfold scan
  split
  · next e he => simp [he]
  · next ts hts => simp [hts, eq_comm]

/-- A source text is read just if lexemes tile it. Its tokens are those of the lexemes, in order of
strictly increasing offsets, between an opening brace at the start and a closing brace and `finish`
at the end. -/
theorem scan_eq_ok_iff (source : String) (tokens : List Token) :
    scan source = .ok tokens ↔ ∃ ts,
      tokens = ⟨.sign .openBrace, 0⟩ :: ts ++
        [⟨.sign .closeBrace, source.utf8ByteSize⟩, ⟨.finish, source.utf8ByteSize⟩] ∧
      ts.Pairwise (·.offset < ·.offset) ∧ Tiles 0 source.toList ts := by
  rw [scan_eq_ok_iff_lexemes]
  constructor
  · rintro ⟨ts, hts, rfl⟩
    have htiles := lexemes_eq_ok_iff.1 hts
    exact ⟨ts, rfl, htiles.increasing.2, htiles⟩
  · rintro ⟨ts, rfl, -, htiles⟩
    exact ⟨ts, lexemes_eq_ok_iff.2 htiles, rfl⟩

end ScopeScript.Token
