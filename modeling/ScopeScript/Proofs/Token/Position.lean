import Mathlib
import ScopeScript.Proofs.Token.Roundtrip

/-!
# Where tokens and lexical faults stand

`Text.StandsAt cs o rest`: cut at byte offset `o`, the text `cs` leaves `rest`. Each step of the
lexer keeps this true of the offset and the characters that it goes on with (`proceeds_lexeme`), so
every token stands at its offset (`located_of_scan`) and every lexical fault is reported at a
character of the source (`inside_of_scan`).
-/

namespace ScopeScript

namespace Text

/-- The characters from byte offset `o` on. -/
def StandsAt (cs : List Char) (o : Nat) (rest : List Char) : Prop :=
  ∃ before, cs = before ++ rest ∧ byteLength before = o

variable {cs rest rest' : List Char} {o o' : Nat}

theorem StandsAt.refl (cs : List Char) : StandsAt cs 0 cs := ⟨[], rfl, rfl⟩

theorem StandsAt.trans (h : StandsAt cs o rest) (h' : StandsAt rest o' rest') :
    StandsAt cs (o + o') rest' := by
  obtain ⟨before, rfl, rfl⟩ := h
  obtain ⟨between, rfl, rfl⟩ := h'
  exact ⟨before ++ between, (List.append_assoc ..).symm, byteLength_append ..⟩

theorem standsAt_cons (c : Char) (cs : List Char) : StandsAt (c :: cs) c.utf8Size cs :=
  ⟨[c], rfl, rfl⟩

theorem byteLength_toList (s : String) : byteLength s.toList = s.utf8ByteSize := by
  rw [← String.utf8Len_toList]
  induction s.toList with
  | nil => rfl
  | cons c cs ih => rw [byteLength_cons, String.utf8Len_cons, ih, Nat.add_comm]

/-- A text is cut behind a part of it by the length of that part. -/
theorem splitAtByte_byteLength (before after : List Char) :
    splitAtByte (byteLength before) (before ++ after) = (before, after) := by
  induction before with
  | nil =>
    cases after with
    | nil => rfl
    | cons c after =>
      have hpos := c.utf8Size_pos
      rw [List.nil_append, byteLength_nil, splitAtByte, if_neg (by omega)]
  | cons c before ih =>
    rw [List.cons_append, byteLength_cons, splitAtByte, if_pos (Nat.le_add_right _ _),
      Nat.add_sub_cancel_left, ih]

/-- A text is cut exactly at an offset where something stands. -/
theorem splitAtByte_of_standsAt (h : StandsAt cs o rest) :
    byteLength (splitAtByte o cs).1 = o := by
  obtain ⟨before, rfl, rfl⟩ := h
  rw [splitAtByte_byteLength]

/-- An offset where something stands is a character boundary of the text. -/
theorem isValid_of_standsAt {s : String} (h : StandsAt s.toList o rest) :
    String.Pos.Raw.IsValid s ⟨o⟩ := by
  obtain ⟨before, hs, rfl⟩ := h
  refine String.Pos.Raw.isValid_iff_exists_append.2
    ⟨String.ofList before, String.ofList rest, ?_, ?_⟩
  · rw [← String.ofList_append, ← hs, String.ofList_toList]
  · rw [String.rawEndPos, ← byteLength_toList, String.toList_ofList]

theorem lt_of_standsAt {s : String} {c : Char} (h : StandsAt s.toList o (c :: rest)) :
    o < s.utf8ByteSize := by
  obtain ⟨before, hs, rfl⟩ := h
  have hpos := c.utf8Size_pos
  rw [← byteLength_toList, hs, byteLength_append, byteLength_cons]
  omega

end Text

namespace Token

open Text (byteLength StandsAt)

theorem utf8Size_of_toNat_le {c : Char} (h : c.toNat ≤ 127) : c.utf8Size = 1 := by
  rw [Char.utf8Size_eq_one_iff, UInt32.le_iff_toNat_le]
  exact h

theorem utf8Size_of_isNumeric {c : Char} (h : isNumeric c = true) : c.utf8Size = 1 := by
  rcases Bool.or_eq_true_iff.1 h with hdigit | hpoint
  · have hle := toNat_le_of_isDigit hdigit
    exact utf8Size_of_toNat_le (by omega)
  · rw [beq_iff_eq.1 hpoint]
    decide

theorem toNat_le_of_isAlpha {c : Char} (h : c.isAlpha = true) : c.toNat ≤ 122 := by
  have hcase : (65 ≤ c.toNat ∧ c.toNat ≤ 90) ∨ (97 ≤ c.toNat ∧ c.toNat ≤ 122) := by
    simpa [Char.isAlpha, Char.isUpper, Char.isLower, UInt32.le_iff_toNat_le] using h
  omega

theorem utf8Size_of_isNamePart {c : Char} (h : isNamePart c = true) : c.utf8Size = 1 := by
  rcases Bool.or_eq_true_iff.1 h with halphanum | hunder
  · rcases Bool.or_eq_true_iff.1 halphanum with halpha | hdigit
    · have hle := toNat_le_of_isAlpha halpha
      exact utf8Size_of_toNat_le (by omega)
    · have hle := toNat_le_of_isDigit hdigit
      exact utf8Size_of_toNat_le (by omega)
  · rw [beq_iff_eq.1 hunder]
    decide

theorem utf8Size_of_ofChar? {c : Char} {g : Sign} (h : Sign.ofChar? c = some g) :
    c.utf8Size = 1 := by
  unfold Sign.ofChar? at h
  split at h
  case h_17 => cases h
  all_goals decide

theorem utf8Size_of_extend? {c : Char} {g g' : Sign} (h : g.extend? c = some g') :
    c.utf8Size = 1 := by
  unfold Sign.extend? at h
  split at h
  case h_6 => cases h
  all_goals decide

theorem byteLength_eq_length {cs : List Char} (h : ∀ c ∈ cs, c.utf8Size = 1) :
    byteLength cs = cs.length := by
  induction cs with
  | nil => rfl
  | cons c cs ih =>
    rw [List.forall_mem_cons] at h
    rw [Text.byteLength_cons, h.1, ih h.2, List.length_cons, Nat.add_comm]

/-! ## One step -/

/-- A character of `cs`, which stands at `offset`, is at `o`. -/
def Inside (offset : Nat) (cs : List Char) (o : Nat) : Prop :=
  ∃ n c rest, StandsAt cs n (c :: rest) ∧ o = offset + n

theorem inside_cons (offset : Nat) (c : Char) (cs : List Char) : Inside offset (c :: cs) offset :=
  ⟨0, c, cs, .refl _, rfl⟩

/-- Reading goes on with the characters that stand at the offset it goes on with, or ends with a
fault at a character. -/
inductive Proceeds (offset : Nat) (cs : List Char) : Except LexFault Step → Prop where
  | step (kind : Option Kind) {n : Nat} {rest : List Char} : StandsAt cs n rest →
      Proceeds offset cs (.ok ⟨kind, offset + n, rest⟩)
  | fault {e : LexFault} : Inside offset cs e.offset → Proceeds offset cs (.error e)

/-- Characters of one byte each are passed by counting them. -/
theorem standsAt_dropWhile {p : Char → Bool} (hp : ∀ c, p c = true → c.utf8Size = 1)
    (cs : List Char) : StandsAt cs (cs.takeWhile p).length (cs.dropWhile p) := by
  refine ⟨cs.takeWhile p, List.takeWhile_append_dropWhile.symm, byteLength_eq_length ?_⟩
  exact fun c hc => hp c (List.mem_takeWhile_imp hc)

/-- The character of that number among characters of one byte each. -/
theorem inside_takeWhile {p : Char → Bool} (hp : ∀ c, p c = true → c.utf8Size = 1) {i : Nat}
    {cs : List Char} (hi : i < (cs.takeWhile p).length) (offset : Nat) :
    Inside offset cs (offset + i) := by
  have hsize : ∀ c ∈ (cs.takeWhile p).take i, c.utf8Size = 1 :=
    fun c hc => hp c (List.mem_takeWhile_imp (List.mem_of_mem_take hc))
  refine ⟨i, (cs.takeWhile p)[i], (cs.takeWhile p).drop (i + 1) ++ cs.dropWhile p,
    ⟨(cs.takeWhile p).take i, ?_, ?_⟩, rfl⟩
  · rw [← List.cons_append, ← List.drop_eq_getElem_cons hi, ← List.append_assoc,
      List.take_append_drop, List.takeWhile_append_dropWhile]
  · rw [byteLength_eq_length hsize, List.length_take, Nat.min_eq_left (Nat.le_of_lt hi)]

theorem proceeds_readNumber (offset : Nat) (c : Char) (cs : List Char) :
    Proceeds offset (c :: cs) (readNumber offset (c :: cs)) := by
  unfold readNumber
  dsimp only
  split
  · next hlt =>
    refine .fault ?_
    have h := inside_takeWhile (fun _ => utf8Size_of_isNumeric) hlt offset
    simpa only [Nat.add_assoc] using h
  · split
    · exact .fault (inside_cons offset c cs)
    · exact .step _ (standsAt_dropWhile (fun _ => utf8Size_of_isNumeric) _)

theorem proceeds_readName (offset : Nat) (cs : List Char) :
    Proceeds offset cs (.ok (readName offset cs)) :=
  .step _ (standsAt_dropWhile (fun _ => utf8Size_of_isNamePart) _)

theorem proceeds_readSign {c : Char} (hc : c.utf8Size = 1) (g : Sign) (offset : Nat)
    (cs : List Char) : Proceeds offset (c :: cs) (.ok (readSign g (offset + 1) cs)) := by
  have h : StandsAt (c :: cs) 1 cs := hc ▸ Text.standsAt_cons c cs
  unfold readSign
  split
  · exact .step _ h
  · next d ds =>
    split
    · next hd =>
      have hd := utf8Size_of_extend? hd
      exact .step _ (h.trans (hd ▸ Text.standsAt_cons d ds))
    · exact .step _ h

/-- The backslash that the reader of a text literal is behind, if any, has `P`. -/
inductive TextState.Since (P : Nat → Prop) : TextState → Prop where
  | plain : Since P .plain
  | escape {start : Nat} : P start → Since P (.escape start)
  | code (value : Nat) {start : Nat} : P start → Since P (.code value start)

theorem since_of_settle {P : Nat → Prop} {state : TextState} (h : state.Since P) {read : List Char}
    {e : LexFault} (he : settle state read = .error e) : P e.offset := by
  cases h with
  | plain => cases he
  | escape _ => cases he
  | code value hstart =>
    simp only [settle] at he
    split at he
    · cases he
    · cases he
      exact hstart

theorem proceeds_readText {quote : Char} {offset : Nat} {text : List Char}
    (htext : Inside offset text offset) {cs : List Char} {n : Nat} (hcs : StandsAt text n cs)
    {state : TextState} (hstate : state.Since (Inside offset text)) (read : List Char) :
    Proceeds offset text (readText quote offset state (offset + n) cs read) := by
  induction cs generalizing state n read with
  | nil =>
    rw [readText.eq_def]
    dsimp only
    split
    · next he => exact .fault (since_of_settle hstate he)
    · exact .fault htext
  | cons c cs ih =>
    have hnext : StandsAt text (n + c.utf8Size) cs := hcs.trans (Text.standsAt_cons c cs)
    have hhere : Inside offset text (offset + n) := ⟨n, c, cs, hcs, rfl⟩
    rw [readText.eq_def]
    dsimp only
    rw [Nat.add_assoc]
    split
    · cases hstate with
      | code value hstart => exact ih hnext (.code _ hstart) read
    · cases hstate with
      | escape hstart => exact ih hnext (.code _ hstart) read
    · split
      · exact ih hnext .plain _
      · exact .fault hhere
    · split
      · next he => exact .fault (since_of_settle hstate he)
      · split
        · exact .step _ hnext
        · split
          · exact ih hnext (.escape hhere) _
          · exact ih hnext .plain _

theorem proceeds_lexeme (offset : Nat) (c : Char) (cs : List Char) :
    Proceeds offset (c :: cs) (lexeme offset c cs) := by
  have hhere := inside_cons offset c cs
  unfold lexeme
  split
  · exact proceeds_readNumber offset c cs
  split
  · exact proceeds_readName offset (c :: cs)
  split
  · next hquote =>
    have hc : c.utf8Size = 1 := by
      rcases hquote with rfl | rfl <;> decide
    exact proceeds_readText hhere (hc ▸ Text.standsAt_cons c cs) .plain []
  split
  · exact .step _ ⟨_, List.takeWhile_append_dropWhile.symm, rfl⟩
  split
  · exact .step _ (Text.standsAt_cons c cs)
  split
  · next g hg => exact proceeds_readSign (utf8Size_of_ofChar? hg) g offset cs
  · exact .fault hhere

/-- The keyword is written here, and no longer name. -/
def Spells (cs : List Char) (k : Keyword) : Prop :=
  ∃ after, cs = k.spelling.toList ++ after ∧ ∀ c ∈ after.head?, isNamePart c = false

theorem spells_of_readName {offset : Nat} {cs : List Char} {k : Keyword}
    (h : (readName offset cs).kind = some (.keyword k)) : Spells cs k := by
  have hword : String.ofList (cs.takeWhile isNamePart) = k.spelling := by
    simp only [readName, Option.some.injEq] at h
    split at h
    · next hk =>
      cases h
      have hspell := List.find?_some hk
      exact (beq_iff_eq.1 hspell).symm
    · cases h
  refine ⟨cs.dropWhile isNamePart, ?_, fun c hc => ?_⟩
  · rw [← hword, String.toList_ofList, List.takeWhile_append_dropWhile]
  · have hhead := List.head?_dropWhile_not isNamePart cs
    rwa [Option.mem_def.1 hc] at hhead

theorem spells_of_lexeme {offset : Nat} {c : Char} {cs : List Char} {step : Step} {k : Keyword}
    (h : lexeme offset c cs = .ok step) (hk : step.kind = some (.keyword k)) :
    Spells (c :: cs) k := by
  unfold lexeme at h
  split at h
  · unfold readNumber at h
    dsimp only at h
    split at h
    · cases h
    · split at h <;> cases h
      cases hk
  split at h
  · cases h
    exact spells_of_readName hk
  split at h
  · obtain ⟨s, hs⟩ := kind_of_readText h
    cases hs.symm.trans hk
  split at h
  · cases h
    cases hk
  split at h
  · cases h
    cases hk
  split at h
  · next g _ =>
    cases h
    obtain ⟨g', hg⟩ := kind_of_readSign g (offset + 1) cs
    cases hg.symm.trans hk
  · cases h

/-! ## Whole texts -/

/-- The token stands at its offset; a keyword is written there. -/
def Located (text : List Char) (t : Token) : Prop :=
  ∃ rest, StandsAt text t.offset rest ∧ ∀ k, t.kind = .keyword k → Spells rest k

section

variable {text cs : List Char} {offset : Nat} {read : List Token}

theorem located_of_scanFrom {fuel : Nat} {ts : List Token} (hcs : StandsAt text offset cs)
    (hread : ∀ t ∈ read, Located text t) (h : scanFrom fuel offset cs read = .ok ts) :
    ∀ t ∈ ts, Located text t := by
  induction fuel generalizing offset cs read with
  | zero =>
    cases h
    simpa using hread
  | succ fuel ih =>
    cases cs with
    | nil =>
      cases h
      simpa using hread
    | cons c cs =>
      have hstep := proceeds_lexeme offset c cs
      rw [scanFrom] at h
      generalize hlex : lexeme offset c cs = r at h hstep
      cases hstep with
      | fault _ => cases h
      | step kind hrest =>
        refine ih (hcs.trans hrest) ?_ h
        cases kind with
        | none => exact hread
        | some kind =>
          refine List.forall_mem_cons.2 ⟨⟨c :: cs, hcs, fun k hk => ?_⟩, hread⟩
          exact spells_of_lexeme hlex (congrArg some hk)

theorem inside_of_scanFrom {fuel : Nat} {e : LexFault} (hcs : StandsAt text offset cs)
    (h : scanFrom fuel offset cs read = .error e) :
    ∃ c rest, StandsAt text e.offset (c :: rest) := by
  induction fuel generalizing offset cs read with
  | zero => cases h
  | succ fuel ih =>
    cases cs with
    | nil => cases h
    | cons c cs =>
      have hstep := proceeds_lexeme offset c cs
      rw [scanFrom] at h
      generalize lexeme offset c cs = r at h hstep
      cases hstep with
      | fault hinside =>
        cases h
        obtain ⟨n, d, rest, hn, ho⟩ := hinside
        exact ⟨d, rest, ho ▸ hcs.trans hn⟩
      | step kind hrest => exact ih (hcs.trans hrest) h

end

variable {source : String}

/-- Every token of a source text stands at its offset. -/
theorem located_of_scan {ts : List Token} (h : scan source = .ok ts) :
    ∀ t ∈ ts, Located source.toList t := by
  unfold scan at h
  split at h
  · cases h
  · next ts' hts =>
    cases h
    have hall := located_of_scanFrom (.refl _) (List.forall_mem_nil _) hts
    have hend : StandsAt source.toList source.utf8ByteSize [] :=
      ⟨source.toList, (List.append_nil _).symm, Text.byteLength_toList source⟩
    intro t ht
    simp only [wrap, List.cons_append, List.mem_cons, List.mem_append, List.not_mem_nil,
      or_false] at ht
    rcases ht with rfl | ht | rfl | rfl
    · exact ⟨_, .refl _, nofun⟩
    · exact hall t ht
    · exact ⟨_, hend, nofun⟩
    · exact ⟨_, hend, nofun⟩

/-- A lexical fault is reported at a character of the source text. -/
theorem inside_of_scan {e : LexFault} (h : scan source = .error e) :
    ∃ c rest, StandsAt source.toList e.offset (c :: rest) := by
  unfold scan at h
  split at h
  · next e' he =>
    cases h
    exact inside_of_scanFrom (.refl _) he
  · cases h

end Token

end ScopeScript
