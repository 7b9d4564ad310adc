import Mathlib
import ScopeScript.Proofs.Token.Lexeme

/-!
# Tokens read back from their source

Sources joined with blanks are read one lexeme at a time (`scanFrom_join`), so kinds that are their
own rereading come back as they were (`scan_sourceOf_of_writable`). The tokens of any source are
lexable (`lexable_of_scan`): writing them and reading the result again changes nothing but infinite
numbers (`scan_sourceOf_of_scan`).
-/

namespace ScopeScript.Token

open Binary64

def sourceOf (ks : List Kind) : String := " ".intercalate (ks.map Kind.source)

theorem toList_sourceOf (ks : List Kind) :
    (sourceOf ks).toList = [' '].intercalate (ks.map fun k => k.source.toList) := by
  rw [sourceOf, String.toList_intercalate, List.map_map]
  rfl

/-- Reading a lexeme is one step of the scan. -/
theorem scanFrom_reads {cs rest : List Char} {k : Kind} (h : Reads cs k) (hrest : Apart rest)
    {fuel : Nat} (hfuel : (cs ++ rest).length ≤ fuel) (offset : Nat) (read : List Token) :
    ∃ fuel' n, rest.length ≤ fuel' ∧
      scanFrom fuel offset (cs ++ rest) read = scanFrom fuel' n rest (⟨k, offset⟩ :: read) := by
  obtain ⟨c, ds, rfl, hlex⟩ := h
  obtain ⟨n, hn⟩ := hlex offset rest hrest
  rw [List.cons_append, List.length_cons, List.length_append] at hfuel
  obtain ⟨fuel, rfl⟩ : ∃ m, fuel = m + 1 := ⟨fuel - 1, by omega⟩
  refine ⟨fuel, n, by omega, ?_⟩
  rw [List.cons_append, scanFrom, hn]

/-- What follows the first of the joined texts, and the step over the blank in front of it. -/
theorem intercalate_cons (cs : List Char) (css : List (List Char)) :
    ∃ rest, [' '].intercalate (cs :: css) = cs ++ rest ∧ Apart rest ∧
      ∀ fuel offset read, rest.length ≤ fuel → ∃ fuel' n, ([' '].intercalate css).length ≤ fuel' ∧
        scanFrom fuel offset rest read = scanFrom fuel' n ([' '].intercalate css) read := by
  cases css with
  | nil =>
    refine ⟨[], ?_, apart_nil, fun fuel offset read h => ⟨fuel, offset, h, rfl⟩⟩
    rw [List.intercalate_singleton, List.append_nil]
  | cons ds css =>
    refine ⟨' ' :: [' '].intercalate (ds :: css), ?_, apart_cons _, fun fuel offset read h => ?_⟩
    · rw [List.intercalate_cons_cons, List.append_assoc]
      rfl
    · rw [List.length_cons] at h
      obtain ⟨fuel, rfl⟩ : ∃ m, fuel = m + 1 := ⟨fuel - 1, by omega⟩
      exact ⟨fuel, offset + 1, by omega, rfl⟩

/-- Texts joined with blanks are read one by one. -/
theorem scanFrom_join (ks : List Kind) (h : ∀ k ∈ ks, Reads k.source.toList k.reread) {fuel : Nat}
    (hfuel : ([' '].intercalate (ks.map fun k => k.source.toList)).length ≤ fuel) (offset : Nat)
    (read : List Token) :
    ∃ ts, scanFrom fuel offset ([' '].intercalate (ks.map fun k => k.source.toList)) read =
        .ok (read.reverse ++ ts) ∧ ts.map (·.kind) = ks.map Kind.reread := by
  induction ks generalizing fuel offset read with
  | nil =>
    refine ⟨[], ?_, rfl⟩
    rw [List.append_nil]
    cases fuel <;> rfl
  | cons k ks ih =>
    obtain ⟨hk, hks⟩ := List.forall_mem_cons.1 h
    obtain ⟨rest, hjoin, hrest, hstep⟩ :=
      intercalate_cons k.source.toList (ks.map fun k => k.source.toList)
    rw [List.map_cons, hjoin] at hfuel ⊢
    obtain ⟨fuel₁, n₁, hle₁, hread₁⟩ := scanFrom_reads hk hrest hfuel offset read
    obtain ⟨fuel₂, n₂, hle₂, hread₂⟩ := hstep fuel₁ n₁ (⟨k.reread, offset⟩ :: read) hle₁
    obtain ⟨ts, hts, hkinds⟩ := ih hks hle₂ n₂ (⟨k.reread, offset⟩ :: read)
    refine ⟨⟨k.reread, offset⟩ :: ts, ?_, ?_⟩
    · rw [hread₁, hread₂, hts, List.reverse_cons, List.append_assoc]
      rfl
    · rw [List.map_cons, List.map_cons, hkinds]

theorem scan_sourceOf {ks : List Kind} (h : ∀ k ∈ ks, k.Lexable) :
    ∃ ts, scan (sourceOf ks) = .ok (wrap (sourceOf ks).utf8ByteSize ts) ∧
      ts.map (·.kind) = ks.map Kind.reread := by
  obtain ⟨ts, hts, hkinds⟩ := scanFrom_join ks (fun k hk => Kind.reads_source (h k hk)) le_rfl 0 []
  refine ⟨ts, ?_, hkinds⟩
  rw [scan, lexemes, toList_sourceOf, hts]
  rfl

/-- One lexeme as a whole source. -/
theorem scan_of_reads {cs : List Char} {k : Kind} (h : Reads cs k) :
    scan (String.ofList cs) = .ok (wrap (String.ofList cs).utf8ByteSize [⟨k, 0⟩]) := by
  obtain ⟨fuel, n, -, hstep⟩ := scanFrom_reads h apart_nil le_rfl 0 []
  rw [List.append_nil] at hstep
  rw [scan, lexemes, String.toList_ofList, hstep]
  cases fuel <;> rfl

/-! ## What the lexer makes -/

theorem lexable_of_numeral {cs : List Char} {x : Float} (h : Decimal.numeral cs = some x) :
    Kind.Lexable (.number x) := by
  unfold Decimal.numeral at h
  dsimp only at h
  split at h
  · cases h
  · obtain rfl := Option.some.inj h
    refine ⟨negative_ofMagnitude (nearest_le _ _), ?_⟩
    rw [Decimal.toFloat, magnitude_ofMagnitude (nearest_le _ _)]
    exact nearest_le _ _

/-- A text literal that is read to its end is a text. -/
theorem kind_of_readText {quote : Char} {start : Nat} {state : TextState} {offset : Nat}
    {cs read : List Char} {step : Step} (h : readText quote start state offset cs read = .ok step) :
    ∃ s, step.kind = some (.text s) := by
  induction cs generalizing state offset read with
  | nil =>
    rw [readText.eq_def] at h
    dsimp only at h
    split at h <;> cases h
  | cons c cs ih =>
    rw [readText.eq_def] at h
    dsimp only at h
    split at h
    · exact ih h
    · exact ih h
    · split at h
      · exact ih h
      · cases h
    · split at h
      · cases h
      · split at h
        · cases h
          exact ⟨_, rfl⟩
        · split at h
          · exact ih h
          · exact ih h

theorem kind_of_readSign (g : Sign) (offset : Nat) (cs : List Char) :
    ∃ g', (readSign g offset cs).kind = some (.sign g') := by
  unfold readSign
  split
  · exact ⟨g, rfl⟩
  · split
    · exact ⟨_, rfl⟩
    · exact ⟨g, rfl⟩

theorem lexable_of_readNumber {offset : Nat} {cs : List Char} {step : Step} {k : Kind}
    (h : readNumber offset cs = .ok step) (hk : step.kind = some k) : k.Lexable := by
  unfold readNumber at h
  dsimp only at h
  split at h
  · cases h
  · split at h
    · cases h
    · next hx =>
      cases h
      cases hk
      exact lexable_of_numeral hx

theorem lexable_of_readName {offset : Nat} {c : Char} {cs : List Char} {k : Kind}
    (hc : isNameStart c = true) (hk : (readName offset (c :: cs)).kind = some k) : k.Lexable := by
  have hword : isWord ((c :: cs).takeWhile isNamePart) = true := by
    rw [List.takeWhile_cons_of_pos (isNamePart_of_isNameStart hc)]
    simp only [isWord, hc, Bool.true_and, List.all_eq_true]
    exact fun d hd => (List.mem_takeWhile_imp hd)
  cases hk
  split
  · trivial
  · next hnone => exact ⟨by rwa [String.toList_ofList], hnone⟩

theorem lexable_of_lexeme {offset : Nat} {c : Char} {cs : List Char} {step : Step} {k : Kind}
    (h : lexeme offset c cs = .ok step) (hk : step.kind = some k) : k.Lexable := by
  unfold lexeme at h
  split at h
  · exact lexable_of_readNumber h hk
  split at h
  · next hname =>
    cases h
    exact lexable_of_readName hname hk
  split at h
  · obtain ⟨s, hs⟩ := kind_of_readText h
    cases hs.symm.trans hk
    trivial
  split at h
  · cases h
    cases hk
  split at h
  · cases h
    cases hk
  split at h
  · next g _ =>
    cases h
    obtain ⟨g', hg⟩ := kind_of_readSign g (offset + 1) cs
    cases hg.symm.trans hk
    trivial
  · cases h

theorem lexable_of_scanFrom {fuel offset : Nat} {cs : List Char} {read ts : List Token}
    (h : scanFrom fuel offset cs read = .ok ts) (hread : ∀ t ∈ read, t.kind.Lexable) :
    ∀ t ∈ ts, t.kind.Lexable := by
  induction fuel generalizing offset cs read with
  | zero =>
    cases h
    simpa using hread
  | succ fuel ih =>
    cases cs with
    | nil =>
      cases h
      simpa using hread
    | cons c cs =>
      rw [scanFrom] at h
      split at h
      · cases h
      · next step hstep =>
        refine ih h ?_
        split
        · next k hk => exact List.forall_mem_cons.2 ⟨lexable_of_lexeme hstep hk, hread⟩
        · exact hread

theorem lexable_of_scan {source : String} {tokens : List Token} (h : scan source = .ok tokens) :
    ∃ ts, tokens = wrap source.utf8ByteSize ts ∧ ∀ t ∈ ts, t.kind.Lexable := by
  unfold scan at h
  split at h
  · cases h
  · next ts hts =>
    cases h
    exact ⟨ts, rfl, lexable_of_scanFrom hts nofun⟩

/-! ## Round trips -/

namespace Kind

/-- The kinds that come back as themselves: finite numbers without a sign, all texts, words that are
no keywords, keywords and signs. -/
def Writable : Kind → Prop
  | .number x => negative x = false ∧ magnitude x < infinity
  | .name s => isWord s.toList = true ∧ Keyword.ofSpelling? s = none
  | .finish => False
  | _ => True

theorem Writable.lexable {k : Kind} (h : k.Writable) : k.Lexable := by
  cases k with
  | number x => exact ⟨h.1, Nat.le_of_lt h.2⟩
  | _ => exact h

theorem reread_eq_iff {k : Kind} (h : k.Lexable) :
    k.reread = k ↔ ∀ x, k = .number x → magnitude x < infinity := by
  cases k with
  | number x =>
    constructor
    · intro heq y hy
      obtain rfl := Kind.number.inj hy
      refine Nat.lt_of_le_of_ne h.2 fun hinf => ?_
      rw [reread, if_pos hinf] at heq
      cases heq
    · intro hfin
      rw [reread, if_neg (Nat.ne_of_lt (hfin x rfl))]
  | _ =>
    refine ⟨fun _ x hx => ?_, fun _ => rfl⟩
    cases hx

theorem Writable.reread_eq {k : Kind} (h : k.Writable) : k.reread = k := by
  refine (reread_eq_iff h.lexable).2 ?_
  rintro x rfl
  exact h.2

end Kind

/-- Writable kinds, written one after the other, are read back: the same kinds with the same values
in the same order. -/
theorem scan_sourceOf_of_writable {ks : List Kind} (h : ∀ k ∈ ks, k.Writable) :
    ∃ ts, scan (sourceOf ks) = .ok (wrap (sourceOf ks).utf8ByteSize ts) ∧
      ts.map (·.kind) = ks := by
  obtain ⟨ts, hscan, hkinds⟩ := scan_sourceOf fun k hk => (h k hk).lexable
  have hself : ks.map Kind.reread = ks.map id := List.map_congr_left fun k hk => (h k hk).reread_eq
  rw [hself, List.map_id] at hkinds
  exact ⟨ts, hscan, hkinds⟩

/-- A digit after a control character, beside each other kind of token. -/
theorem scan_sourceOf_of_writable_mixed :
    let ks : List Kind := [.keyword .let, .name "x_1", .sign .lessEqual, .text "\x017\"",
      .number (ofMagnitude false 1)]
    (∀ k ∈ ks, k.Writable) ∧
      ∃ ts, scan (sourceOf ks) = .ok (wrap (sourceOf ks).utf8ByteSize ts) ∧
        ts.map (·.kind) = ks := by
  intro ks
  have hone : 1 < infinity := by decide +kernel
  have hks : ∀ k ∈ ks, k.Writable := by
    intro k hk
    simp only [ks, List.mem_cons, List.not_mem_nil, or_false] at hk
    rcases hk with rfl | rfl | rfl | rfl | rfl
    · trivial
    · exact ⟨by decide, by decide⟩
    · trivial
    · trivial
    · refine ⟨negative_ofMagnitude (Nat.le_of_lt hone), ?_⟩
      rwa [magnitude_ofMagnitude (Nat.le_of_lt hone)]
  exact ⟨hks, scan_sourceOf_of_writable hks⟩

/-- What was lexed is written and read again. All kinds and values come back exactly if no number
literal was beyond the doubles; an infinite number comes back as the name `inf`. -/
theorem scan_sourceOf_of_scan {source : String} {tokens : List Token}
    (h : scan source = .ok tokens) :
    ∃ ts ts', tokens = wrap source.utf8ByteSize ts ∧
      scan (sourceOf (ts.map (·.kind))) =
        .ok (wrap (sourceOf (ts.map (·.kind))).utf8ByteSize ts') ∧
      ts'.map (·.kind) = ts.map (·.kind.reread) ∧
      (ts'.map (·.kind) = ts.map (·.kind) ↔
        ∀ t ∈ ts, ∀ x, t.kind = .number x → magnitude x < infinity) := by
  obtain ⟨ts, rfl, hlex⟩ := lexable_of_scan h
  obtain ⟨ts', hscan, hkinds⟩ := scan_sourceOf (List.forall_mem_map.2 hlex)
  rw [List.map_map] at hkinds
  refine ⟨ts, ts', rfl, hscan, hkinds, ?_⟩
  rw [hkinds, List.map_inj_left]
  exact forall₂_congr fun t ht => Kind.reread_eq_iff (hlex t ht)

theorem scan_sourceOf_of_scan_small :
    scan "1 a" = .ok (wrap 3 [⟨.number (Decimal.toFloat 1 0), 0⟩, ⟨.name "a", 2⟩]) ∧
      ∃ ts ts', wrap 3 [⟨.number (Decimal.toFloat 1 0), 0⟩, ⟨.name "a", 2⟩] =
          wrap "1 a".utf8ByteSize ts ∧
        scan (sourceOf (ts.map (·.kind))) =
          .ok (wrap (sourceOf (ts.map (·.kind))).utf8ByteSize ts') ∧
        ts'.map (·.kind) = ts.map (·.kind.reread) ∧
        (ts'.map (·.kind) = ts.map (·.kind) ↔
          ∀ t ∈ ts, ∀ x, t.kind = .number x → magnitude x < infinity) := by
  have hscan : scan "1 a" =
      .ok (wrap 3 [⟨.number (Decimal.toFloat 1 0), 0⟩, ⟨.name "a", 2⟩]) := rfl
  exact ⟨hscan, scan_sourceOf_of_scan hscan⟩

/-- Three hundred and nine zeros after a one are beyond the doubles. -/
theorem numeral_overflow : Decimal.numeral ('1' :: List.replicate 309 '0') =
    some (ofMagnitude false infinity) := by
  have hdigits : ∀ c ∈ '1' :: List.replicate 309 '0', c.isDigit = true :=
    Decimal.digits_append_zeros 1 309
  have hvalue : Decimal.ofDigits ('1' :: List.replicate 309 '0') =
      Decimal.ofDigits ['1'] * tenPow 309 := Decimal.ofDigits_append_zeros ['1'] 309
  have hnearest : nearest (Decimal.ofDigits ['1'] * tenPow 309 * unitsPerOne) (tenPow 0) =
      infinity := by decide +kernel
  rw [Decimal.numeral_whole (List.cons_ne_nil _ _) hdigits, hvalue, Decimal.toFloat, hnearest]

/-- A literal beyond the doubles does not come back. -/
theorem scan_sourceOf_ne :
    scan (String.ofList ('1' :: List.replicate 309 '0')) =
        .ok (wrap (String.ofList ('1' :: List.replicate 309 '0')).utf8ByteSize
          [⟨.number (ofMagnitude false infinity), 0⟩]) ∧
      scan (sourceOf [.number (ofMagnitude false infinity)]) =
        .ok (wrap (sourceOf [.number (ofMagnitude false infinity)]).utf8ByteSize
          [⟨.name "inf", 0⟩]) := by
  have hpositional : Decimal.Positional ('1' :: List.replicate 309 '0') :=
    .whole (List.cons_ne_nil _ _) (Decimal.digits_append_zeros 1 309)
  have hlex : Kind.Lexable (.number (ofMagnitude false infinity)) :=
    ⟨negative_ofMagnitude le_rfl, (magnitude_ofMagnitude le_rfl).le⟩
  have hreads := Kind.reads_source hlex
  rw [Kind.reread, if_pos (magnitude_ofMagnitude le_rfl)] at hreads
  refine ⟨scan_of_reads (reads_number hpositional numeral_overflow), ?_⟩
  have hsource : sourceOf [.number (ofMagnitude false infinity)] =
      String.ofList (Kind.source (.number (ofMagnitude false infinity))).toList := by
    rw [String.ofList_toList]
    rfl
  rw [hsource]
  exact scan_of_reads hreads

end ScopeScript.Token
