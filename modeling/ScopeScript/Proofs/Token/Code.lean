import Mathlib
import ScopeScript.Proofs.Token.Stretch

/-!
# Decimal codes in texts

What a backslash and digits inside a text literal do. `Arrives` says where the lexer comes to stand;
behind the quote that opens a literal, the reader goes on over whatever stands for something
(`readText_unescapes`), up to the backslash. The value of the digits is held at a limit that no
character reaches (`foldl_extendCode_zero`), so it is the code of a character just if the number
that the digits spell is one (`exists_ofCode?_iff`): however long they are, their value never wraps.
-/

namespace ScopeScript.Token

open Text (byteLength StandsAt)

/-- In the text `cs`, which stands at `offset`, the lexer comes to stand at `rest`, at offset `o`,
after some steps. -/
inductive Arrives : Nat → List Char → Nat → List Char → Prop where
  | here (offset : Nat) (cs : List Char) : Arrives offset cs offset cs
  | step {offset o : Nat} {c : Char} {cs rest : List Char} {step : Step} :
      lexeme offset c cs = .ok step → Arrives step.offset step.rest o rest →
      Arrives offset (c :: cs) o rest

section

variable {offset o : Nat} {cs rest : List Char}

theorem Arrives.standsAt (h : Arrives offset cs o rest) :
    ∃ n, o = offset + n ∧ StandsAt cs n rest := by
  induction h with
  | here offset cs => exact ⟨0, rfl, .refl cs⟩
  | @step offset o c cs rest step hlex _ ih =>
    obtain ⟨ds, rfl, hoffset⟩ := exists_taken hlex
    obtain ⟨n, rfl, hstands⟩ := ih
    refine ⟨byteLength (c :: ds) + n, by rw [hoffset, Nat.add_assoc], ?_⟩
    exact StandsAt.trans ⟨c :: ds, rfl, rfl⟩ hstands

/-- Where the lexer arrives, it goes on with what it has read and with fuel for the rest. -/
theorem Arrives.scanFrom_eq (h : Arrives offset cs o rest) {fuel : Nat} (hfuel : cs.length ≤ fuel)
    (read : List Token) :
    ∃ fuel' read', rest.length ≤ fuel' ∧ scanFrom fuel offset cs read =
      scanFrom fuel' o rest read' := by
  induction h generalizing fuel read with
  | here offset cs => exact ⟨fuel, read, hfuel, rfl⟩
  | @step offset o c cs rest step hlex _ ih =>
    cases fuel with
    | zero => simp at hfuel
    | succ fuel =>
      obtain ⟨ds, hds, -⟩ := exists_taken hlex
      have hle : step.rest.length ≤ fuel := by
        rw [hds, List.length_cons, List.length_append] at hfuel
        omega
      rw [scanFrom]
      simp only [hlex]
      exact ih hle _

end

/-- A code of no character is refused where its backslash stands. -/
theorem readText_badCode {quote : Char} {value start offset o : Nat} {read rest : List Char}
    (h : ofCode? value = none) (hhead : ∀ d ∈ rest.head?, d.isDigit = false) :
    readText quote start (.code value offset) o rest read = .error ⟨.badCode value, offset⟩ := by
  rw [readText.eq_def]
  cases rest with
  | nil => simp only [settle, h]
  | cons c rest => simp only [hhead c rfl, settle, h]

/-- The value of digits, held at the limit, is a code of a character just if the number they spell
is one. -/
theorem exists_ofCode?_iff {ds : List Char} :
    (∃ c, ofCode? (ds.foldl extendCode 0) = some c) ↔ (Decimal.ofDigits ds).isValidChar := by
  simp only [ofCode?_digits]
  constructor
  · rintro ⟨c, hc⟩
    rw [← hc]
    exact c.valid
  · intro h
    exact ⟨Char.ofNatAux _ h, rfl⟩

/-! ## Codes in a source -/

theorem lexeme_quote {quote : Char} (hquote : quote = '"' ∨ quote = '\'') (offset : Nat)
    (cs : List Char) :
    lexeme offset quote cs = readText quote offset .plain (offset + 1) cs [] := by
  rcases hquote with rfl | rfl <;> rfl

/-- Where the lexer stands at a literal, the source is read only if the literal is, and its text is
a token there. -/
theorem Arrives.scan_ok {source : String} {o : Nat} {quote : Char} {cs : List Char}
    {ts : List Token} (h : Arrives 0 source.toList o (quote :: cs)) (hts : scan source = .ok ts) :
    ∃ step, lexeme o quote cs = .ok step ∧ ∀ k, step.kind = some k → ⟨k, o⟩ ∈ ts := by
  obtain ⟨ts, hlexemes, rfl⟩ := scan_eq_ok_iff_lexemes.1 hts
  obtain ⟨fuel, read, hfuel, heq⟩ := h.scanFrom_eq (Nat.le_refl _) []
  rw [lexemes, heq] at hlexemes
  cases fuel with
  | zero => simp at hfuel
  | succ fuel =>
    rw [scanFrom] at hlexemes
    cases hlex : lexeme o quote cs with
    | error e => simp [hlex] at hlexemes
    | ok step =>
      refine ⟨step, rfl, fun k hk => ?_⟩
      obtain ⟨ds, hds, -⟩ := exists_taken hlex
      have hle : step.rest.length ≤ fuel := by
        rw [List.length_cons, hds, List.length_append] at hfuel
        omega
      simp only [hlex, hk] at hlexemes
      obtain ⟨ps, -, rfl⟩ := exists_steps hle hlexemes
      simp [wrap]

theorem Arrives.scan_error {source : String} {o : Nat} {c : Char} {cs : List Char} {e : LexFault}
    (h : Arrives 0 source.toList o (c :: cs)) (he : lexeme o c cs = .error e) :
    scan source = .error e := by
  obtain ⟨fuel, read, hfuel, heq⟩ := h.scanFrom_eq (Nat.le_refl _) []
  cases fuel with
  | zero => simp at hfuel
  | succ fuel =>
    have hlexemes : lexemes source.toList = .error e := by
      rw [lexemes, heq, scanFrom]
      simp only [he]
    simp only [scan, hlexemes]

/-- Decimal codes never wrap. Behind a quote that opens a literal, and what stands for `s`, let a
backslash be followed by digits, as many as there are, and let the number that they spell be
`value`. If it is the code of a character, the reader goes on behind the digits with that character
added to `s`; so a literal that is closed is read with it, and in a source that is accepted it
stands in the text of the token. If not, the source is refused, where the backslash stands. -/
theorem scan_decimalCode {source : String} {offset : Nat} {quote : Char}
    {body s ds rest : List Char} (hquote : quote = '"' ∨ quote = '\'')
    (harrives : Arrives 0 source.toList offset (quote :: (body ++ '\\' :: (ds ++ rest))))
    (hbody : Unescapes quote body s) (hne : ds ≠ []) (hds : ∀ d ∈ ds, d.isDigit = true)
    (hend : ∀ d ∈ rest.head?, d.isDigit = false) :
    let value := Decimal.ofDigits ds
    let slash := offset + 1 + byteLength body
    let isCode := value ≤ 0x10FFFF ∧ ¬ (0xD800 ≤ value ∧ value ≤ 0xDFFF)
    StandsAt source.toList slash ('\\' :: (ds ++ rest)) ∧
      (isCode → ∃ c : Char, c.toNat = value ∧
        lexeme offset quote (body ++ '\\' :: (ds ++ rest)) =
          readText quote offset .plain (slash + 1 + byteLength ds) rest (s ++ [c]).reverse ∧
        (∀ body' s' rest', rest = body' ++ quote :: rest' → Unescapes quote body' s' →
          ∃ n, lexeme offset quote (body ++ '\\' :: (ds ++ rest)) =
            .ok ⟨some (.text (String.ofList (s ++ c :: s'))), n, rest'⟩) ∧
        ∀ ts, scan source = .ok ts → ∃ s', ⟨.text (String.ofList (s ++ c :: s')), offset⟩ ∈ ts) ∧
      (¬ isCode → scan source = .error ⟨.badCode (min value codeLimit), slash⟩) := by
  intro value slash isCode
  have hslash : '\\' ≠ quote := by rcases hquote with rfl | rfl <;> decide
  have hsize : quote.utf8Size = 1 := by rcases hquote with rfl | rfl <;> decide
  have hvalid : isCode ↔ value.isValidChar := by
    simp only [isCode, Nat.isValidChar]
    omega
  -- the reader comes to stand behind the digits, inside their code
  have hread : lexeme offset quote (body ++ '\\' :: (ds ++ rest)) =
      readText quote offset (.code (ds.foldl extendCode 0) slash) (slash + 1 + byteLength ds) rest
        s.reverse := by
    rw [lexeme_quote hquote, readText_unescapes hslash hbody (.plain []) (by simp) (by simp),
      readText_code (.plain _) hslash hne hds, List.append_nil]
  refine ⟨?_, fun hcode => ?_, fun hcode => ?_⟩
  · obtain ⟨n, rfl, hstands⟩ := harrives.standsAt
    have hbehind : StandsAt (quote :: (body ++ '\\' :: (ds ++ rest))) (1 + byteLength body)
        ('\\' :: (ds ++ rest)) := ⟨quote :: body, rfl, by rw [Text.byteLength_cons, hsize]⟩
    have := hstands.trans hbehind
    rwa [← Nat.add_assoc, ← Nat.zero_add n] at this
  · obtain ⟨c, hc⟩ := exists_ofCode?_iff.2 (hvalid.1 hcode)
    have hgoes : lexeme offset quote (body ++ '\\' :: (ds ++ rest)) =
        readText quote offset .plain (slash + 1 + byteLength ds) rest (s ++ [c]).reverse := by
      rw [hread, readText_stands (.code slash _ hc) (fun _ => hend), List.reverse_append]
      rfl
    refine ⟨c, ofCode?_digits.1 hc, hgoes, fun body' s' rest' hrest hs' => ?_, fun ts hts => ?_⟩
    · have hdigit : quote.isDigit = false := by rcases hquote with rfl | rfl <;> decide
      obtain ⟨n, hn⟩ := readText_of_unescapes hdigit hslash hs' (.plain (s ++ [c]).reverse)
        (by simp) offset (slash + 1 + byteLength ds) rest'
      refine ⟨n, ?_⟩
      rw [hgoes, hrest, hn, List.reverse_reverse, List.append_assoc]
      rfl
    · obtain ⟨step, hlex, hmem⟩ := harrives.scan_ok hts
      rw [hgoes] at hlex
      obtain ⟨body', s', -, -, hkind⟩ := readText_sound .plain hlex
      rw [List.reverse_reverse, List.append_assoc] at hkind
      exact ⟨s', hmem _ hkind⟩
  · refine harrives.scan_error ?_
    have hnone : ofCode? (ds.foldl extendCode 0) = none := by
      rw [Option.eq_none_iff_forall_ne_some]
      exact fun c hc => hcode (hvalid.2 (exists_ofCode?_iff.1 ⟨c, hc⟩))
    rw [hread, readText_badCode hnone hend, foldl_extendCode_zero]

/-- A code with zeros in front, behind a tab written by its code; and one that would be 65 with 32
bits. -/
theorem scan_decimalCode_wide :
    let literal := ['é', '\\', '9'] ++ '\\' :: (['0', '0', '2', '3', '3'] ++ ['x', '"'])
    let wide := [] ++ '\\' :: (['4', '2', '9', '4', '9', '6', '7', '3', '6', '1'] ++ ['\''])
    Arrives 0 ";\"é\\9\\00233x\"".toList 1 ('"' :: literal) ∧
      Unescapes '"' ['é', '\\', '9'] ['é', '\t'] ∧
      (∃ n, lexeme 1 '"' literal = .ok ⟨some (.text "é\téx"), n, []⟩) ∧
      Arrives 0 "'\\4294967361'".toList 0 ('\'' :: wide) ∧
      scan "'\\4294967361'" = .error ⟨.badCode codeLimit, 1⟩ := by
  intro literal wide
  have hsource : ";\"é\\9\\00233x\"".toList = ';' :: '"' :: literal := by decide +kernel
  have hsign : lexeme 0 ';' ('"' :: literal) =
      .ok ⟨some (.sign .semicolon), 1, '"' :: literal⟩ := rfl
  have harrives : Arrives 0 ";\"é\\9\\00233x\"".toList 1 ('"' :: literal) := by
    rw [hsource]
    exact .step hsign (.here ..)
  have hnine : Unescapes '"' ('\\' :: (['9'] ++ [])) ['\t'] :=
    .code (by decide) (by simp) (by decide) (by simp) .nil
  have hbody : Unescapes '"' ['é', '\\', '9'] ['é', '\t'] :=
    .plain (by decide) (by decide) hnine
  have hwide : Arrives 0 "'\\4294967361'".toList 0 ('\'' :: wide) := by
    have hlist : "'\\4294967361'".toList = '\'' :: wide := by decide +kernel
    rw [hlist]
    exact .here ..
  have hgood := (scan_decimalCode (.inl rfl) harrives hbody (by simp) (by simp) (by simp)).2.1
  obtain ⟨c, hc, -, hclosed, -⟩ := hgood (by decide)
  obtain rfl : c = 'é' := Char.toNat_inj.1 (by rw [hc]; decide)
  obtain ⟨n, hn⟩ := hclosed ['x'] ['x'] [] rfl (.plain (by decide) (by decide) .nil)
  have hbad := (scan_decimalCode (.inr rfl) hwide .nil (by simp) (by simp) (by simp)).2.2
  exact ⟨harrives, hbody, ⟨n, hn⟩, hwide, hbad (by decide)⟩

end ScopeScript.Token
