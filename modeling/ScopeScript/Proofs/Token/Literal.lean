import ScopeScript.Proofs.Number.Numeral
import ScopeScript.Token.Lexer
import ScopeScript.Token.Printer

/-!
# Text literals read back

`readText` reads the inside of a written literal as the text it was written from
(`readText_literalBody`). The writer carries one bit, whether a decimal code stands right before;
the reader is then inside that code and has not added its character yet (`Stands`). A digit at that
point would extend the code, which is why the writer gives it a code of its own.
-/

namespace ScopeScript.Token

theorem ofCode?_toNat (c : Char) : ofCode? c.toNat = some c := by
  have hvalid : c.toNat.isValidChar := c.valid
  rw [ofCode?, dif_pos hvalid]
  rfl

theorem toNat_le_codeLimit (c : Char) : c.toNat ≤ codeLimit := by
  have hvalid : c.toNat.isValidChar := c.valid
  unfold codeLimit
  omega

/-- The limit is not reached on the way to a code below it. -/
theorem foldl_extendCode {ds : List Char} {value : Nat}
    (h : Nat.ofDigitChars 10 ds value ≤ codeLimit) :
    ds.foldl extendCode value = Nat.ofDigitChars 10 ds value := by
  induction ds generalizing value with
  | nil => rfl
  | cons d ds ih =>
    rw [Nat.ofDigitChars_cons] at h ⊢
    have hle : 10 * value + (d.toNat - '0'.toNat) ≤ codeLimit := by
      refine Nat.le_trans ?_ h
      rw [Nat.ofDigitChars_eq_ofDigitChars_zero]
      exact Nat.le_add_right_of_le (Nat.le_mul_of_pos_left _ (Nat.pow_pos (by decide)))
    rw [List.foldl_cons, extendCode, Nat.min_eq_left hle]
    exact ih h

theorem foldl_extendCode_digits (c : Char) :
    (Decimal.digits c.toNat).foldl extendCode 0 = c.toNat := by
  have hvalue : Nat.ofDigitChars 10 (Decimal.digits c.toNat) 0 = c.toNat :=
    Decimal.ofDigits_digits c.toNat
  rw [foldl_extendCode (by rw [hvalue]; exact toNat_le_codeLimit c), hvalue]

/-! ## Steps of the reader -/

/-- Where the reader stands between two characters of a text, and what it has read there: `done`
counts the character of a code that may still go on. -/
inductive Stands : Bool → TextState → List Char → List Char → Prop
  | plain (read : List Char) : Stands false .plain read read
  | code {value : Nat} {c : Char} (start : Nat) (read : List Char) :
      ofCode? value = some c → Stands true (.code value start) read (c :: read)

section

variable {afterCode : Bool} {state : TextState} {read done : List Char} {quote c : Char}
  {cs : List Char} {start offset : Nat}

/-- A character that cannot extend a code settles it. -/
theorem readText_settled (h : Stands afterCode state read done)
    (hc : (afterCode && c.isDigit) = false) :
    readText quote start state offset (c :: cs) read =
      if c = quote then
        .ok ⟨some (.text (String.ofList done.reverse)), offset + c.utf8Size, cs⟩
      else if c = '\\' then readText quote start (.escape offset) (offset + c.utf8Size) cs done
      else readText quote start .plain (offset + c.utf8Size) cs (c :: done) := by
  rw [readText.eq_def]
  cases h with
  | plain => rfl
  | code at_ read hcode =>
    have hdigit : c.isDigit = false := by simpa using hc
    simp only [settle, hdigit, hcode]

theorem readText_plain (h : Stands afterCode state read done)
    (hc : (afterCode && c.isDigit) = false) (hquote : c ≠ quote) (hslash : c ≠ '\\') :
    readText quote start state offset (c :: cs) read =
      readText quote start .plain (offset + c.utf8Size) cs (c :: done) := by
  rw [readText_settled h hc, if_neg hquote, if_neg hslash]

theorem readText_backslash (h : Stands afterCode state read done) (hquote : '\\' ≠ quote) :
    readText quote start state offset ('\\' :: cs) read =
      readText quote start (.escape offset) (offset + 1) cs done := by
  rw [readText_settled h (Bool.and_false _), if_neg hquote, if_pos rfl]
  rfl

/-- A backslash and a letter or sign. -/
theorem readText_named {d : Char} (h : Stands afterCode state read done) (hquote : '\\' ≠ quote)
    (hc : c.isDigit = false) (hd : namedEscape? c = some d) :
    readText quote start state offset ('\\' :: c :: cs) read =
      readText quote start .plain (offset + 1 + c.utf8Size) cs (d :: done) := by
  rw [readText_backslash h hquote, readText.eq_def]
  simp only [hc, hd]

/-- The reader follows a code over all its digits. -/
theorem readText_digits {ds : List Char} (hds : ∀ d ∈ ds, d.isDigit = true)
    (value at_ offset : Nat) :
    readText quote start (.code value at_) offset (ds ++ cs) read =
      readText quote start (.code (ds.foldl extendCode value) at_) (offset + Text.byteLength ds) cs
        read := by
  induction ds generalizing value offset with
  | nil => rfl
  | cons d ds ih =>
    have hd : d.isDigit = true := hds d List.mem_cons_self
    rw [List.cons_append, List.foldl_cons, Text.byteLength_cons, ← Nat.add_assoc,
      ← ih (fun e he => hds e (List.mem_cons_of_mem d he)), readText.eq_def]
    simp only [hd]

/-- A backslash and digits put the reader into a code. -/
theorem readText_code {ds : List Char} (h : Stands afterCode state read done)
    (hquote : '\\' ≠ quote) (hne : ds ≠ []) (hds : ∀ d ∈ ds, d.isDigit = true) (offset : Nat)
    (cs : List Char) :
    readText quote start state offset ('\\' :: (ds ++ cs)) read =
      readText quote start (.code (ds.foldl extendCode 0) offset)
        (offset + 1 + Text.byteLength ds) cs done := by
  obtain ⟨d, ds, rfl⟩ := List.exists_cons_of_ne_nil hne
  have hd : d.isDigit = true := hds d List.mem_cons_self
  rw [List.foldl_cons, Text.byteLength_cons, ← Nat.add_assoc,
    ← readText_digits fun e he => hds e (List.mem_cons_of_mem d he), List.cons_append,
    readText_backslash h hquote, readText.eq_def]
  simp only [hd]

/-- A character written by its code is pending after the last digit. -/
theorem readText_decimalEscape (h : Stands afterCode state read done) (hquote : '\\' ≠ quote)
    (c : Char) :
    ∃ state' n, Stands true state' done (c :: done) ∧
      readText quote start state offset (decimalEscape c ++ cs) read =
        readText quote start state' n cs done := by
  have hdigits : ∀ d ∈ Decimal.digits c.toNat, d.isDigit = true :=
    fun d hd => Decimal.isDigit_of_mem_digits hd
  have hcode : Stands true (.code ((Decimal.digits c.toNat).foldl extendCode 0) offset) done
      (c :: done) := by
    rw [foldl_extendCode_digits]
    exact .code offset done (ofCode?_toNat c)
  exact ⟨_, _, hcode,
    readText_code h hquote (Decimal.digits_ne_nil c.toNat) hdigits offset cs⟩

end

/-- The inside of a literal up to its closing quote reads as the text. The induction is on the text;
what stands before it is in the state of the reader. -/
theorem readText_literalBody {afterCode : Bool} {state : TextState} {read done : List Char}
    (h : Stands afterCode state read done) (cs rest : List Char) (start offset : Nat) :
    ∃ n, readText '"' start state offset (literalBody afterCode cs ++ '"' :: rest) read =
      .ok ⟨some (.text (String.ofList (done.reverse ++ cs))), n, rest⟩ := by
  induction cs generalizing afterCode state read done offset with
  | nil =>
    refine ⟨offset + '"'.utf8Size, ?_⟩
    rw [literalBody, List.nil_append, readText_settled h (Bool.and_false _), if_pos rfl,
      List.append_nil]
  | cons c cs ih =>
    have hquote : '\\' ≠ '"' := by decide
    have hplain (n : Nat) :
        ∃ m, readText '"' start .plain n (literalBody false cs ++ '"' :: rest) (c :: done) =
          .ok ⟨some (.text (String.ofList (done.reverse ++ c :: cs))), m, rest⟩ := by
      have := ih (.plain (c :: done)) n
      rwa [List.reverse_cons, List.append_assoc] at this
    have hnamed (e : Char) (he : e.isDigit = false) (hc : namedEscape? e = some c) :
        ∃ m, readText '"' start state offset
            ('\\' :: e :: literalBody false cs ++ '"' :: rest) read =
          .ok ⟨some (.text (String.ofList (done.reverse ++ c :: cs))), m, rest⟩ := by
      rw [List.cons_append, List.cons_append, readText_named h hquote he hc]
      exact hplain _
    unfold literalBody
    split
    · exact hnamed 'n' (by decide) rfl
    · exact hnamed 't' (by decide) rfl
    · exact hnamed '\\' (by decide) rfl
    · exact hnamed '"' (by decide) rfl
    · next hslash hdouble =>
      split
      · obtain ⟨state', n, hstands, hread⟩ := readText_decimalEscape h hquote c
        rw [List.append_assoc, hread]
        -- the character is pending here and not yet read, which is what the flag stands for
        have := ih hstands n
        rwa [List.reverse_cons, List.append_assoc] at this
      · next hcode =>
        have hc : (afterCode && c.isDigit) = false :=
          Bool.eq_false_iff.2 fun hand => hcode (by rw [hand, Bool.or_true])
        rw [List.cons_append, readText_plain h hc hdouble hslash]
        exact hplain _

end ScopeScript.Token
