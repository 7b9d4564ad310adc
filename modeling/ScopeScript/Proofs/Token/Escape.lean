import ScopeScript.Proofs.Token.Literal

/-!
# What a text literal stands for

`Unescapes quote body s`: between two quotes, the characters `body` stand for the text `s`. It says
nothing of how a literal is read: a backslash goes with the name or with all the digits behind it,
and every other character but the quote stands for itself. The reader finds exactly these literals
(`readText_sound`, `readText_of_unescapes`). Its decimal codes stop growing at a limit that no
character reaches (`foldl_extendCode_min`), so a code that is accepted is the number its digits
spell.
-/

namespace ScopeScript.Token

/-- The characters that have a meaning of their own after a backslash. -/
def escapes : List (Char × Char) :=
  [('n', '\n'), ('t', '\t'), ('\\', '\\'), ('"', '"'), ('\'', '\'')]

/-- What the inside of a literal stands for. A decimal code takes all the digits there are. -/
inductive Unescapes (quote : Char) : List Char → List Char → Prop where
  | nil : Unescapes quote [] []
  | plain {c : Char} {body s : List Char} : c ≠ quote → c ≠ '\\' → Unescapes quote body s →
      Unescapes quote (c :: body) (c :: s)
  | named {e c : Char} {body s : List Char} : (e, c) ∈ escapes → Unescapes quote body s →
      Unescapes quote ('\\' :: e :: body) (c :: s)
  | code {ds body s : List Char} {c : Char} : ds ≠ [] → (∀ d ∈ ds, d.isDigit = true) →
      c.toNat = Decimal.ofDigits ds → (∀ d ∈ body.head?, d.isDigit = false) →
      Unescapes quote body s → Unescapes quote ('\\' :: (ds ++ body)) (c :: s)

theorem namedEscape?_eq_some_iff {e c : Char} : namedEscape? e = some c ↔ (e, c) ∈ escapes := by
  constructor
  · intro h
    unfold namedEscape? at h
    split at h <;> cases h <;> decide
  · intro h
    simp only [escapes, List.mem_cons, Prod.mk.injEq, List.not_mem_nil, or_false] at h
    rcases h with ⟨rfl, rfl⟩ | ⟨rfl, rfl⟩ | ⟨rfl, rfl⟩ | ⟨rfl, rfl⟩ | ⟨rfl, rfl⟩ <;> rfl

theorem not_isDigit_of_mem_escapes {e c : Char} (h : (e, c) ∈ escapes) : e.isDigit = false := by
  simp only [escapes, List.mem_cons, Prod.mk.injEq, List.not_mem_nil, or_false] at h
  rcases h with ⟨rfl, -⟩ | ⟨rfl, -⟩ | ⟨rfl, -⟩ | ⟨rfl, -⟩ | ⟨rfl, -⟩ <;> decide

/-- A code that grows digit by digit is the number of its digits, held at the limit. -/
theorem foldl_extendCode_min (ds : List Char) (value : Nat) :
    ds.foldl extendCode (min value codeLimit) =
      min (Nat.ofDigitChars 10 ds value) codeLimit := by
  induction ds generalizing value with
  | nil => rfl
  | cons d ds ih =>
    have hstep : extendCode (min value codeLimit) d =
        min (10 * value + (d.toNat - '0'.toNat)) codeLimit := by
      unfold extendCode
      omega
    rw [List.foldl_cons, hstep, ih, Nat.ofDigitChars_cons]

theorem foldl_extendCode_zero (ds : List Char) :
    ds.foldl extendCode 0 = min (Decimal.ofDigits ds) codeLimit := foldl_extendCode_min ds 0

/-- A code below the limit is accepted just if it is that of a character. -/
theorem ofCode?_eq_some_iff {code : Nat} {c : Char} : ofCode? code = some c ↔ c.toNat = code := by
  constructor
  · intro h
    unfold ofCode? at h
    split at h
    · obtain rfl := Option.some.inj h
      rfl
    · cases h
  · rintro rfl
    exact ofCode?_toNat c

theorem ofCode?_digits {ds : List Char} {c : Char} :
    ofCode? (ds.foldl extendCode 0) = some c ↔ c.toNat = Decimal.ofDigits ds := by
  have hvalid : c.toNat.isValidChar := c.valid
  have hlimit : codeLimit = 0xFFFFFFFF := rfl
  rw [ofCode?_eq_some_iff, foldl_extendCode_zero]
  omega

/-! ## What the reader takes -/

/-- The characters that a reader in this state has passed and not yet added to its text. -/
inductive Pending : TextState → List Char → Prop where
  | plain : Pending .plain []
  | escape (start : Nat) : Pending (.escape start) ['\\']
  | code {ds : List Char} (start : Nat) : ds ≠ [] → (∀ d ∈ ds, d.isDigit = true) →
      Pending (.code (ds.foldl extendCode 0) start) ('\\' :: ds)

theorem Pending.extend {value start : Nat} {passed : List Char} {d : Char}
    (h : Pending (.code value start) passed) (hd : d.isDigit = true) :
    Pending (.code (extendCode value d) start) (passed ++ [d]) := by
  cases h with
  | @code ds _ hne hds =>
    have hcode : (ds ++ [d]).foldl extendCode 0 = extendCode (ds.foldl extendCode 0) d := by
      rw [List.foldl_append]
      rfl
    rw [← hcode]
    refine .code start (by simp) fun e he => ?_
    rcases List.mem_append.1 he with he | he
    · exact hds e he
    · rwa [List.mem_singleton.1 he]

section

variable {quote : Char} {state : TextState} {afterCode : Bool} {read done passed body s : List Char}

/-- Where a code is settled, its character goes before what the rest of the literal stands for. -/
theorem Stands.unescapes (h : Stands afterCode state read done) (hp : Pending state passed)
    (hhead : afterCode = true → ∀ d ∈ body.head?, d.isDigit = false)
    (hbody : Unescapes quote body s) :
    ∃ t, done.reverse = read.reverse ++ t ∧ Unescapes quote (passed ++ body) (t ++ s) := by
  cases h with
  | plain read =>
    cases hp with
    | plain => exact ⟨[], (List.append_nil _).symm, hbody⟩
  | @code value c start read hcode =>
    cases hp with
    | @code ds _ hne hds =>
      refine ⟨[c], List.reverse_cons, ?_⟩
      exact .code hne hds (ofCode?_digits.1 hcode) (hhead rfl) hbody

/-- A reader that is not behind a lone backslash settles what is pending, or stops. -/
theorem exists_stands {c : Char} {start offset : Nat} {cs : List Char} {step : Step}
    (hstate : ∀ at_, state ≠ .escape at_) (hdigit : ∀ value at_, state = .code value at_ →
      c.isDigit = false)
    (h : readText quote start state offset (c :: cs) read = .ok step) :
    ∃ afterCode done, Stands afterCode state read done ∧ (afterCode && c.isDigit) = false := by
  cases state with
  | plain => exact ⟨false, read, .plain read, rfl⟩
  | escape at_ => exact absurd rfl (hstate at_)
  | code value at_ =>
    have hd := hdigit value at_ rfl
    cases hcode : ofCode? value with
    | some d => exact ⟨true, d :: read, .code at_ read hcode, by rw [hd]; rfl⟩
    | none =>
      rw [readText.eq_def] at h
      simp only [hd, settle, hcode] at h
      cases h

end

/-- A literal that is read to its end goes up to the first bare quote, and its text is what stands
before that. The induction is on the characters; what is pending belongs to the literal too. -/
theorem readText_sound {quote : Char} {start offset : Nat} {state : TextState}
    {cs read passed : List Char} {step : Step} (hp : Pending state passed)
    (h : readText quote start state offset cs read = .ok step) :
    ∃ body s, cs = body ++ quote :: step.rest ∧ Unescapes quote (passed ++ body) s ∧
      step.kind = some (.text (String.ofList (read.reverse ++ s))) := by
  induction cs generalizing state offset read passed with
  | nil =>
    rw [readText.eq_def] at h
    dsimp only at h
    split at h <;> cases h
  | cons c cs ih =>
    by_cases hcode : (∃ value at_, state = .code value at_) ∧ c.isDigit = true
    · -- one more digit of a code
      obtain ⟨⟨value, at_, rfl⟩, hd⟩ := hcode
      rw [readText.eq_def] at h
      simp only [hd] at h
      obtain ⟨body, s, rfl, hs, hkind⟩ := ih (hp.extend hd) h
      exact ⟨c :: body, s, rfl, by rwa [List.append_assoc] at hs, hkind⟩
    by_cases hesc : ∃ at_, state = .escape at_
    · obtain ⟨at_, rfl⟩ := hesc
      cases hp
      rw [readText.eq_def] at h
      cases hd : c.isDigit with
      | true =>
        simp only [hd] at h
        have hfirst : Pending (.code ([c].foldl extendCode 0) at_) ['\\', c] :=
          .code at_ (by simp) (by simpa using hd)
        obtain ⟨body, s, rfl, hs, hkind⟩ := ih hfirst h
        exact ⟨c :: body, s, rfl, hs, hkind⟩
      | false =>
        simp only [hd] at h
        split at h
        · next d hname =>
          obtain ⟨body, s, rfl, hs, hkind⟩ := ih .plain h
          refine ⟨c :: body, d :: s, rfl, .named (namedEscape?_eq_some_iff.1 hname) hs, ?_⟩
          rwa [List.reverse_cons, List.append_assoc] at hkind
        · cases h
    · -- the character ends a code that is pending, and is then looked at on its own
      obtain ⟨afterCode, done, hstands, hc⟩ : ∃ afterCode done, Stands afterCode state read done ∧
          (afterCode && c.isDigit) = false := by
        refine exists_stands (fun at_ e => hesc ⟨at_, e⟩) (fun value at_ e => ?_) h
        exact Bool.eq_false_iff.2 fun hd => hcode ⟨⟨value, at_, e⟩, hd⟩
      have hhead (r : List Char) (e : afterCode = true) : ∀ d ∈ (c :: r).head?,
          d.isDigit = false := by
        intro d hd
        rw [← Option.some.inj hd]
        rwa [e, Bool.true_and] at hc
      rw [readText_settled hstands hc] at h
      split at h
      · next hq =>
        subst hq
        cases h
        have hnil : Unescapes c [] [] := .nil
        obtain ⟨t, hdone, ht⟩ := hstands.unescapes hp (by simp) hnil
        refine ⟨[], t, rfl, ?_, ?_⟩
        · rwa [List.append_nil t] at ht
        · rw [hdone]
      · next hq =>
        split at h
        · next hslash =>
          subst hslash
          obtain ⟨body, s, rfl, hs, hkind⟩ := ih (.escape offset) h
          obtain ⟨t, hdone, ht⟩ := hstands.unescapes hp (hhead body) hs
          refine ⟨'\\' :: body, t ++ s, rfl, ht, ?_⟩
          rwa [← List.append_assoc, ← hdone]
        · next hslash =>
          obtain ⟨body, s, rfl, hs, hkind⟩ := ih .plain h
          obtain ⟨t, hdone, ht⟩ := hstands.unescapes hp (hhead body) (.plain hq hslash hs)
          refine ⟨c :: body, t ++ c :: s, rfl, ht, ?_⟩
          rw [hkind, List.reverse_cons, hdone]
          simp

/-! ## What the reader finds -/

section

variable {quote : Char} {state : TextState} {afterCode : Bool} {read done body s : List Char}

/-- What is pending is settled before anything but a digit. -/
theorem readText_stands (h : Stands afterCode state read done) {rest : List Char}
    (hhead : afterCode = true → ∀ d ∈ rest.head?, d.isDigit = false) (start offset : Nat) :
    readText quote start state offset rest read = readText quote start .plain offset rest done := by
  cases rest with
  | nil =>
    rw [readText.eq_def, readText.eq_def]
    cases h with
    | plain => rfl
    | code _ _ hcode => simp only [settle, hcode]
  | cons c rest =>
    have hdigit : (afterCode && c.isDigit) = false := by
      cases afterCode with
      | false => rfl
      | true => exact hhead rfl c rfl
    rw [readText_settled h hdigit, readText_settled (.plain done) rfl]

/-- The reader goes over what stands for `s`, in front of anything but a digit. -/
theorem readText_unescapes (hslash : '\\' ≠ quote) (hbody : Unescapes quote body s)
    (h : Stands afterCode state read done)
    (hhead : afterCode = true → ∀ d ∈ body.head?, d.isDigit = false) {rest : List Char}
    (hrest : ∀ d ∈ rest.head?, d.isDigit = false) (start offset : Nat) :
    readText quote start state offset (body ++ rest) read =
      readText quote start .plain (offset + Text.byteLength body) rest (s.reverse ++ done) := by
  induction hbody generalizing afterCode state read done offset with
  | nil => exact readText_stands h (fun _ => hrest) start offset
  | @plain c body s hc hbackslash _ ih =>
    have hdigit : (afterCode && c.isDigit) = false := by
      cases afterCode with
      | false => rfl
      | true => exact hhead rfl c rfl
    rw [List.cons_append, readText_plain h hdigit hc hbackslash, ih (.plain (c :: done)) (by simp),
      Text.byteLength_cons, ← Nat.add_assoc, List.reverse_cons, List.append_assoc]
    rfl
  | @named e c body s hname _ ih =>
    rw [List.cons_append, List.cons_append, readText_named h hslash
      (not_isDigit_of_mem_escapes hname) (namedEscape?_eq_some_iff.2 hname),
      ih (.plain (c :: done)) (by simp), Text.byteLength_cons, Text.byteLength_cons,
      ← Nat.add_assoc, ← Nat.add_assoc, List.reverse_cons, List.append_assoc]
    rfl
  | @code ds body s c hne hds hc hend _ ih =>
    have hpending : Stands true (.code (ds.foldl extendCode 0) offset) done (c :: done) :=
      .code offset done (ofCode?_digits.2 hc)
    rw [List.cons_append, List.append_assoc, readText_code h hslash hne hds,
      ih hpending (fun _ => hend), Text.byteLength_cons, Text.byteLength_append, ← Nat.add_assoc,
      ← Nat.add_assoc, List.reverse_cons, List.append_assoc]
    rfl

end

/-- What stands between two quotes is read as the text it stands for. -/
theorem readText_of_unescapes {quote : Char} (hquote : quote.isDigit = false)
    (hslash : '\\' ≠ quote) {body s : List Char} (hbody : Unescapes quote body s)
    {afterCode : Bool} {state : TextState} {read done : List Char}
    (h : Stands afterCode state read done)
    (hhead : afterCode = true → ∀ d ∈ body.head?, d.isDigit = false) (start offset : Nat)
    (rest : List Char) :
    ∃ n, readText quote start state offset (body ++ quote :: rest) read =
      .ok ⟨some (.text (String.ofList (done.reverse ++ s))), n, rest⟩ := by
  refine ⟨offset + Text.byteLength body + quote.utf8Size, ?_⟩
  rw [readText_unescapes hslash hbody h hhead (by simpa using hquote),
    readText_settled (.plain _) rfl, if_pos rfl, List.reverse_append, List.reverse_reverse]

end ScopeScript.Token
