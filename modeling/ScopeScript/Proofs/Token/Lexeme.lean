import Mathlib
import ScopeScript.Proofs.Token.Literal

/-!
# Lexemes

`Reads cs k`: the text `cs`, before a blank or the end, is read as one token of kind `k`. Each way
of writing a token has a lemma of this form, and `Kind.reads_source` puts them together.

What the lexer makes (`Kind.Lexable`) is almost what it reads back. The one exception is a number
literal beyond the doubles: its value is infinity, which is written `inf` and read as a name.
`Kind.reread` says what a kind comes back as.
-/

namespace ScopeScript.Token

open Binary64

/-- What may follow a lexeme: nothing, or a blank. -/
def Apart (rest : List Char) : Prop := ∀ c ∈ rest.head?, c = ' '

theorem apart_nil : Apart [] := nofun

theorem apart_cons (cs : List Char) : Apart (' ' :: cs) := by
  intro c hc
  exact (Option.some.inj hc).symm

/-- The text is one lexeme of this kind, whatever follows apart from it. -/
def Reads (cs : List Char) (k : Kind) : Prop :=
  ∃ c ds, cs = c :: ds ∧ ∀ (offset : Nat) (rest : List Char), Apart rest →
    ∃ n, lexeme offset c (ds ++ rest) = .ok ⟨some k, n, rest⟩

section

variable {p : Char → Bool} {cs rest : List Char}

theorem takeWhile_append_of_head (hcs : ∀ c ∈ cs, p c = true)
    (hrest : ∀ c ∈ rest.head?, p c = false) : (cs ++ rest).takeWhile p = cs := by
  rw [List.takeWhile_append_of_pos hcs]
  cases rest with
  | nil => exact List.append_nil cs
  | cons c rest => simp [hrest c rfl]

theorem dropWhile_append_of_head (hcs : ∀ c ∈ cs, p c = true)
    (hrest : ∀ c ∈ rest.head?, p c = false) : (cs ++ rest).dropWhile p = rest := by
  rw [List.dropWhile_append_of_pos hcs]
  cases rest with
  | nil => rfl
  | cons c rest => simp [hrest c rfl]

theorem Apart.head (hp : p ' ' = false) (hrest : Apart rest) : ∀ c ∈ rest.head?, p c = false := by
  intro c hc
  rwa [hrest c hc]

end

/-! ## Numbers -/

theorem isNumeric_of_isDigit {c : Char} (h : c.isDigit = true) : isNumeric c = true := by
  simp [isNumeric, h]

theorem isNumeric_of_positional {cs : List Char} (h : Decimal.Positional cs) :
    ∀ c ∈ cs, isNumeric c = true := by
  cases h with
  | whole _ hds => exact fun c hc => isNumeric_of_isDigit (hds c hc)
  | point _ hds hfs =>
    intro c hc
    rcases List.mem_append.1 hc with hc | hc
    · exact isNumeric_of_isDigit (hds c hc)
    · rcases List.mem_cons.1 hc with rfl | hc
      · rfl
      · exact isNumeric_of_isDigit (hfs c hc)

/-- Positional text has no second point. -/
theorem length_le_of_positional {cs : List Char} (h : Decimal.Positional cs) :
    cs.length ≤ (cs.takeWhile (· != '.')).length + 1 +
      ((cs.drop ((cs.takeWhile (· != '.')).length + 1)).takeWhile (· != '.')).length := by
  cases h with
  | whole _ hds =>
    rw [Decimal.takeWhile_whole hds]
    omega
  | @point ds fs _ hds hfs =>
    have hdrop : (ds ++ '.' :: fs).drop (ds.length + 1) = fs := by
      rw [List.drop_append, List.drop_eq_nil_of_le (by omega), Nat.add_sub_cancel_left]
      rfl
    rw [Decimal.takeWhile_point hds, hdrop, Decimal.takeWhile_whole hfs]
    simp only [List.length_append, List.length_cons]
    omega

theorem reads_number {cs : List Char} {x : Float} (h : Decimal.Positional cs)
    (hx : Decimal.numeral cs = some x) : Reads cs (.number x) := by
  obtain ⟨c, ds, rfl⟩ : ∃ c ds, cs = c :: ds := by
    refine List.exists_cons_of_ne_nil ?_
    cases h with
    | whole hne _ => exact hne
    | point _ _ _ => simp
  have hnumeric := isNumeric_of_positional h
  refine ⟨c, ds, rfl, fun offset rest hrest => ⟨offset + (c :: ds).length, ?_⟩⟩
  rw [lexeme, if_pos (hnumeric c List.mem_cons_self), readNumber, ← List.cons_append,
    takeWhile_append_of_head hnumeric (hrest.head rfl),
    dropWhile_append_of_head hnumeric (hrest.head rfl),
    if_neg (Nat.not_lt.2 (length_le_of_positional h)), hx]

/-! ## Names and keywords -/

def isWord : List Char → Bool
  | [] => false
  | c :: cs => isNameStart c && cs.all isNamePart

theorem isNamePart_of_isNameStart {c : Char} (h : isNameStart c = true) : isNamePart c = true := by
  simp only [isNameStart, isNamePart, Char.isAlphanum, Bool.or_eq_true] at h ⊢
  rcases h with h | h
  · exact .inl (.inl h)
  · exact .inr h

theorem le_toNat_of_isAlpha {c : Char} (h : c.isAlpha = true) : 65 ≤ c.toNat := by
  have hcase : (65 ≤ c.toNat ∧ c.toNat ≤ 90) ∨ (97 ≤ c.toNat ∧ c.toNat ≤ 122) := by
    simpa [Char.isAlpha, Char.isUpper, Char.isLower, UInt32.le_iff_toNat_le] using h
  omega

theorem toNat_of_isDigit {c : Char} (h : c.isDigit = true) : 48 ≤ c.toNat ∧ c.toNat ≤ 57 := by
  simpa [Char.isDigit, UInt32.le_iff_toNat_le] using h

theorem toNat_le_of_isDigit {c : Char} (h : c.isDigit = true) : c.toNat ≤ 57 :=
  (toNat_of_isDigit h).2

theorem not_isNumeric_of_isNameStart {c : Char} (h : isNameStart c = true) :
    isNumeric c = false := by
  rw [Bool.eq_false_iff]
  intro hnum
  have hle : c.toNat ≤ 57 := by
    rcases Bool.or_eq_true_iff.1 hnum with hdigit | hpoint
    · exact toNat_le_of_isDigit hdigit
    · rw [beq_iff_eq.1 hpoint]
      decide
  have hge : 65 ≤ c.toNat := by
    rcases Bool.or_eq_true_iff.1 h with halpha | hunder
    · exact le_toNat_of_isAlpha halpha
    · rw [beq_iff_eq.1 hunder]
      decide
  omega

def wordKind (s : String) : Kind :=
  match Keyword.ofSpelling? s with
  | some k => .keyword k
  | none => .name s

/-- A word is read as far as it goes. -/
theorem lexeme_word {cs rest : List Char} (h : isWord cs = true)
    (hrest : ∀ c ∈ rest.head?, isNamePart c = false) (offset : Nat) :
    ∃ c ds, cs = c :: ds ∧ lexeme offset c (ds ++ rest) =
      .ok ⟨some (wordKind (String.ofList cs)), offset + cs.length, rest⟩ := by
  cases cs with
  | nil => cases h
  | cons c cs =>
    simp only [isWord, Bool.and_eq_true, List.all_eq_true] at h
    have hpart : ∀ d ∈ c :: cs, isNamePart d = true :=
      List.forall_mem_cons.2 ⟨isNamePart_of_isNameStart h.1, h.2⟩
    refine ⟨c, cs, rfl, ?_⟩
    rw [lexeme, if_neg (by simp [not_isNumeric_of_isNameStart h.1]), if_pos h.1, readName,
      ← List.cons_append, takeWhile_append_of_head hpart hrest,
      dropWhile_append_of_head hpart hrest]
    rfl

theorem reads_word {cs : List Char} (h : isWord cs = true) :
    Reads cs (wordKind (String.ofList cs)) := by
  obtain ⟨c, ds, rfl⟩ : ∃ c ds, cs = c :: ds := by
    refine List.exists_cons_of_ne_nil ?_
    rintro rfl
    cases h
  refine ⟨c, ds, rfl, fun offset rest hrest => ?_⟩
  obtain ⟨_, _, hcs, hread⟩ := lexeme_word h (hrest.head rfl) offset
  cases hcs
  exact ⟨_, hread⟩

theorem isWord_spelling (k : Keyword) : isWord k.spelling.toList = true := by
  cases k <;> decide

theorem reads_keyword (k : Keyword) : Reads k.spelling.toList (.keyword k) := by
  have h := reads_word (isWord_spelling k)
  rwa [String.ofList_toList, wordKind, Keyword.ofSpelling?_spelling] at h

theorem lexeme_of_sign {c : Char} {g : Sign} (h : Sign.ofChar? c = some g) (offset : Nat)
    (cs : List Char) : lexeme offset c cs = .ok (readSign g (offset + 1) cs) := by
  unfold Sign.ofChar? at h
  split at h
  case h_17 => cases h
  all_goals
    cases h
    rfl

/-- A sign is spelled by a character that stands for it, or by one that a second turns into it. -/
theorem spelling_sign (g : Sign) :
    (∃ c, g.spelling.toList = [c] ∧ Sign.ofChar? c = some g) ∨
      ∃ c d g₀, g.spelling.toList = [c, d] ∧ Sign.ofChar? c = some g₀ ∧ g₀.extend? d = some g := by
  cases g
  case slashSlash => exact .inr ⟨'/', '/', .slash, rfl, rfl, rfl⟩
  case equalEqual => exact .inr ⟨'=', '=', .equal, rfl, rfl, rfl⟩
  case bangEqual => exact .inr ⟨'!', '=', .bang, rfl, rfl, rfl⟩
  case lessEqual => exact .inr ⟨'<', '=', .less, rfl, rfl, rfl⟩
  case greaterEqual => exact .inr ⟨'>', '=', .greater, rfl, rfl, rfl⟩
  all_goals exact .inl ⟨_, rfl, rfl⟩

theorem extend?_blank (g : Sign) : g.extend? ' ' = none := by cases g <;> rfl

theorem readSign_apart (g : Sign) (offset : Nat) {rest : List Char} (h : Apart rest) :
    readSign g offset rest = ⟨some (.sign g), offset, rest⟩ := by
  cases rest with
  | nil => rfl
  | cons c rest =>
    obtain rfl := h c rfl
    rw [readSign, extend?_blank]

theorem reads_sign (g : Sign) : Reads g.spelling.toList (.sign g) := by
  rcases spelling_sign g with ⟨c, hspell, hc⟩ | ⟨c, d, g₀, hspell, hc, hd⟩
  · refine ⟨c, [], hspell, fun offset rest hrest => ⟨offset + 1, ?_⟩⟩
    rw [List.nil_append, lexeme_of_sign hc, readSign_apart g _ hrest]
  · refine ⟨c, [d], hspell, fun offset rest hrest => ⟨offset + 1 + 1, ?_⟩⟩
    rw [List.cons_append, List.nil_append, lexeme_of_sign hc, readSign, hd]

theorem reads_literal (s : String) : Reads (literal s).toList (.text s) := by
  refine ⟨'"', literalBody false s.toList ++ ['"'], String.toList_ofList, fun offset rest _ => ?_⟩
  obtain ⟨n, hn⟩ := readText_literalBody (.plain []) s.toList rest offset (offset + 1)
  refine ⟨n, ?_⟩
  rw [List.append_assoc]
  rw [List.reverse_nil, List.nil_append, String.ofList_toList] at hn
  exact hn

/-! ## Kinds -/

namespace Kind

/-- What the lexer makes: numbers without a sign, infinity among them, and words that are no
keywords. -/
def Lexable : Kind → Prop
  | .number x => negative x = false ∧ magnitude x ≤ infinity
  | .name s => isWord s.toList = true ∧ Keyword.ofSpelling? s = none
  | .finish => False
  | _ => True

/-- What the source of a kind is read as. -/
def reread : Kind → Kind
  | .number x => if magnitude x = infinity then .name "inf" else .number x
  | k => k

theorem reads_source {k : Kind} (h : k.Lexable) : Reads k.source.toList k.reread := by
  cases k with
  | number x =>
    obtain ⟨hneg, hle⟩ := h
    by_cases hinf : magnitude x = infinity
    · have hsource : (Decimal.plain x).toList = ['i', 'n', 'f'] := by
        unfold Decimal.plain
        dsimp only
        rw [if_neg (by omega), if_pos hinf, hneg, Decimal.toList_signed_false]
      rw [source, reread, if_pos hinf, hsource]
      exact reads_word rfl
    · have hfin : magnitude x < infinity := Nat.lt_of_le_of_ne hle hinf
      rw [reread, if_neg hinf]
      exact reads_number (Decimal.plain_positional hneg hfin) (Decimal.numeral_plain hneg hfin)
  | text s => exact reads_literal s
  | name s =>
    have hword := reads_word h.1
    rwa [String.ofList_toList, wordKind, h.2] at hword
  | keyword k => exact reads_keyword k
  | sign g => exact reads_sign g
  | finish => exact h.elim

end Kind

end ScopeScript.Token
