import Mathlib
import ScopeScript.Proofs.Number.Shortest

/-!
# Numerals

Positional text is a run of digits with at most one point after the first of them
(`Decimal.Positional`). `Decimal.text` writes positional text, and reading it gives the double
nearest to the decimal (`numeral_text`). A finite double without a sign is written by a decimal that
rounds to it, so `plain` writes it in positional text that reads back as that double
(`plain_positional`, `numeral_plain`).
-/

namespace ScopeScript

namespace Binary64

theorem infinity_lt : infinity < twoPow 63 := by decide +kernel

/-- The patterns above infinity stand for one value; the others are kept. -/
theorem toBits_ofBits {b : UInt64} (h : b.toNat ≤ infinity) : (Float.ofBits b).toBits = b := by
  rw [infinity_eq] at h
  have hvalid : Float.Model.Format.binary64.Valid b.toBitVec := by
    refine ⟨fun hexponent hfraction => absurd ?_ hfraction⟩
    have htop : b.toNat / 2 ^ 52 % 2048 = 2047 := by
      simpa [Float.Model.UnpackedFloat.unpackExponent, Float.Model.Format.binary64,
        Nat.shiftRight_eq_div_pow] using congrArg BitVec.toNat hexponent
    have hlow : b.toNat % 2 ^ 52 = 0 := by omega
    refine BitVec.eq_of_toNat_eq ?_
    simpa [Float.Model.UnpackedFloat.unpackMantissa, Float.Model.Format.binary64] using hlow
  show UInt64.ofBitVec _ = b
  rw [Float.Model.UnpackedFloat.pack_unpack_of_valid hvalid]

theorem toNat_toBits_ofMagnitude {p : Nat} (h : p ≤ infinity) :
    (ofMagnitude false p).toBits.toNat = p := by
  have hp : (UInt64.ofNat p).toNat = p := by
    rw [infinity_eq] at h
    rw [UInt64.toNat_ofNat']
    omega
  have hbits : ofMagnitude false p = Float.ofBits (UInt64.ofNat p) := rfl
  rw [hbits, toBits_ofBits (by rwa [hp]), hp]

theorem magnitude_ofMagnitude {p : Nat} (h : p ≤ infinity) :
    magnitude (ofMagnitude false p) = p := by
  rw [magnitude, toNat_toBits_ofMagnitude h]
  exact Nat.mod_eq_of_lt (Nat.lt_of_le_of_lt h infinity_lt)

theorem negative_ofMagnitude {p : Nat} (h : p ≤ infinity) :
    negative (ofMagnitude false p) = false := by
  rw [negative, toNat_toBits_ofMagnitude h]
  exact decide_eq_false (Nat.not_le.2 (Nat.lt_of_le_of_lt h infinity_lt))

/-- A double without a sign is its magnitude. -/
theorem ofMagnitude_magnitude {x : Float} (h : negative x = false) :
    ofMagnitude false (magnitude x) = x := by
  have hlt : x.toBits.toNat < twoPow 63 := by simpa [negative] using h
  have hmagnitude : magnitude x = x.toBits.toNat := Nat.mod_eq_of_lt hlt
  rw [ofMagnitude, hmagnitude]
  simp

end Binary64

namespace Decimal

open Binary64

theorem isDigit_of_mem_digits {n : Nat} {c : Char} (h : c ∈ digits n) : c.isDigit = true :=
  Nat.isDigit_of_mem_toDigits (by decide) (by decide) h

theorem digits_ne_nil (n : Nat) : digits n ≠ [] := Nat.toDigits_ne_nil

theorem ofDigits_digits (n : Nat) : ofDigits (digits n) = n := Nat.ofDigitChars_ten_toDigits

/-- Zeros at the end are factors of ten. -/
theorem ofDigits_append_zeros (cs : List Char) (n : Nat) :
    ofDigits (cs ++ List.replicate n '0') = ofDigits cs * tenPow n := by
  have h := Nat.ofDigitChars_append (b := 10) (l := cs) (m := List.replicate n '0') 0
  rw [Nat.ofDigitChars_replicate_zero, Nat.mul_comm] at h
  exact h

/-- Zeros in front count for nothing. -/
theorem ofDigits_zeros_append (cs : List Char) (n : Nat) :
    ofDigits (List.replicate n '0' ++ cs) = ofDigits cs := by
  have h := Nat.ofDigitChars_append (b := 10) (l := List.replicate n '0') (m := cs) 0
  rw [Nat.ofDigitChars_replicate_zero, Nat.mul_zero] at h
  exact h

theorem ne_point_of_isDigit {c : Char} (h : c.isDigit = true) : (c != '.') = true := by
  rw [bne_iff_ne]
  rintro rfl
  exact absurd h (by decide)

/-! ## Positional text -/

/-- Digits, and after at least one of them at most one point. -/
inductive Positional : List Char → Prop
  | whole {ds : List Char} : ds ≠ [] → (∀ c ∈ ds, c.isDigit = true) → Positional ds
  | point {ds fs : List Char} : ds ≠ [] → (∀ c ∈ ds, c.isDigit = true) →
      (∀ c ∈ fs, c.isDigit = true) → Positional (ds ++ '.' :: fs)

section

variable {ds fs : List Char}

theorem takeWhile_whole (hds : ∀ c ∈ ds, c.isDigit = true) : ds.takeWhile (· != '.') = ds :=
  List.takeWhile_eq_self_iff.2 fun c hc => ne_point_of_isDigit (hds c hc)

theorem takeWhile_point (hds : ∀ c ∈ ds, c.isDigit = true) :
    (ds ++ '.' :: fs).takeWhile (· != '.') = ds := by
  rw [List.takeWhile_append_of_pos fun c hc => ne_point_of_isDigit (hds c hc)]
  simp

theorem numeral_whole (hne : ds ≠ []) (hds : ∀ c ∈ ds, c.isDigit = true) :
    numeral ds = some (toFloat (ofDigits ds) 0) := by
  have hdrop : ds.dropWhile (· != '.') = [] :=
    List.dropWhile_eq_nil_iff.2 fun c hc => ne_point_of_isDigit (hds c hc)
  simp [numeral, takeWhile_whole hds, hdrop, hne]

theorem numeral_point (hne : ds ≠ []) (hds : ∀ c ∈ ds, c.isDigit = true) :
    numeral (ds ++ '.' :: fs) = some (toFloat (ofDigits (ds ++ fs)) fs.length) := by
  have hdrop : (ds ++ '.' :: fs).dropWhile (· != '.') = '.' :: fs := by
    rw [List.dropWhile_append_of_pos fun c hc => ne_point_of_isDigit (hds c hc)]
    simp
  simp [numeral, takeWhile_point hds, hdrop, hne]

end

theorem digits_append_zeros (c n : Nat) :
    ∀ x ∈ digits c ++ List.replicate n '0', x.isDigit = true := by
  intro x hx
  rcases List.mem_append.1 hx with hx | hx
  · exact isDigit_of_mem_digits hx
  · obtain rfl := List.eq_of_mem_replicate hx
    rfl

/-- The text of a decimal with places after the point: enough zeros in front, then split. -/
theorem text_of_neg {d : Decimal} (h : d.exponent < 0) :
    ∃ ds fs, text d = ds ++ '.' :: fs ∧ ds ≠ [] ∧ (∀ c ∈ ds, c.isDigit = true) ∧
      (∀ c ∈ fs, c.isDigit = true) ∧ fs.length = (-d.exponent).toNat ∧
      ofDigits (ds ++ fs) = d.coefficient := by
  generalize hpad : List.replicate ((-d.exponent).toNat + 1 - (digits d.coefficient).length) '0' ++
    digits d.coefficient = padded
  have hdigit : ∀ c ∈ padded, c.isDigit = true := by
    intro c hc
    rw [← hpad] at hc
    rcases List.mem_append.1 hc with hc | hc
    · obtain rfl := List.eq_of_mem_replicate hc
      rfl
    · exact isDigit_of_mem_digits hc
  have hlen : (-d.exponent).toNat < padded.length := by
    rw [← hpad, List.length_append, List.length_replicate]
    omega
  refine ⟨padded.take (padded.length - (-d.exponent).toNat),
    padded.drop (padded.length - (-d.exponent).toNat), ?_, ?_, ?_, ?_, ?_, ?_⟩
  · simp only [text, if_neg (Int.not_le.2 h), hpad]
  · rw [← List.length_pos_iff, List.length_take]
    omega
  · exact fun c hc => hdigit c (List.mem_of_mem_take hc)
  · exact fun c hc => hdigit c (List.mem_of_mem_drop hc)
  · rw [List.length_drop]
    omega
  · rw [List.take_append_drop, ← hpad, ofDigits_zeros_append, ofDigits_digits]

theorem text_of_nonneg {d : Decimal} (h : 0 ≤ d.exponent) :
    text d = digits d.coefficient ++ List.replicate d.exponent.toNat '0' := by
  simp only [text, if_pos h]

theorem text_positional (d : Decimal) : Positional (text d) := by
  by_cases h : 0 ≤ d.exponent
  · rw [text_of_nonneg h]
    refine .whole ?_ (digits_append_zeros _ _)
    simp [digits_ne_nil]
  · obtain ⟨ds, fs, htext, hne, hds, hfs, -, -⟩ := text_of_neg (Int.not_le.1 h)
    rw [htext]
    exact .point hne hds hfs

/-- The text of a decimal reads as the double nearest to it. -/
theorem numeral_text (d : Decimal) :
    numeral (text d) =
      some (toFloat (d.coefficient * upper d.exponent) (-d.exponent).toNat) := by
  by_cases h : 0 ≤ d.exponent
  · have hplaces : (-d.exponent).toNat = 0 := by omega
    rw [text_of_nonneg h, numeral_whole (by simp [digits_ne_nil]) (digits_append_zeros _ _),
      ofDigits_append_zeros, ofDigits_digits, hplaces]
    rfl
  · obtain ⟨ds, fs, htext, hne, hds, -, hlen, hval⟩ := text_of_neg (Int.not_le.1 h)
    have hupper : upper d.exponent = 1 := by
      rw [upper, show d.exponent.toNat = 0 by omega, tenPow_zero]
    rw [htext, numeral_point hne hds, hval, hlen, hupper, Nat.mul_one]

/-- A unit in quarters of the last place, the powers of two written across. -/
theorem four_mul_twoPow (k s : Nat) {n : Nat} (hn : n = k + 2) :
    4 * twoPow k * twoPow (s - n) = twoPow (n - s) * twoPow s := by
  have hfour : 4 * twoPow k = twoPow (2 + k) := (twoPow_add 2 k).symm
  rw [hfour, ← twoPow_add, ← twoPow_add]
  exact congrArg twoPow (by omega)

theorem mul_across {c m n u a b t : Nat} (h : 4 * u * a = b * t) :
    4 * (c * m * u) * (n * a) = c * (m * b) * (n * t) := by
  calc 4 * (c * m * u) * (n * a) = c * m * n * (4 * u * a) := by ring
    _ = c * (m * b) * (n * t) := by
        rw [h]
        ring

/-- A decimal in the rounding interval of a finite pattern is read as that pattern. -/
theorem toFloat_of_roundsTo {d : Decimal} {p : Nat} (hp : p < infinity) (h : RoundsTo d p) :
    toFloat (d.coefficient * upper d.exponent) (-d.exponent).toNat = ofMagnitude false p := by
  have hpow : 4 * unitsPerOne * twoPow (scale p - 1076) =
      twoPow (1076 - scale p) * twoPow (scale p) := by
    unfold unitsPerOne
    exact four_mul_twoPow 1074 (scale p) (by decide)
  unfold toFloat
  refine congrArg _ (nearest_of_contains hp (tenPow_pos _) ?_)
  rw [← h]
  refine Interval.contains_congr _ (Nat.mul_pos (tenPow_pos _) (twoPow_pos _))
    (gridLower_pos p _) ?_
  unfold gridUpper gridLower
  exact mul_across hpow

theorem toFloat_zero (places : Nat) : toFloat 0 places = ofMagnitude false 0 := by
  unfold toFloat
  rw [Nat.zero_mul]
  refine congrArg _ ?_
  simp [nearest, divToEven]

/-! ## The text of a double -/

theorem toList_signed_false (cs : List Char) : (signed false cs).toList = cs := by
  unfold signed
  rw [if_neg Bool.false_ne_true]
  exact String.toList_ofList

/-- The text of a finite double without a sign. -/
theorem toList_plain {x : Float} (hneg : negative x = false) (hfin : magnitude x < infinity) :
    (plain x).toList = if magnitude x = 0 then ['0'] else text (shortest (magnitude x)) := by
  unfold plain
  dsimp only
  rw [if_neg (Nat.lt_asymm hfin), if_neg (Nat.ne_of_lt hfin), hneg]
  by_cases hzero : magnitude x = 0
  · rw [if_pos hzero, if_pos hzero, toList_signed_false]
  · rw [if_neg hzero, if_neg hzero, toList_signed_false]

theorem plain_positional {x : Float} (hneg : negative x = false) (hfin : magnitude x < infinity) :
    Positional (plain x).toList := by
  rw [toList_plain hneg hfin]
  by_cases hzero : magnitude x = 0
  · rw [if_pos hzero]
    exact .whole (by decide) (List.forall_mem_singleton.2 rfl)
  · rw [if_neg hzero]
    exact text_positional _

/-- A finite double without a sign reads back from its text. -/
theorem numeral_plain {x : Float} (hneg : negative x = false) (hfin : magnitude x < infinity) :
    numeral (plain x).toList = some x := by
  have hx := ofMagnitude_magnitude hneg
  rw [toList_plain hneg hfin]
  by_cases hzero : magnitude x = 0
  · rw [if_pos hzero, numeral_whole (by decide) (List.forall_mem_singleton.2 rfl),
      show ofDigits ['0'] = 0 from rfl, toFloat_zero, ← hzero, hx]
  · rw [if_neg hzero, numeral_text,
      toFloat_of_roundsTo hfin (shortest_roundsTo (Nat.pos_of_ne_zero hzero)), hx]

end Decimal

end ScopeScript
