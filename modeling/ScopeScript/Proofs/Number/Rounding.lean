import Mathlib
import ScopeScript.Number.Decimal

/-!
# Rounding intervals

A pattern is its scale and its significand. The quotients that `Binary64.nearest` takes to a finite
pattern are those in its rounding interval (`Decimal.nearest_of_contains`). The interval reaches
half a step to both sides; at a power of two the step below is half as wide, and a quotient there is
rounded one scale further down and carried up again.
-/

namespace ScopeScript

theorem twoPow_add (m n : Nat) : twoPow (m + n) = twoPow m * twoPow n := Nat.pow_add 2 m n

theorem tenPow_add (m n : Nat) : tenPow (m + n) = tenPow m * tenPow n := Nat.pow_add 10 m n

namespace Binary64

theorem binade_eq : binade = 4503599627370496 := rfl

theorem infinity_eq : infinity = 2047 * 4503599627370496 := rfl

theorem scale_add_significand (p : Nat) : scale p * binade + significand p = p := by
  simp only [significand, scale, binade_eq]
  omega

theorem significand_lt (p : Nat) : significand p < 2 * binade := by
  simp only [significand, scale, binade_eq]
  omega

theorem significand_pos {p : Nat} (h : 0 < p) : 0 < significand p := by
  simp only [significand, scale, binade_eq]
  omega

/-- Only the patterns of the lowest scale have small significands. -/
theorem binade_le_significand {p : Nat} (h : 0 < scale p) : binade ≤ significand p := by
  simp only [significand, scale, binade_eq] at h ⊢
  omega

/-! ## Quotients -/

/-- A quotient at most half away from a number rounds to it, at a half only if it is even. -/
theorem divToEven_eq {num den m : Nat} (hlo : 2 * (m * den) ≤ 2 * num + den)
    (hhi : 2 * num ≤ 2 * (m * den) + den)
    (hodd : m % 2 = 1 → 2 * (m * den) < 2 * num + den ∧ 2 * num < 2 * (m * den) + den)
    (hden : 0 < den) : divToEven num den = m := by
  have hnum : den * (num / den) + num % den = num := Nat.div_add_mod num den
  have hr : num % den < den := Nat.mod_lt num hden
  have hle : num / den ≤ m := by
    by_contra hlt
    have : (m + 1) * den ≤ num / den * den := Nat.mul_le_mul_right den (by omega)
    rw [Nat.add_mul, Nat.mul_comm (num / den)] at this
    omega
  have hge : m ≤ num / den + 1 := by
    by_contra hlt
    have : (num / den + 2) * den ≤ m * den := Nat.mul_le_mul_right den (by omega)
    rw [Nat.add_mul, Nat.mul_comm (num / den)] at this
    omega
  simp only [divToEven]
  rcases Nat.eq_or_lt_of_le hle with hm | hm
  · rw [← hm, Nat.mul_comm (num / den)] at hlo hhi hodd
    rw [if_neg (by omega), hm]
  · obtain rfl : m = num / den + 1 := by omega
    rw [Nat.add_mul, Nat.mul_comm (num / den)] at hlo hhi hodd
    rw [if_pos (by omega)]

/-- At its scale a quotient of units has 53 bits, or fewer at the lowest scale. -/
theorem log2_sub_eq {num den k : Nat} (hden : 0 < den)
    (hlt : num < 2 * binade * (den * twoPow k)) (hle : k = 0 ∨ binade * (den * twoPow k) ≤ num) :
    (num / den).log2 - 52 = k := by
  have hub : num / den < 2 ^ (53 + k) := by
    rw [Nat.div_lt_iff_lt_mul hden]
    calc num < 2 * binade * (den * twoPow k) := hlt
      _ = 2 ^ (53 + k) * den := by
        rw [Nat.pow_add, binade_eq, twoPow, Nat.pow_eq]
        ring
  have hlog : (num / den).log2 ≤ 52 + k := by
    rcases Nat.eq_zero_or_pos (num / den) with hz | hpos
    · rw [hz, Nat.log2_zero]
      exact Nat.zero_le _
    · have := (Nat.log2_lt (by omega)).2 hub
      omega
  rcases hle with hk | hle
  · omega
  · have hlb : 2 ^ (52 + k) ≤ num / den := by
      rw [Nat.le_div_iff_mul_le hden]
      calc 2 ^ (52 + k) * den = binade * (den * twoPow k) := by
            rw [Nat.pow_add, binade_eq, twoPow, Nat.pow_eq]
            ring
        _ ≤ num := hle
    have hpos := Nat.two_pow_pos (52 + k)
    have := (Nat.le_log2 (by omega)).2 hlb
    omega

theorem nearest_eq {num den k m : Nat} (hscale : (num / den).log2 - 52 = k)
    (hm : divToEven num (den * twoPow k) = m) (hle : k * binade + m ≤ infinity) :
    nearest num den = k * binade + m := by
  simp only [nearest, hscale, hm]
  exact Nat.min_eq_left hle

theorem nearest_le (num den : Nat) : nearest num den ≤ infinity := Nat.min_le_right _ _

/-- A quotient at most half a step away from a pattern of its own scale. -/
theorem nearest_of_same_scale {num den k m D : Nat} (hden : 0 < den) (hD : den * twoPow k = D)
    (hlo : 4 * (m * D) ≤ 4 * num + 2 * D) (hhi : 4 * num ≤ 4 * (m * D) + 2 * D)
    (hodd : m % 2 = 1 → 4 * (m * D) < 4 * num + 2 * D ∧ 4 * num < 4 * (m * D) + 2 * D)
    (hm : m < 2 * binade) (hscale : k = 0 ∨ binade * D ≤ num) (hle : k * binade + m ≤ infinity) :
    nearest num den = k * binade + m := by
  have hDpos : 0 < D := hD ▸ Nat.mul_pos hden (twoPow_pos k)
  have hlog : (num / den).log2 - 52 = k := by
    have hmD : (m + 1) * D ≤ 2 * binade * D := Nat.mul_le_mul_right D hm
    rw [Nat.add_mul] at hmD
    refine log2_sub_eq hden ?_ (by rwa [hD])
    rw [hD]
    omega
  have hround : divToEven num (den * twoPow k) = m := by
    rw [hD]
    refine divToEven_eq (by omega) (by omega) (fun h => ?_) hDpos
    have := hodd h
    omega
  exact nearest_eq hlog hround hle

/-- A quotient below a power of two and at most a quarter of a step away from it, where the doubles
lie twice as close, is rounded at the next lower scale. -/
theorem nearest_of_below {num den k E : Nat} (hden : 0 < den) (hE : den * twoPow k = E)
    (hlo : 8 * (binade * E) ≤ 4 * num + 2 * E) (hlt : num < 2 * (binade * E))
    (hle : (k + 2) * binade ≤ infinity) : nearest num den = (k + 2) * binade := by
  have hEpos : 0 < E := hE ▸ Nat.mul_pos hden (twoPow_pos k)
  have hlog : (num / den).log2 - 52 = k := by
    refine log2_sub_eq hden ?_ (.inr ?_)
    · rw [hE, Nat.mul_assoc]
      exact hlt
    · rw [hE]
      rw [binade_eq] at hlo ⊢
      omega
  have hround : divToEven num (den * twoPow k) = 2 * binade := by
    rw [hE]
    refine divToEven_eq ?_ ?_ (fun h => by omega) hEpos
    · rw [Nat.mul_assoc]
      omega
    · rw [Nat.mul_assoc]
      omega
  rw [Nat.add_mul] at hle ⊢
  exact nearest_eq hlog hround hle

end Binary64

namespace Decimal

open Binary64

/-! ## Intervals -/

namespace Interval

theorem contains_of_lt {i : Interval} {num den : Nat} (hlo : i.lo * den < num)
    (hhi : num < i.hi * den) : i.contains num den = true := by
  unfold contains
  split
  · simp [Nat.le_of_lt hlo, Nat.le_of_lt hhi]
  · simp [hlo, hhi]

theorem bounds_of_contains {i : Interval} {num den : Nat} (h : i.contains num den = true) :
    i.lo * den ≤ num ∧ num ≤ i.hi * den ∧
      (i.closed = false → i.lo * den < num ∧ num < i.hi * den) := by
  unfold contains at h
  split at h
  · next hc =>
    simp only [Bool.and_eq_true, decide_eq_true_eq] at h
    simp [h, hc]
  · simp only [Bool.and_eq_true, decide_eq_true_eq] at h
    exact ⟨Nat.le_of_lt h.1, Nat.le_of_lt h.2, fun _ => h⟩

/-- Whether a quotient lies in an interval does not depend on how it is written. -/
theorem contains_congr (i : Interval) {a b c d : Nat} (hb : 0 < b) (hd : 0 < d)
    (h : a * d = c * b) : i.contains a b = i.contains c d := by
  have hle (x : Nat) : x * b ≤ a ↔ x * d ≤ c := by
    rw [← Nat.mul_le_mul_right_iff hd, ← Nat.mul_le_mul_right_iff (n := x * d) hb, h,
      Nat.mul_right_comm]
  have hge (x : Nat) : a ≤ x * b ↔ c ≤ x * d := by
    rw [← Nat.mul_le_mul_right_iff hd, ← Nat.mul_le_mul_right_iff (n := c) hb, h,
      Nat.mul_right_comm]
  have hlt (x : Nat) : x * b < a ↔ x * d < c := by
    rw [← Nat.not_le, ← Nat.not_le, hge]
  have hgt (x : Nat) : a < x * b ↔ c < x * d := by
    rw [← Nat.not_le, ← Nat.not_le, hle]
  simp only [contains, hle, hge, hlt, hgt]

end Interval

theorem Interval.lo_of (p : Nat) : (Interval.of p).lo =
    4 * significand p - (if significand p = binade ∧ 0 < scale p then 1 else 2) := rfl

theorem Interval.hi_of (p : Nat) : (Interval.of p).hi = 4 * significand p + 2 := rfl

/-- A quotient in the rounding interval of a finite pattern rounds to it. The quotient is one of
units, the interval is in quarters of the last place. -/
theorem nearest_of_contains {p num den : Nat} (hp : p < infinity) (hden : 0 < den)
    (h : (Interval.of p).contains (4 * num) (den * twoPow (scale p)) = true) :
    nearest num den = p := by
  obtain ⟨hlo, hhi, hopen⟩ := Interval.bounds_of_contains h
  have hparts := scale_add_significand p
  have hsig := significand_lt p
  have hnormal : 0 < scale p → binade ≤ significand p := binade_le_significand
  have hclosed : (Interval.of p).closed = false ↔ significand p % 2 = 1 := by
    simp [Interval.of]
  rw [Interval.lo_of] at hlo hopen
  rw [Interval.hi_of] at hhi hopen
  rw [hclosed] at hopen
  generalize scale p = k at *
  generalize significand p = m at *
  generalize hD : den * twoPow k = D at *
  have hhiD : (4 * m + 2) * D = 4 * (m * D) + 2 * D := by ring
  have hloD : 4 * (m * D) ≤ (4 * m - if m = binade ∧ 0 < k then 1 else 2) * D + 2 * D := by
    have hle : 4 * m * D ≤ ((4 * m - if m = binade ∧ 0 < k then 1 else 2) + 2) * D :=
      Nat.mul_le_mul_right D (by split <;> omega)
    rw [Nat.add_mul, Nat.mul_assoc] at hle
    exact hle
  by_cases hscale : k = 0 ∨ binade * D ≤ num
  · rw [← hparts]
    refine nearest_of_same_scale hden hD (by omega) (by omega) (fun hodd => ?_) hsig hscale
      (by omega)
    have := hopen hodd
    omega
  · -- only the lower half gap of a power of two reaches below the patterns of its scale
    obtain ⟨hk, hbelow⟩ := not_or.1 hscale
    obtain ⟨k, rfl⟩ := Nat.exists_eq_add_one_of_ne_zero hk
    have hle : binade ≤ m := hnormal k.succ_pos
    obtain rfl : m = binade := by
      by_contra hne
      have : (binade + 1) * D ≤ m * D := Nat.mul_le_mul_right D (by omega)
      rw [Nat.add_mul] at this
      omega
    have hhalf : D = 2 * (den * twoPow k) := by
      rw [← hD, twoPow_succ]
      ring
    have hpattern : (k + 2) * binade = p := by
      rw [← hparts]
      ring
    rw [if_pos ⟨rfl, k.succ_pos⟩, hhalf] at hlo
    rw [hhalf] at hbelow
    rw [← hpattern]
    refine nearest_of_below hden rfl ?_ ?_ (by omega)
    · rw [binade_eq] at hlo ⊢
      omega
    · rw [binade_eq] at hbelow ⊢
      omega

end Decimal

end ScopeScript
