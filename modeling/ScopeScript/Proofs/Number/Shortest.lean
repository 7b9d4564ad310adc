import Mathlib
import ScopeScript.Proofs.Number.Rounding

/-!
# Shortest decimals read back

`d.RoundsTo p`: the decimal `d` lies in the rounding interval of the pattern `p`. The decimal that
`shortest` finds does (`shortest_roundsTo`). On a grid on which the pattern has seventeen digits a
step is less than the interval is wide, so one of the pattern's two neighbours lies in it, and the
search ends there at the latest.
-/

namespace ScopeScript.Decimal

open Binary64

/-- The decimal lies in the rounding interval of the pattern. -/
def RoundsTo (d : Decimal) (p : Nat) : Prop :=
  (Interval.of p).contains (d.coefficient * gridUpper p d.exponent) (gridLower p d.exponent) = true

theorem gridLower_pos (p : Nat) (e : Int) : 0 < gridLower p e :=
  Nat.mul_pos (tenPow_pos _) (twoPow_pos _)

theorem gridUpper_pos (p : Nat) (e : Int) : 0 < gridUpper p e :=
  Nat.mul_pos (tenPow_pos _) (twoPow_pos _)

/-- A step of a grid is `10 ^ n` steps of the grid `n` places finer. -/
theorem tenPow_mul_grid (p : Nat) (e : Int) (n : Nat) :
    tenPow n * gridUpper p (e - n) * gridLower p e = gridUpper p e * gridLower p (e - n) := by
  have hten : tenPow n * upper (e - n) * lower e = upper e * lower (e - n) := by
    simp only [upper, lower, ← tenPow_add]
    congr 1
    omega
  simp only [gridUpper, gridLower]
  calc tenPow n * (upper (e - n) * twoPow (1076 - scale p)) * (lower e * twoPow (scale p - 1076))
      = tenPow n * upper (e - n) * lower e *
          (twoPow (1076 - scale p) * twoPow (scale p - 1076)) := by ring
    _ = upper e * lower (e - n) * (twoPow (1076 - scale p) * twoPow (scale p - 1076)) := by
        rw [hten]
    _ = upper e * twoPow (1076 - scale p) * (lower (e - n) * twoPow (scale p - 1076)) := by ring

theorem RoundsTo.carry {p n : Nat} {e : Int} (h : RoundsTo ⟨tenPow n, e - n⟩ p) :
    RoundsTo ⟨1, e⟩ p := by
  unfold RoundsTo at h ⊢
  rw [← h]
  refine Interval.contains_congr _ (gridLower_pos p e) (gridLower_pos p _) ?_
  rw [tenPow_mul_grid, Nat.one_mul]

section

variable {i : Interval} {value unit den : Nat}

theorem contains_of_neighbour {c : Nat} (h : neighbour i value unit den = some c) :
    i.contains (c * unit) den = true := by
  unfold neighbour at h
  dsimp only at h
  split at h
  · next hdown hup =>
    cases h
    split
    · exact hdown
    · exact hup
  · next hdown _ =>
    cases h
    exact hdown
  · next _ hup =>
    cases h
    exact hup
  · cases h

theorem exists_neighbour
    (h : i.contains (value / unit * unit) den = true ∨
      i.contains ((value / unit + 1) * unit) den = true) :
    ∃ c, neighbour i value unit den = some c := by
  unfold neighbour
  dsimp only
  split
  · exact ⟨_, rfl⟩
  · exact ⟨_, rfl⟩
  · exact ⟨_, rfl⟩
  · next hdown hup =>
    rcases h with h | h
    · exact absurd h (by simp [hdown])
    · exact absurd h (by simp [hup])

/-- The value has a neighbour in an interval that reaches two denominators up, and either as far
down with steps of less than four, or not at all down with steps of less than two. -/
theorem exists_neighbour_of_lt (hunit : 0 < unit) (hden : 0 < den)
    (hhi : value + 2 * den ≤ i.hi * den)
    (hlo : (unit < 4 * den ∧ i.lo * den + 2 * den ≤ value) ∨
      (unit < 2 * den ∧ i.lo * den ≤ value)) :
    ∃ c, neighbour i value unit den = some c := by
  apply exists_neighbour
  have hvalue : unit * (value / unit) + value % unit = value := Nat.div_add_mod value unit
  have hr : value % unit < unit := Nat.mod_lt value hunit
  rw [Nat.add_mul, Nat.one_mul, Nat.mul_comm (value / unit)]
  generalize unit * (value / unit) = down at *
  -- the lower neighbour if it is near enough, otherwise the upper one is
  by_cases hnear : unit < 4 * den ∧ i.lo * den + 2 * den ≤ value ∧ value % unit < 2 * den
  · exact .inl (Interval.contains_of_lt (by omega) (by omega))
  · exact .inr (Interval.contains_of_lt (by omega) (by omega))

end

theorem onGrid_roundsTo {p c : Nat} {e : Int} (h : onGrid p e = some c) : RoundsTo ⟨c, e⟩ p := by
  unfold onGrid at h
  exact contains_of_neighbour h

/-- On a grid whose step is at most `10 ^ -16` of the pattern, a neighbour of the pattern rounds to
it. -/
theorem exists_onGrid {p : Nat} {e : Int} (hp : 0 < p)
    (h : tenPow 16 * gridUpper p e ≤ 4 * significand p * gridLower p e) :
    ∃ c, onGrid p e = some c := by
  have hden := gridLower_pos p e
  have hpos := significand_pos hp
  have hsig := significand_lt p
  have hten : tenPow 16 = 10000000000000000 := rfl
  rw [hten] at h
  unfold onGrid
  refine exists_neighbour_of_lt (gridUpper_pos p e) hden ?_ ?_
  · rw [Interval.hi_of, Nat.add_mul]
  · rw [Interval.lo_of]
    generalize gridUpper p e = unit at *
    generalize gridLower p e = den at *
    -- half the width below a power of two is made up for by its significand, half the largest one
    by_cases hpow : significand p = binade ∧ 0 < scale p
    · right
      rw [if_pos hpow]
      rw [hpow.1, binade_eq] at h ⊢
      exact ⟨by omega, Nat.mul_le_mul_right den (by omega)⟩
    · left
      rw [if_neg hpow]
      have hle : significand p * den ≤ (2 * binade - 1) * den :=
        Nat.mul_le_mul_right den (by omega)
      rw [binade_eq] at hle
      rw [Nat.mul_assoc] at h
      refine ⟨by omega, ?_⟩
      rw [← Nat.add_mul]
      exact Nat.mul_le_mul_right den (by omega)

/-! ## The leading digit -/

/-- Powers compare as the exponents do after a comparison of two fixed powers of the bases. -/
theorem pow_le_pow_of_ratio {b c u v m n : Nat} (h : b ^ u ≤ c ^ v) (hb : 0 < b) (hv : 0 < v)
    (hmn : v * m ≤ u * n) : b ^ m ≤ c ^ n := by
  refine (Nat.pow_le_pow_iff_left (Nat.ne_of_gt hv)).1 ?_
  calc (b ^ m) ^ v = b ^ (v * m) := by rw [← Nat.pow_mul, Nat.mul_comm]
    _ ≤ b ^ (u * n) := Nat.pow_le_pow_right hb hmn
    _ = (b ^ u) ^ n := Nat.pow_mul b u n
    _ ≤ (c ^ v) ^ n := Nat.pow_le_pow_left h n
    _ = (c ^ n) ^ v := by rw [← Nat.pow_mul, ← Nat.pow_mul, Nat.mul_comm]

/-- `1233 / 4096` is below the decimal logarithm of two. -/
theorem tenPow_le_twoPow {m n : Nat} (h : 4096 * m ≤ 1233 * n) : tenPow m ≤ twoPow n :=
  pow_le_pow_of_ratio (u := 1233) (v := 4096) (by decide +kernel) (by decide) (by decide) h

/-- `1234 / 4096` is above it. -/
theorem twoPow_le_tenPow {m n : Nat} (h : 1234 * m ≤ 4096 * n) : twoPow m ≤ tenPow n :=
  pow_le_pow_of_ratio (u := 4096) (v := 1234) (by decide +kernel) (by decide) (by decide) h

/-- The pattern is at least `10 ^ e`. -/
def AtLeast (p : Nat) (e : Int) : Prop := gridUpper p e ≤ 4 * significand p * gridLower p e

/-- On a grid `n` places finer the pattern has `n` digits more. -/
theorem AtLeast.finer {p : Nat} {e : Int} (h : AtLeast p e) (n : Nat) :
    tenPow n * gridUpper p (e - n) ≤ 4 * significand p * gridLower p (e - n) := by
  refine Nat.le_of_mul_le_mul_right ?_ (gridLower_pos p e)
  rw [tenPow_mul_grid, Nat.mul_right_comm]
  exact Nat.mul_le_mul_right _ h

/-- A power of ten below a power of two, by the estimate of its exponent; the quotients are written
across. -/
theorem tenPow_mul_twoPow_le {a b m n : Nat}
    (h : ((a : Int) - b + 1) * 4096 ≤ ((n : Int) - m) * 1233) (hm : m ≤ 4096) :
    tenPow a * twoPow m ≤ twoPow n * tenPow b := by
  rcases Nat.le_total m n with hmn | hnm
  · rcases Nat.le_total a b with hab | hba
    · rw [Nat.mul_comm]
      exact Nat.mul_le_mul (Nat.pow_le_pow_right (by decide) hmn)
        (Nat.pow_le_pow_right (by decide) hab)
    · obtain ⟨d, rfl⟩ := Nat.exists_eq_add_of_le hmn
      obtain ⟨c, rfl⟩ := Nat.exists_eq_add_of_le hba
      have hle : tenPow c ≤ twoPow d := tenPow_le_twoPow (by omega)
      calc tenPow (b + c) * twoPow m = tenPow c * (tenPow b * twoPow m) := by
            rw [tenPow_add]
            ring
        _ ≤ twoPow d * (tenPow b * twoPow m) := Nat.mul_le_mul_right _ hle
        _ = twoPow (m + d) * tenPow b := by
            rw [twoPow_add]
            ring
  · obtain ⟨d, rfl⟩ := Nat.exists_eq_add_of_le hnm
    obtain ⟨c, rfl⟩ := Nat.exists_eq_add_of_le (show a ≤ b by omega)
    have hle : twoPow d ≤ tenPow c := twoPow_le_tenPow (by omega)
    calc tenPow a * twoPow (n + d) = twoPow d * (tenPow a * twoPow n) := by
          rw [twoPow_add]
          ring
      _ ≤ tenPow c * (tenPow a * twoPow n) := Nat.mul_le_mul_right _ hle
      _ = twoPow n * tenPow (a + c) := by
          rw [tenPow_add]
          ring

/-- An exponent one below the estimate is small enough. -/
theorem atLeast_of_estimate {p : Nat} {e : Int} (hp : 0 < p)
    (h : (e + 1) * 4096 ≤ ((significand p).log2 + scale p - 1074) * 1233) : AtLeast p e := by
  unfold AtLeast gridUpper gridLower upper lower
  have hlog : twoPow (significand p).log2 ≤ significand p :=
    Nat.log2_self_le (Nat.ne_of_gt (significand_pos hp))
  have hfour : twoPow ((significand p).log2 + 2) ≤ 4 * significand p := by
    rw [twoPow_add, Nat.mul_comm]
    exact Nat.mul_le_mul_left 4 hlog
  generalize (significand p).log2 = l at *
  generalize scale p = s at *
  have hpow := tenPow_mul_twoPow_le (a := e.toNat) (b := (-e).toNat) (m := 1076 - s)
    (n := l + 2 + (s - 1076)) (by omega) (by omega)
  calc tenPow e.toNat * twoPow (1076 - s)
      ≤ twoPow (l + 2 + (s - 1076)) * tenPow (-e).toNat := hpow
    _ = twoPow (l + 2) * (tenPow (-e).toNat * twoPow (s - 1076)) := by
        rw [twoPow_add]
        ring
    _ ≤ 4 * significand p * (tenPow (-e).toNat * twoPow (s - 1076)) :=
        Nat.mul_le_mul_right _ hfour

theorem firstAbove_atLeast {p : Nat} (more : Nat) (e : Int) (h : AtLeast p (e - 1)) :
    AtLeast p (firstAbove p more e - 1) := by
  induction more generalizing e with
  | zero => exact h
  | succ more ih =>
    unfold firstAbove
    split
    · exact h
    · next hlt =>
      refine ih (e + 1) ?_
      rw [Int.add_sub_cancel]
      exact Nat.not_lt.1 hlt

theorem leading_atLeast {p : Nat} (hp : 0 < p) : AtLeast p (leading p - 1) := by
  refine firstAbove_atLeast 4 _ (atLeast_of_estimate hp ?_)
  rw [Int.fdiv_eq_ediv_of_nonneg _ (by decide)]
  omega

/-! ## The search -/

/-- The search ends on a grid that answers, at the latest on its last one. A coefficient with one
digit too many is a power of ten and written as one digit. -/
theorem search_roundsTo {p : Nat} {grid : Int → Option Nat} {e : Int}
    (hgrid : ∀ e c, grid e = some c → RoundsTo ⟨c, e⟩ p) (more n : Nat)
    (hlast : ∃ c, grid (e - (n + more : Nat)) = some c) : RoundsTo (search grid e more n) p := by
  induction more generalizing n with
  | zero =>
    obtain ⟨c, hc⟩ := hlast
    unfold search
    rw [Nat.add_zero] at hc
    rw [hc]
    exact hgrid _ _ hc
  | succ more ih =>
    unfold search
    split
    · next c hc =>
      have hround := hgrid _ _ hc
      split
      · next hten =>
        rw [hten] at hround
        exact hround.carry
      · exact hround
    · refine ih (n + 1) ?_
      rw [Nat.add_right_comm]
      exact hlast

/-- The decimal found for a pattern rounds to it. -/
theorem shortest_roundsTo {p : Nat} (hp : 0 < p) : RoundsTo (shortest p) p := by
  unfold shortest
  refine search_roundsTo (fun _ _ h => onGrid_roundsTo h) 16 1 (exists_onGrid hp ?_)
  rw [show leading p - (1 + 16 : Nat) = leading p - 1 - (16 : Nat) by omega]
  exact (leading_atLeast hp).finer 16

end ScopeScript.Decimal
