import ZcashSoloPool.Dashboard.ScaledNumber
import ZcashSoloPool.Numbers.Grid

/-!
# Difficulties as texts

The pool writes a difficulty with a unit and between one and three digits behind
the point.  What the dashboard reads are the four leading digits, or the nearest
integer if there are fewer, and so the order of difficulties is kept.
-/

namespace ZcashSoloPool.Dashboard

open ZcashSoloPool.Bytes
open ZcashSoloPool.JavaScript
open ZcashSoloPool.Numbers

/-- The digits that `toFixed` writes. -/
theorem toFixed_eq (format : NumberFormat) {x : ℚ} (nonneg : 0 ≤ x) (small : x < 10 ^ 21)
    (fractionDigits : Nat) :
    toFixed format x fractionDigits =
      (fixed ⌊x * 10 ^ fractionDigits + 1 / 2⌋₊ fractionDigits).text := by
  rw [toFixed, if_neg (not_lt.mpr nonneg), toFixedUnsigned, if_neg (not_le.mpr small)]
  exact text_fixed _ fractionDigits

/-- Rounding to a digit behind the point of the scaled number is rounding to the
unit of that digit. -/
theorem floor_mul_eq_roundTo {x scale : ℚ} (nonneg : 0 ≤ x) (positive : 0 < scale)
    (fractionDigits : Nat) :
    (⌊x * 10 ^ fractionDigits + 1 / 2⌋₊ : ℚ) / 10 ^ fractionDigits * scale =
      roundTo (scale / 10 ^ fractionDigits) (x * scale) := by
  have unit : x * scale / (scale / 10 ^ fractionDigits) = x * 10 ^ fractionDigits := by
    field_simp
  have rounded : 0 ≤ x * 10 ^ fractionDigits + 1 / 2 := by positivity
  rw [roundTo_eq, unit, ← natCast_floor_eq_intCast_floor rounded]
  ring

/-- The unit of the last digit is the place of the fourth of the leading digits. -/
theorem place_of_scaled {v : ℚ} {k : Nat} (below : v < 1000) (above : k = 0 ∨ 1 ≤ v) :
    1000 ^ (k + 1) / 10 ^ difficultyPrecision v = place 10 3 (v * 1000 ^ (k + 1)) := by
  have power : (1000 : ℚ) ^ (k + 1) = 10 ^ (3 * k + 3) := by
    rw [show (1000 : ℚ) = 10 ^ 3 by norm_num, ← pow_mul]
    congr 1
  have scale : (0 : ℚ) < 10 ^ (3 * k + 3) := pow_pos (by norm_num) _
  -- The digits in front of the point and those behind it are four.
  have digits : ∀ j ≤ 2, (j = 0 ∧ k = 0 ∨ (10 : ℚ) ^ j ≤ v) → v < 10 ^ (j + 1) →
      (10 : ℚ) ^ (3 * k + 3) / 10 ^ (3 - j) = place 10 3 (v * 10 ^ (3 * k + 3)) := by
    intro j few low high
    have unit : (10 : ℚ) ^ (3 * k + 3) / 10 ^ (3 - j) = 10 ^ (3 * k + j) := by
      rw [div_eq_iff (by positivity), ← pow_add]
      congr 1
      omega
    have exact_ : place 10 3 (v * 10 ^ (3 * k + 3)) = ((10 : ℕ) : ℚ) ^ (3 * k + j) := by
      apply place_eq (by norm_num)
      · rcases low with ⟨rfl, rfl⟩ | low
        · exact Or.inl rfl
        · right
          rw [show 3 * k + j + 3 = j + (3 * k + 3) by ring, pow_add]
          push_cast
          exact mul_le_mul_of_nonneg_right low scale.le
      · rw [show 3 * k + j + 3 + 1 = j + 1 + (3 * k + 3) by ring, pow_add _ (j + 1)]
        push_cast
        exact mul_lt_mul_of_pos_right high scale
    rw [unit, exact_]
    norm_num
  rw [power]
  unfold difficultyPrecision
  split
  · next large => exact digits 2 (by decide) (Or.inr (by linarith)) (by norm_num; linarith)
  · next medium =>
      split
      · next large =>
          exact digits 1 (by decide) (Or.inr (by linarith)) (by norm_num; linarith)
      · next small =>
          refine digits 0 (by decide) ?_ (by norm_num; linarith)
          rcases above with none | above
          · exact Or.inl ⟨rfl, none⟩
          · exact Or.inr (by linarith)

/-- The dashboard reads the four leading digits of a difficulty. -/
theorem parseScaledNumber_formatDifficulty (format : NumberFormat) {difficulty : ℚ}
    (nonneg : 0 ≤ difficulty) (small : difficulty < 10 ^ 21) :
    parseScaledNumber (formatDifficulty format (some difficulty)) =
      some (leadingDigits 10 3 difficulty) := by
  rcases nonneg.eq_or_lt with rfl | positive
  · have written : formatDifficulty format (some 0) = "0K".toList := by
      simp [formatDifficulty]
    have read : parseScaledNumber "0K".toList = some 0 := by decide +kernel
    rw [written, read, leadingDigits_zero (by norm_num)]
  · obtain ⟨k, bound, scaled, stopped, above⟩ := exists_scaleDown_eq 6 (difficulty / 1000) 0
    rw [Nat.zero_add] at scaled
    have scale : (0 : ℚ) < 1000 ^ (k + 1) := pow_pos (by norm_num) _
    obtain ⟨v, rfl⟩ : ∃ v, difficulty = v * 1000 ^ (k + 1) :=
      ⟨difficulty / 1000 ^ (k + 1), (div_mul_cancel₀ difficulty scale.ne').symm⟩
    have value : v * 1000 ^ (k + 1) / 1000 / 1000 ^ k = v := by
      field_simp
      ring
    rw [value] at scaled stopped above
    have notNegative : 0 ≤ v := nonneg_of_mul_nonneg_left nonneg scale
    have notLast : k ≠ 6 := by
      rintro rfl
      have large := above.resolve_left (by decide)
      norm_num at small
      linarith
    have below : v < 1000 := stopped.resolve_left notLast
    have written : formatDifficulty format (some (v * 1000 ^ (k + 1))) =
        toFixed format v (difficultyPrecision v) ++ difficultyUnits.getD k [] := by
      rw [formatDifficulty]
      dsimp only
      rw [if_neg positive.ne', if_neg (not_lt.mpr nonneg), abs_of_nonneg nonneg,
        show difficultyUnits.length - 1 = 6 from rfl, scaled]
      rfl
    obtain ⟨letter, matched, power⟩ : ∃ letter,
        matchUnit (difficultyUnits.getD k []) = some letter ∧ scalePower letter = k + 1 := by
      have known := matchUnit_difficultyUnit bound
      rw [if_neg notLast] at known
      exact Option.map_eq_some_iff.mp known
    rw [written, toFixed_eq format notNegative (below.trans (by norm_num)),
      parseScaledNumber_append _ (followsNumber_difficultyUnit bound), matched, Option.map_some,
      power, value_fixed, floor_mul_eq_roundTo notNegative scale, place_of_scaled below above,
      leadingDigits]

end ZcashSoloPool.Dashboard
