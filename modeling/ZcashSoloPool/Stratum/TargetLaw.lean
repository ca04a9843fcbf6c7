import ZcashSoloPool.Stratum.Course
import Mathlib.Data.Int.Log

/-!
# The law of targets

A target is the base target divided by the difficulty, where the difficulty
counts in whole millionths and the quotient is rounded down and bounded.  What
the rounding costs is bounded by the difficulty itself and by a millionth of
the base target over the difficulty.  In doubles the millionths of a large
difficulty are rounded once more, and then the bound fails.
-/

namespace ZcashSoloPool.Stratum

open ZcashSoloPool.Bytes
open ZcashSoloPool.JavaScript

/-! ## Rounding to millionths -/

/-- A difficulty of half a millionth or more is rounded to the nearest
millionth. -/
theorem abs_sub_millionths_le {difficulty : ℚ} (large : 1 / 2 ≤ difficulty * 10 ^ 6) :
    |difficulty * 10 ^ 6 - millionths difficulty| ≤ 1 / 2 := by
  have atLeast : 1 ≤ ⌊difficulty * 10 ^ 6 + 1 / 2⌋ := by
    apply Int.le_floor.mpr
    push_cast
    linarith
  have value : ((millionths difficulty : Nat) : ℚ) = ⌊difficulty * 10 ^ 6 + 1 / 2⌋ := by
    rw [millionths, max_eq_right atLeast, ← Int.cast_natCast, Int.toNat_of_nonneg]
    exact Int.zero_le_ofNat 1 |>.trans atLeast
  have below := Int.floor_le (difficulty * 10 ^ 6 + 1 / 2)
  have above := Int.lt_floor_add_one (difficulty * 10 ^ 6 + 1 / 2)
  rw [value]
  apply abs_le.mpr
  constructor
  · linarith
  · linarith

/-- A smaller one counts as one millionth. -/
theorem millionths_eq_one {difficulty : ℚ} (small : difficulty * 10 ^ 6 < 1 / 2) :
    millionths difficulty = 1 := by
  have floor : ⌊difficulty * 10 ^ 6 + 1 / 2⌋ ≤ 1 := by
    apply Int.le_of_lt_add_one
    apply Int.floor_lt.mpr
    push_cast
    linarith
  rw [millionths, max_eq_left floor]
  rfl

/-- The relative error of the rounding. -/
theorem abs_sub_millionths_mul_le {difficulty : ℚ} (positive : 0 < difficulty) :
    |difficulty * 10 ^ 6 - millionths difficulty| * (difficulty * 10 ^ 6) ≤
      millionths difficulty := by
  have nonneg : 0 ≤ difficulty * 10 ^ 6 := by positivity
  have one_le : (1 : ℚ) ≤ millionths difficulty := by
    exact_mod_cast millionths_pos difficulty
  rcases le_or_gt (1 / 2) (difficulty * 10 ^ 6) with large | small
  · have error := abs_sub_millionths_le large
    have size := (abs_le.mp error).2
    calc
      _ ≤ 1 / 2 * (difficulty * 10 ^ 6) := mul_le_mul_of_nonneg_right error nonneg
      _ ≤ millionths difficulty := by linarith
  · rw [millionths_eq_one small, Nat.cast_one]
    have error : |difficulty * 10 ^ 6 - 1| ≤ 1 := by
      apply abs_le.mpr
      constructor
      · linarith
      · linarith
    calc
      _ ≤ 1 * (difficulty * 10 ^ 6) := mul_le_mul_of_nonneg_right error nonneg
      _ ≤ 1 := by linarith

/-! ## Faithful work -/

/-- A whole number just below `base` over `unit` pays for `base`, up to one
unit of work and the share that `difficulty` deviates from `unit`. -/
theorem abs_mul_sub_le {base unit difficulty target : ℚ} (base_nonneg : 0 ≤ base)
    (unit_pos : 0 < unit) (positive : 0 < difficulty) (low : target ≤ base / unit)
    (high : base / unit < target + 1) :
    |target * difficulty - base| ≤ difficulty + base * (|difficulty - unit| / unit) := by
  have exact : base / unit * difficulty - base = base * ((difficulty - unit) / unit) := by
    field_simp
  have drift : |base / unit * difficulty - base| = base * (|difficulty - unit| / unit) := by
    rw [exact, abs_mul, abs_div, abs_of_nonneg base_nonneg, abs_of_pos unit_pos]
  have cut : |target * difficulty - base / unit * difficulty| ≤ difficulty := by
    rw [← sub_mul, abs_mul, abs_of_pos positive]
    apply mul_le_of_le_one_left positive.le
    apply abs_le.mpr
    constructor
    · linarith
    · linarith
  calc
    _ ≤ |target * difficulty - base / unit * difficulty| + |base / unit * difficulty - base| :=
      abs_sub_le _ _ _
    _ ≤ _ := by
      rw [drift]
      exact add_le_add_left cut _

/-- The quotient is neither cut to the highest target nor raised to one. -/
structure Unclamped (baseTargetBI : Nat) (difficulty : ℚ) : Prop where
  low : 1 ≤ scaledTarget baseTargetBI difficulty
  high : scaledTarget baseTargetBI difficulty ≤ maxTarget

instance (baseTargetBI : Nat) (difficulty : ℚ) : Decidable (Unclamped baseTargetBI difficulty) :=
  decidable_of_iff
    (1 ≤ scaledTarget baseTargetBI difficulty ∧ scaledTarget baseTargetBI difficulty ≤ maxTarget)
    ⟨fun ⟨low, high⟩ => ⟨low, high⟩, fun ⟨low, high⟩ => ⟨low, high⟩⟩

theorem abs_scaledTarget_mul_sub_le (baseTargetBI : Nat) {difficulty : ℚ}
    (positive : 0 < difficulty) :
    |scaledTarget baseTargetBI difficulty * difficulty - baseTargetBI| ≤
      difficulty + baseTargetBI * (1 / 10 ^ 6 / difficulty) := by
  have scale_pos : (0 : ℚ) < millionths difficulty := by
    exact_mod_cast millionths_pos difficulty
  have quotient := div_bracket (baseTargetBI * 10 ^ 6) (millionths difficulty)
  rw [← scaledTarget, Nat.cast_mul, Nat.cast_pow, Nat.cast_ofNat] at quotient
  have regroup : (baseTargetBI : ℚ) * 10 ^ 6 / millionths difficulty =
      baseTargetBI / (millionths difficulty / 10 ^ 6) := by
    field_simp
  rw [regroup] at quotient
  have unit_pos : (0 : ℚ) < millionths difficulty / 10 ^ 6 := by positivity
  have bracket := abs_mul_sub_le (Nat.cast_nonneg baseTargetBI) unit_pos positive quotient.1
    quotient.2
  have relative : |difficulty - millionths difficulty / 10 ^ 6| /
      (millionths difficulty / 10 ^ 6) ≤ 1 / 10 ^ 6 / difficulty := by
    have spread : difficulty - millionths difficulty / 10 ^ 6 =
        (difficulty * 10 ^ 6 - millionths difficulty) / 10 ^ 6 := by
      field_simp
    have scale : |((10 : ℚ) ^ 6)| = 10 ^ 6 := abs_of_pos (by positivity)
    rw [spread, abs_div, scale, div_div_div_cancel_right₀ (by positivity),
      div_le_div_iff₀ scale_pos positive]
    calc
      _ = 1 / 10 ^ 6 *
          (|difficulty * 10 ^ 6 - millionths difficulty| * (difficulty * 10 ^ 6)) := by ring
      _ ≤ 1 / 10 ^ 6 * millionths difficulty :=
        mul_le_mul_of_nonneg_left (abs_sub_millionths_mul_le positive) (by positivity)
  calc
    _ ≤ _ := bracket
    _ ≤ _ := by
      apply add_le_add_right
      exact mul_le_mul_of_nonneg_left relative (Nat.cast_nonneg baseTargetBI)

/-! ## The texts -/

theorem one_le_targetNumber (baseTargetBI : Nat) (difficulty : ℚ) :
    1 ≤ targetNumber baseTargetBI difficulty := by
  rw [targetNumber]
  split
  · exact Nat.le_refl 1
  · next nonzero => exact Nat.one_le_iff_ne_zero.mpr nonzero

/-- A target text has sixty-four digits and denotes a number from one to the
highest target; it falls as the difficulty rises; and where neither bound
acts, the work it asks for is the one the difficulty stands for. -/
theorem targetForDifficulty_antitone_and_faithful (baseTargetBI : Nat) {difficulty higher : ℚ}
    (positive : 0 < difficulty) (ordered : difficulty ≤ higher) :
    hexNumber (targetForDifficulty baseTargetBI higher) ≤
        hexNumber (targetForDifficulty baseTargetBI difficulty) ∧
      (targetForDifficulty baseTargetBI difficulty).length = 64 ∧
      IsLowerHex (targetForDifficulty baseTargetBI difficulty) ∧
      1 ≤ hexNumber (targetForDifficulty baseTargetBI difficulty) ∧
      hexNumber (targetForDifficulty baseTargetBI difficulty) ≤ 2 ^ 256 - 1 ∧
      (Unclamped baseTargetBI difficulty →
        |hexNumber (targetForDifficulty baseTargetBI difficulty) * difficulty - baseTargetBI| ≤
          difficulty + baseTargetBI * (1 / 10 ^ 6 / difficulty)) := by
  rw [hexNumber_targetForDifficulty, hexNumber_targetForDifficulty]
  constructor
  · exact targetNumber_anti baseTargetBI ordered
  constructor
  · exact length_targetForDifficulty baseTargetBI difficulty
  constructor
  · exact isLowerHex_targetForDifficulty baseTargetBI difficulty
  constructor
  · exact one_le_targetNumber baseTargetBI difficulty
  constructor
  · exact targetNumber_le baseTargetBI difficulty
  · intro unclamped
    rw [targetNumber_eq_scaledTarget unclamped.low unclamped.high]
    exact abs_scaledTarget_mul_sub_le baseTargetBI positive

theorem targetForDifficulty_antitone_and_faithful_quarter :
    hexNumber (targetForDifficulty (2 ^ 240) (1 / 4)) =
        2 ^ 242 ∧
      |(2 ^ 242 : ℚ) * (1 / 4) - 2 ^ 240| ≤ 1 / 4 + 2 ^ 240 * (1 / 10 ^ 6 / (1 / 4)) ∧
      hexNumber (targetForDifficulty (2 ^ 240) 8) ≤
        hexNumber (targetForDifficulty (2 ^ 240) (1 / 4)) := by
  have value : hexNumber (targetForDifficulty (2 ^ 240) (1 / 4)) = 2 ^ 242 := by
    rw [hexNumber_targetForDifficulty]
    decide +kernel
  obtain ⟨antitone, -, -, -, -, faithful⟩ :=
    targetForDifficulty_antitone_and_faithful (2 ^ 240) (show (0 : ℚ) < 1 / 4 by decide +kernel)
      (show (1 / 4 : ℚ) ≤ 8 by decide +kernel)
  have work := faithful (by decide +kernel)
  rw [value] at work
  constructor
  · exact value
  constructor
  · exact_mod_cast work
  · exact antitone

/-! ## In doubles -/

/-- The whole number next to a fraction, and the even one of two. -/
def nearestEven (x : ℚ) : ℤ :=
  if x - ⌊x⌋ < 1 / 2 ∨ x - ⌊x⌋ = 1 / 2 ∧ ⌊x⌋ % 2 = 0 then ⌊x⌋ else ⌊x⌋ + 1

/-- The distance of the doubles around a positive number. -/
def doubleUnit (x : ℚ) : ℚ :=
  2 ^ max (Int.log 2 x - 52) (-1074)

/-- The double next to a positive number, or none for infinity. -/
def toDouble (x : ℚ) : Option ℚ :=
  let rounded := nearestEven (x / doubleUnit x) * doubleUnit x
  if rounded < 2 ^ 1024 then some rounded else none

/-- `denom`, with the product as a double.  `BigInt` throws for infinity. -/
def denom (difficulty : ℚ) : Option Nat :=
  (toDouble (difficulty * 10 ^ 6)).map fun product => (max 1 ⌊product + 1 / 2⌋).toNat

/-- `targetForDifficulty`, with the product as a double: the quotient and the
target. -/
def doubleTargetForDifficulty (baseTargetBI : Nat) (difficulty : ℚ) : Option (Nat × Text) :=
  (denom difficulty).map fun denom =>
    let targetBI := baseTargetBI * 10 ^ 6 / denom
    let bounded := min targetBI maxTarget
    (targetBI, padStart 64 (hexText (if bounded = 0 then 1 else bounded)))

/-- The product with a million is a number of sixty bits here, and its double is
sixty-four less. -/
theorem not_forall_faithful_doubles :
    ¬∀ (baseTargetBI : Nat) (difficulty : ℚ) (targetBI : Nat) (target : Text),
      0 < difficulty →
      doubleTargetForDifficulty baseTargetBI difficulty = some (targetBI, target) →
      1 ≤ targetBI → targetBI ≤ maxTarget →
      |hexNumber target * difficulty - baseTargetBI| ≤
        difficulty + baseTargetBI * (1 / 10 ^ 6 / difficulty) := by
  intro faithful
  have computed : doubleTargetForDifficulty (2 ^ 255) 576460752305 =
      some (2 ^ 255 * 10 ^ 6 / 576460752304999936,
        padStart 64 (hexText (2 ^ 255 * 10 ^ 6 / 576460752304999936))) := by
    decide +kernel
  have bound := faithful (2 ^ 255) 576460752305 _ _ (by norm_num) computed (by decide)
    (by decide)
  rw [hexNumber_padStart, hexNumber_hexText] at bound
  revert bound
  decide +kernel

/-- From some difficulty on, the product is infinite and there is no target. -/
example : doubleTargetForDifficulty (2 ^ 255) (2 ^ 1010) = none := by decide +kernel

end ZcashSoloPool.Stratum
