import ZcashSoloPool.WorkManager.ValidateShare
import Mathlib.Algebra.Order.Floor.Ring
import Mathlib.Algebra.Order.Floor.Semifield
import Mathlib.Tactic.FieldSimp
import Mathlib.Tactic.Positivity
import Mathlib.Tactic.Linarith
import Mathlib.Data.Rat.Floor

/-!
# Difficulties and targets

The stratum server gives every miner a difficulty between two bounds and the
target that belongs to it.  Difficulties are fractions here; the target is
computed from the difficulty rounded to six places.
-/

namespace ZcashSoloPool.Stratum

open ZcashSoloPool.Bytes
open ZcashSoloPool.JavaScript
open ZcashSoloPool.WorkManager

/-- The settings that `buildVardiffConfig` makes of any configuration. -/
structure VardiffConfig where
  enabled : Bool
  initialDifficulty : ℚ
  minDifficulty : ℚ
  maxDifficulty : ℚ
  targetTime : ℚ
  retargetTime : ℚ
  variancePercent : ℚ
  minSamples : ℚ
  initial_pos : 0 < initialDifficulty
  min_pos : 0 < minDifficulty
  max_pos : 0 < maxDifficulty
  targetTime_pos : 0 < targetTime
  retargetTime_pos : 0 < retargetTime
  variancePercent_nonneg : 0 ≤ variancePercent
  two_le_minSamples : 2 ≤ minSamples

/-- `clampDifficulty`. -/
def clampDifficulty (vardiff : VardiffConfig) (value : ℚ) : ℚ :=
  let low := min vardiff.minDifficulty vardiff.maxDifficulty
  let high := max vardiff.minDifficulty vardiff.maxDifficulty
  max low (min high (if value = 0 then vardiff.initialDifficulty else value))

theorem clampDifficulty_pos (vardiff : VardiffConfig) (value : ℚ) :
    0 < clampDifficulty vardiff value :=
  lt_max_of_lt_left (lt_min vardiff.min_pos vardiff.max_pos)

/-- `maxTarget`. -/
def maxTarget : Nat :=
  2 ^ 256 - 1

/-- The difficulty in millionths, as it divides the base target. -/
def millionths (difficulty : ℚ) : Nat :=
  (max 1 ⌊difficulty * 10 ^ 6 + 1 / 2⌋).toNat

/-- The quotient before it is bounded. -/
def scaledTarget (baseTargetBI : Nat) (difficulty : ℚ) : Nat :=
  baseTargetBI * 10 ^ 6 / millionths difficulty

/-- The target of a difficulty as a number. -/
def targetNumber (baseTargetBI : Nat) (difficulty : ℚ) : Nat :=
  let bounded := min (scaledTarget baseTargetBI difficulty) maxTarget
  if bounded = 0 then 1 else bounded

/-- `targetForDifficulty`. -/
def targetForDifficulty (baseTargetBI : Nat) (difficulty : ℚ) : Text :=
  padStart 64 (hexText (targetNumber baseTargetBI difficulty))

/-! ## Reading a target back -/

theorem millionths_pos (difficulty : ℚ) : 0 < millionths difficulty := by
  have atLeast : 1 ≤ max 1 ⌊difficulty * 10 ^ 6 + 1 / 2⌋ := le_max_left _ _
  rw [millionths]
  omega

theorem targetNumber_le (baseTargetBI : Nat) (difficulty : ℚ) :
    targetNumber baseTargetBI difficulty ≤ maxTarget := by
  rw [targetNumber]
  split
  · decide
  · exact min_le_right _ _

theorem length_hexText_le {n : Nat} (bound : n ≤ maxTarget) : (hexText n).length ≤ 64 := by
  refine (Nat.length_toDigits_le_iff (by decide) (by decide)).mpr ?_
  exact Nat.lt_of_le_of_lt bound (by decide)

theorem hexNumber_padStart (width : Nat) (text : Text) :
    hexNumber (padStart width text) = hexNumber text := by
  have zeros : hexNumber (List.replicate (width - text.length) '0') = 0 := by
    induction width - text.length with
    | zero => rfl
    | succ n ih =>
        rw [List.replicate_succ', hexNumber_append_singleton, ih]
        rfl
  rw [padStart, hexNumber, List.foldl_append]
  rw [hexNumber] at zeros
  rw [zeros]
  rfl

theorem hexNumber_targetForDifficulty (baseTargetBI : Nat) (difficulty : ℚ) :
    hexNumber (targetForDifficulty baseTargetBI difficulty) =
      targetNumber baseTargetBI difficulty := by
  rw [targetForDifficulty, hexNumber_padStart, hexNumber_hexText]

theorem isLowerHex_targetForDifficulty (baseTargetBI : Nat) (difficulty : ℚ) :
    IsLowerHex (targetForDifficulty baseTargetBI difficulty) :=
  isLowerHex_padStart (isLowerHex_hexText _) 64

theorem length_targetForDifficulty (baseTargetBI : Nat) (difficulty : ℚ) :
    (targetForDifficulty baseTargetBI difficulty).length = 64 := by
  rw [targetForDifficulty, length_padStart]
  exact max_eq_left (length_hexText_le (targetNumber_le baseTargetBI difficulty))

theorem targetForDifficulty_ne_nil (baseTargetBI : Nat) (difficulty : ℚ) :
    targetForDifficulty baseTargetBI difficulty ≠ [] := by
  rw [← List.length_pos_iff, length_targetForDifficulty]
  decide

/-- The work manager compares a share with the target of the client's
difficulty. -/
theorem bigIntOfHex_clientTargetHex {manager : WorkManager} {client : Client} {baseTargetBI : Nat}
    {difficulty : ℚ}
    (assigned : client.shareTarget = some (targetForDifficulty baseTargetBI difficulty)) :
    bigIntOfHex (clientTargetHex manager client) = some (targetNumber baseTargetBI difficulty) := by
  have lower := isLowerHex_targetForDifficulty baseTargetBI difficulty
  have length := length_targetForDifficulty baseTargetBI difficulty
  have nonempty := targetForDifficulty_ne_nil baseTargetBI difficulty
  rw [clientTargetHex, assigned, Value.ofText?, normalizeTarget_string lower length,
    Option.getD_some, bigIntOfHex_of_isLowerHex lower nonempty, hexNumber_targetForDifficulty]

/-! ## The difficulty of a share -/

theorem targetNumber_eq_scaledTarget {baseTargetBI : Nat} {difficulty : ℚ}
    (low : 1 ≤ scaledTarget baseTargetBI difficulty)
    (high : scaledTarget baseTargetBI difficulty ≤ maxTarget) :
    targetNumber baseTargetBI difficulty = scaledTarget baseTargetBI difficulty := by
  rw [targetNumber, min_eq_left high]
  exact if_neg (by omega)

/-- A quotient of natural numbers and its integer part. -/
theorem div_bracket (a b : Nat) :
    ((a / b : Nat) : ℚ) ≤ a / b ∧ (a : ℚ) / b < (a / b : Nat) + 1 := by
  rw [← Nat.floor_div_eq_div (K := ℚ) a b]
  exact ⟨Nat.floor_le (by positivity), Nat.lt_floor_add_one _⟩

/-- The difficulty times the quality of a hash is the base target divided by
the hash, up to the difficulty rounded to millionths, the target rounded down
and the quality cut after six places. -/
theorem bracket_difficulty_mul_quality {baseTargetBI hash : Nat} {difficulty : ℚ}
    (positive : 0 < difficulty) (low : 1 ≤ scaledTarget baseTargetBI difficulty)
    (high : scaledTarget baseTargetBI difficulty ≤ maxTarget) (nonzero : 0 < hash) :
    let quality : ℚ := (targetNumber baseTargetBI difficulty * 10 ^ 6 / hash : Nat) / 10 ^ 6
    let exact : ℚ := difficulty / (millionths difficulty / 10 ^ 6) * (baseTargetBI / hash)
    difficulty * quality ≤ exact ∧
      exact < difficulty * quality + difficulty * (1 / hash + 1 / 10 ^ 6) := by
  dsimp only
  rw [targetNumber_eq_scaledTarget low high]
  have hashPositive : (0 : ℚ) < hash := by exact_mod_cast nonzero
  have scalePositive : (0 : ℚ) < millionths difficulty := by
    exact_mod_cast millionths_pos difficulty
  have target := div_bracket (baseTargetBI * 10 ^ 6) (millionths difficulty)
  have quality := div_bracket (scaledTarget baseTargetBI difficulty * 10 ^ 6) hash
  rw [← scaledTarget] at target
  push_cast at target quality
  have regroup : difficulty / (millionths difficulty / 10 ^ 6) * ((baseTargetBI : ℚ) / hash) =
      difficulty * ((baseTargetBI * 10 ^ 6 / millionths difficulty) / hash) := by
    field_simp
  rw [regroup, ← mul_add]
  constructor
  · refine mul_le_mul_of_nonneg_left ?_ positive.le
    calc
      _ ≤ (scaledTarget baseTargetBI difficulty : ℚ) * 10 ^ 6 / hash / 10 ^ 6 := by
        gcongr
        exact quality.1
      _ = (scaledTarget baseTargetBI difficulty : ℚ) / hash := by field_simp
      _ ≤ _ := by
        gcongr
        exact target.1
  · refine mul_lt_mul_of_pos_left ?_ positive
    have cut : (scaledTarget baseTargetBI difficulty : ℚ) * 10 ^ 6 / hash / 10 ^ 6 <
        (((scaledTarget baseTargetBI difficulty * 10 ^ 6 / hash : Nat) : ℚ) + 1) / 10 ^ 6 := by
      gcongr
      exact quality.2
    calc
      (baseTargetBI * 10 ^ 6 / millionths difficulty : ℚ) / hash <
          ((scaledTarget baseTargetBI difficulty : ℚ) + 1) / hash := by
        gcongr
        exact target.2
      _ = (scaledTarget baseTargetBI difficulty : ℚ) * 10 ^ 6 / hash / 10 ^ 6 + 1 / hash := by
        field_simp
      _ < _ := by
        rw [add_div] at cut
        linarith

end ZcashSoloPool.Stratum
