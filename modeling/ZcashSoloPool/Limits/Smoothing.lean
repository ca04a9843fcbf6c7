import Mathlib.Algebra.Order.Archimedean.Basic
import Mathlib.Algebra.Order.Field.Basic
import Mathlib.Tactic.Linarith
import Mathlib.Tactic.Ring

/-!
# Exponential smoothing

A value follows a series of observations: each of them moves it by a share of
the way.  It stays within any bounds of the observations, and where these are
one and the same its distance from them shrinks geometrically.
-/

namespace ZcashSoloPool.Limits

universe u

variable {K : Type u} [Field K]

/-- Move a value towards an observation by a share of the way. -/
def smooth (share observed value : K) : K :=
  share * observed + (1 - share) * value

theorem smooth_sub (share observed value : K) :
    smooth share observed value - observed = (1 - share) * (value - observed) := by
  unfold smooth
  ring

/-- The same observation again and again. -/
theorem iterate_smooth_sub (share observed value : K) (n : Nat) :
    (smooth share observed)^[n] value - observed = (1 - share) ^ n * (value - observed) := by
  induction n with
  | zero => simp
  | succ n ih =>
      rw [Function.iterate_succ_apply', smooth_sub, ih]
      ring

variable [LinearOrder K] [IsStrictOrderedRing K]

/-- The value stays within bounds that hold for it and for the observation. -/
theorem smooth_mem_Icc {share observed value low high : K} (nonneg : 0 ≤ share) (le_one : share ≤ 1)
    (observedIn : observed ∈ Set.Icc low high) (valueIn : value ∈ Set.Icc low high) :
    smooth share observed value ∈ Set.Icc low high := by
  have rest : 0 ≤ 1 - share := sub_nonneg.mpr le_one
  have lowParts := add_le_add (mul_le_mul_of_nonneg_left observedIn.1 nonneg)
    (mul_le_mul_of_nonneg_left valueIn.1 rest)
  have highParts := add_le_add (mul_le_mul_of_nonneg_left observedIn.2 nonneg)
    (mul_le_mul_of_nonneg_left valueIn.2 rest)
  constructor
  · calc low = share * low + (1 - share) * low := by ring
      _ ≤ smooth share observed value := lowParts
  · calc smooth share observed value ≤ share * high + (1 - share) * high := highParts
      _ = high := by ring

theorem smooth_pos {share observed value : K} (nonneg : 0 ≤ share) (le_one : share ≤ 1)
    (observedPos : 0 < observed) (valuePos : 0 < value) : 0 < smooth share observed value := by
  have least : 0 < min observed value := lt_min observedPos valuePos
  exact least.trans_le (smooth_mem_Icc nonneg le_one ⟨min_le_left _ _, le_max_left _ _⟩
    ⟨min_le_right _ _, le_max_right _ _⟩).1

/-- The value comes as close to the observation as is wanted. -/
theorem exists_iterate_smooth_sub_lt [Archimedean K] {share : K} (positive : 0 < share)
    (le_one : share ≤ 1) (observed value : K) {distance : K} (some_ : 0 < distance) :
    ∃ least, ∀ n ≥ least, |(smooth share observed)^[n] value - observed| < distance := by
  have nonneg : 0 ≤ 1 - share := sub_nonneg.mpr le_one
  have below : 1 - share < 1 := sub_lt_self 1 positive
  have scale : 0 < |value - observed| + 1 := by positivity
  obtain ⟨least, small⟩ := exists_pow_lt_of_lt_one (div_pos some_ scale) below
  refine ⟨least, fun n later => ?_⟩
  have power : (1 - share) ^ n ≤ (1 - share) ^ least := pow_le_pow_of_le_one nonneg below.le later
  rw [iterate_smooth_sub, abs_mul, abs_of_nonneg (pow_nonneg nonneg n)]
  calc (1 - share) ^ n * |value - observed|
      ≤ (1 - share) ^ least * (|value - observed| + 1) :=
        mul_le_mul power (by linarith) (abs_nonneg _) (pow_nonneg nonneg least)
    _ < distance := (lt_div_iff₀ scale).mp small

end ZcashSoloPool.Limits
