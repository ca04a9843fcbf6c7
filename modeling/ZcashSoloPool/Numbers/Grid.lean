import Mathlib.Algebra.Order.Floor.Semiring
import Mathlib.Algebra.Order.Floor.Ring
import Mathlib.Algebra.Order.Field.Basic
import Mathlib.Algebra.Order.Round
import Mathlib.Data.Nat.Log
import Mathlib.Tactic.Linarith
import Mathlib.Tactic.Positivity

/-!
# Rounding to leading digits

A number is rounded to a multiple of a unit, and the unit may depend on the
number.  Rounding keeps the order of numbers as long as a number where the unit
changes is a multiple of both units.  That is so if the unit is the place of one
of the leading digits.
-/

namespace ZcashSoloPool.Numbers

universe u

variable {F : Type u} [Field F] [LinearOrder F] [IsStrictOrderedRing F] [FloorRing F]

/-- The multiple of a unit that is next to a number, and the larger one of two. -/
def roundTo (unit x : F) : F :=
  round (x / unit) * unit

section Unit

variable {unit x y : F}

theorem roundTo_eq (unit x : F) : roundTo unit x = ⌊x / unit + 1 / 2⌋ * unit := by
  rw [roundTo, round_eq]

theorem roundTo_mono (positive : 0 < unit) (le : x ≤ y) : roundTo unit x ≤ roundTo unit y := by
  have scaled : x / unit ≤ y / unit := (div_le_div_iff_of_pos_right positive).mpr le
  have floors : ⌊x / unit + 1 / 2⌋ ≤ ⌊y / unit + 1 / 2⌋ := Int.floor_mono (by linarith)
  rw [roundTo_eq, roundTo_eq]
  exact mul_le_mul_of_nonneg_right (by exact_mod_cast floors) positive.le

theorem roundTo_intCast_mul (positive : 0 < unit) (n : ℤ) : roundTo unit (n * unit) = n * unit := by
  rw [roundTo, mul_div_cancel_right₀ _ positive.ne', round_intCast]

end Unit

/-- Units of positive size, with a multiple of both between two numbers of
different units. -/
structure IsScale (unit : F → F) : Prop where
  positive : ∀ x, 0 < unit x
  seam : ∀ x y, x ≤ y → unit x = unit y ∨
    ∃ m n : ℤ, x ≤ m * unit x ∧ (m * unit x : F) = n * unit y ∧ n * unit y ≤ y

theorem IsScale.roundTo_mono {unit : F → F} (scale : IsScale unit) {x y : F} (le : x ≤ y) :
    roundTo (unit x) x ≤ roundTo (unit y) y := by
  rcases scale.seam x y le with same | ⟨m, n, below, seam, above⟩
  · rw [← same]
    exact Numbers.roundTo_mono (scale.positive x) le
  · calc
      roundTo (unit x) x ≤ roundTo (unit x) (m * unit x) :=
        Numbers.roundTo_mono (scale.positive x) below
      _ = n * unit y := by rw [roundTo_intCast_mul (scale.positive x), seam]
      _ = roundTo (unit y) (n * unit y) := (roundTo_intCast_mul (scale.positive y) n).symm
      _ ≤ roundTo (unit y) y := Numbers.roundTo_mono (scale.positive y) above

/-! ## Leading digits -/

/-- The place of the last of some digits behind the first one, if there are that
many in front of the point, and else the place of the ones. -/
def place (base behind : ℕ) (x : F) : F :=
  base ^ (Nat.log base ⌊x⌋₊ - behind)

/-- A number with its leading digits only. -/
def leadingDigits (base behind : ℕ) (x : F) : F :=
  roundTo (place base behind x) x

section Leading

variable {base behind : ℕ} {x y : F}

theorem place_pos (large : 1 < base) (x : F) : 0 < place base behind x := by
  have positive : (0 : F) < base := by exact_mod_cast Nat.zero_lt_of_lt large
  exact pow_pos positive _

/-- The place by the bounds of the number. -/
theorem place_eq {e : ℕ} (large : 1 < base) (low : e = 0 ∨ (base : F) ^ (e + behind) ≤ x)
    (high : x < (base : F) ^ (e + behind + 1)) : place base behind x = (base : F) ^ e := by
  have least : ⌊x⌋₊ < base ^ (e + behind + 1) := by
    rw [Nat.floor_lt' (pow_ne_zero _ (Nat.ne_zero_of_lt large))]
    exact_mod_cast high
  have most := Nat.log_lt_of_lt_pow' (Nat.succ_ne_zero _) least
  rw [place]
  congr 1
  rcases low with rfl | low
  · omega
  · have reached : e + behind ≤ Nat.log base ⌊x⌋₊ := by
      have floor : base ^ (e + behind) ≤ ⌊x⌋₊ := by
        apply Nat.le_floor
        exact_mod_cast low
      exact Nat.le_log_of_pow_le large floor
    omega

theorem isScale_place (large : 1 < base) : IsScale (place (F := F) base behind) := by
  constructor
  · exact place_pos large
  · intro x y le
    have logs : Nat.log base ⌊x⌋₊ ≤ Nat.log base ⌊y⌋₊ := Nat.log_mono_right (Nat.floor_mono le)
    by_cases same : Nat.log base ⌊x⌋₊ - behind = Nat.log base ⌊y⌋₊ - behind
    · left
      rw [place, place, same]
    · right
      have shift : Nat.log base ⌊y⌋₊ =
          Nat.log base ⌊y⌋₊ - (Nat.log base ⌊x⌋₊ - behind) + (Nat.log base ⌊x⌋₊ - behind) := by
        omega
      have split : Nat.log base ⌊y⌋₊ = behind + (Nat.log base ⌊y⌋₊ - behind) := by omega
      -- The seam is the least number with as many digits as the larger one.
      have long : 0 < Nat.log base ⌊y⌋₊ := by omega
      have floor : ⌊y⌋₊ ≠ 0 := by
        intro zero
        rw [zero, Nat.log_zero_right] at long
        contradiction
      refine ⟨base ^ (Nat.log base ⌊y⌋₊ - (Nat.log base ⌊x⌋₊ - behind)), base ^ behind, ?_, ?_, ?_⟩
      · rw [place]
        push_cast
        rw [← pow_add, ← shift]
        have below : ⌊x⌋₊ < base ^ Nat.log base ⌊y⌋₊ :=
          Nat.lt_pow_of_log_lt large (by omega)
        have real : x < (base ^ Nat.log base ⌊y⌋₊ : ℕ) := (Nat.floor_lt' (by positivity)).mp below
        exact_mod_cast real.le
      · rw [place, place]
        push_cast
        rw [← pow_add, ← pow_add, ← shift, ← split]
      · rw [place]
        push_cast
        rw [← pow_add, ← split]
        have reached : base ^ Nat.log base ⌊y⌋₊ ≤ ⌊y⌋₊ := Nat.pow_log_le_self base floor
        have real := (Nat.le_floor_iff' (pow_ne_zero _ (Nat.ne_zero_of_lt large))).mp reached
        exact_mod_cast real

theorem leadingDigits_mono (large : 1 < base) (le : x ≤ y) :
    leadingDigits base behind x ≤ leadingDigits base behind y :=
  (isScale_place large).roundTo_mono le

theorem leadingDigits_zero (large : 1 < base) : leadingDigits base behind (0 : F) = 0 := by
  have rounded := roundTo_intCast_mul (@place_pos F _ _ _ _ base behind large 0) 0
  rw [Int.cast_zero, zero_mul] at rounded
  exact rounded

/-- What is left of a number is positive if the number is at least one half. -/
theorem leadingDigits_pos_iff (large : 1 < base) (nonneg : 0 ≤ x) :
    0 < leadingDigits base behind x ↔ 1 / 2 ≤ x := by
  have first : ∀ z : F, z < 1 → leadingDigits base behind z = (⌊z + 1 / 2⌋ : ℤ) := by
    intro z small
    have one : (1 : F) ≤ (base : F) ^ (0 + behind + 1) :=
      one_le_pow₀ (by exact_mod_cast large.le)
    have ones : place base behind z = 1 :=
      (place_eq large (Or.inl rfl) (small.trans_le one)).trans (pow_zero _)
    rw [leadingDigits, roundTo_eq, ones, div_one, mul_one]
  constructor
  · intro positive
    by_contra small
    rw [first x (by linarith), Int.floor_eq_zero_iff.mpr ⟨by linarith, by linarith⟩] at positive
    simp at positive
  · intro half
    have least : leadingDigits base behind (1 / 2 : F) = 1 := by
      rw [first _ (by linarith), add_halves, Int.floor_one, Int.cast_one]
    calc
      (0 : F) < 1 := one_pos
      _ = leadingDigits base behind (1 / 2 : F) := least.symm
      _ ≤ leadingDigits base behind x := leadingDigits_mono large half

end Leading

end ZcashSoloPool.Numbers
