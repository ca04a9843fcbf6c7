import ZcashSoloPool.WorkManager.ValidateShare
import Mathlib.Data.List.TakeWhile
import Mathlib.Data.Rat.Defs
import Mathlib.Algebra.Order.Field.Basic
import Mathlib.Algebra.Order.Ring.Rat
import Mathlib.Tactic.FieldSimp
import Mathlib.Tactic.Ring
import Mathlib.Tactic.Linarith

/-!
# Qualities as numbers

The work manager reports the quality of a share as decimal text, and the pool
reads that text back as a number.  What is read is the quotient cut off after
six places.
-/

namespace ZcashSoloPool.WorkManager

open ZcashSoloPool.JavaScript

/-! ## Decimal text -/

/-- Number spelled by decimal digits, if there are any and nothing else. -/
def digitsNumber (text : Text) : Option Nat :=
  if !text.isEmpty && text.all Char.isDigit then some (Nat.ofDigitChars 10 text 0) else none

/-- `Number(_)` of digits with at most one point between them; `none` stands
for `NaN`. -/
def decimalNumber (text : Text) : Option ℚ :=
  match text.dropWhile (· != '.') with
  | [] => (digitsNumber text).map Nat.cast
  | _ :: frac =>
      match digitsNumber (text.takeWhile (· != '.')), digitsNumber frac with
      | some whole, some part => some (whole + part / 10 ^ frac.length)
      | _, _ => none

/-- `parsePositiveNumber` of the pool. -/
def parsePositiveNumber (value : Option ℚ) : Option ℚ :=
  value.filter fun n => decide (0 < n)

theorem digitsNumber_toDigits (n : Nat) : digitsNumber (Nat.toDigits 10 n) = some n := by
  have digits : (Nat.toDigits 10 n).all Char.isDigit = true :=
    List.all_eq_true.mpr fun _ member =>
      Nat.isDigit_of_mem_toDigits (by decide) (Nat.le_refl 10) member
  rw [digitsNumber, digits]
  simp

theorem ne_point_of_isDigit {c : Char} (digit : c.isDigit = true) : (c != '.') = true := by
  rw [bne_iff_ne]
  rintro rfl
  contradiction

/-- Digits without a point are read as a whole number. -/
theorem decimalNumber_toDigits (n : Nat) : decimalNumber (Nat.toDigits 10 n) = some (n : ℚ) := by
  have noPoint : (Nat.toDigits 10 n).dropWhile (· != '.') = [] :=
    List.dropWhile_eq_nil_iff.mpr fun _ member => ne_point_of_isDigit
      (Nat.isDigit_of_mem_toDigits (by decide) (Nat.le_refl 10) member)
  rw [decimalNumber, noPoint, digitsNumber_toDigits]
  rfl

/-- A whole part, a point and digits behind it. -/
theorem decimalNumber_point (whole : Nat) {frac : Text} {part : Nat}
    (fraction : digitsNumber frac = some part) :
    decimalNumber (Nat.toDigits 10 whole ++ '.' :: frac) =
      some ((whole : ℚ) + part / 10 ^ frac.length) := by
  have digits : ∀ c ∈ Nat.toDigits 10 whole, (c != '.') = true := fun _ member =>
    ne_point_of_isDigit (Nat.isDigit_of_mem_toDigits (by decide) (Nat.le_refl 10) member)
  have behind : (Nat.toDigits 10 whole ++ '.' :: frac).dropWhile (· != '.') = '.' :: frac := by
    rw [List.dropWhile_append_of_pos digits]
    rfl
  have before : (Nat.toDigits 10 whole ++ '.' :: frac).takeWhile (· != '.') =
      Nat.toDigits 10 whole := by
    rw [List.takeWhile_append_of_pos digits]
    simp
  rw [decimalNumber, behind]
  simp only [before, digitsNumber_toDigits, fraction]

/-! ## Trailing zeros -/

/-- `replace(/0+$/, "")`. -/
def stripZeros (text : Text) : Text :=
  (text.reverse.dropWhile (· == '0')).reverse

theorem exists_stripZeros (text : Text) :
    ∃ zeros, text = stripZeros text ++ List.replicate zeros '0' := by
  have split := List.takeWhile_append_dropWhile (p := (· == '0')) (l := text.reverse)
  have zeros : text.reverse.takeWhile (· == '0') =
      List.replicate (text.reverse.takeWhile (· == '0')).length '0' := by
    refine List.eq_replicate_iff.mpr ⟨rfl, fun c member => ?_⟩
    have isZero := List.mem_takeWhile_imp member
    exact beq_iff_eq.mp isZero
  refine ⟨(text.reverse.takeWhile (· == '0')).length, ?_⟩
  have reversed := congrArg List.reverse split
  rw [zeros, List.reverse_append, List.reverse_replicate, List.reverse_reverse] at reversed
  exact reversed.symm

/-- Zeros at the end do not change the value of a fraction. -/
theorem fraction_stripZeros (text : Text) :
    (Nat.ofDigitChars 10 (stripZeros text) 0 : ℚ) / 10 ^ (stripZeros text).length =
      Nat.ofDigitChars 10 text 0 / 10 ^ text.length := by
  rcases exists_stripZeros text with ⟨zeros, split⟩
  conv_rhs => rw [split]
  rw [Nat.ofDigitChars_append, Nat.ofDigitChars_replicate_zero, List.length_append,
    List.length_replicate, pow_add]
  push_cast
  field_simp

/-- The digits behind the point, padded and stripped of zeros at the end. -/
theorem exists_digitsNumber_frac {frac decimals : Nat} (positive : frac ≠ 0)
    (bound : frac < 10 ^ decimals) :
    ∃ part, digitsNumber (stripZeros (padStart decimals (Nat.toDigits 10 frac))) = some part ∧
      (part : ℚ) / 10 ^ (stripZeros (padStart decimals (Nat.toDigits 10 frac))).length =
        frac / 10 ^ decimals := by
  have some : 0 < decimals := by
    rcases Nat.eq_zero_or_pos decimals with rfl | some
    · omega
    · exact some
  have short : (Nat.toDigits 10 frac).length ≤ decimals :=
    (Nat.length_toDigits_le_iff (by decide) some).mpr bound
  have value : Nat.ofDigitChars 10 (padStart decimals (Nat.toDigits 10 frac)) 0 = frac := by
    rw [padStart, Nat.ofDigitChars_append, Nat.ofDigitChars_replicate_zero, Nat.mul_zero,
      Nat.ofDigitChars_ten_toDigits]
  have fraction := fraction_stripZeros (padStart decimals (Nat.toDigits 10 frac))
  rw [value, length_padStart, max_eq_left short] at fraction
  refine ⟨_, if_pos ?_, fraction⟩
  rcases exists_stripZeros (padStart decimals (Nat.toDigits 10 frac)) with ⟨zeros, split⟩
  rw [Bool.and_eq_true_iff, Bool.not_eq_true', List.isEmpty_eq_false_iff, List.all_eq_true]
  constructor
  · intro empty
    rw [empty, List.nil_append] at split
    rw [split, Nat.ofDigitChars_replicate_zero, Nat.mul_zero] at value
    exact positive value.symm
  · intro c member
    have inside : c ∈ padStart decimals (Nat.toDigits 10 frac) := by
      rw [split]
      exact List.mem_append_left _ member
    rcases List.mem_append.mp inside with zero | digit
    · rw [(List.mem_replicate.mp zero).2]
      rfl
    · exact Nat.isDigit_of_mem_toDigits (by decide) (Nat.le_refl 10) digit

/-- The text of a quotient is read as the quotient cut off after its last
place. -/
theorem decimalNumber_ratioToDecimalString (numerator denominator decimals : Nat) :
    decimalNumber (ratioToDecimalString numerator denominator decimals) =
      some (((numerator * 10 ^ decimals / denominator : Nat) : ℚ) / 10 ^ decimals) := by
  unfold ratioToDecimalString
  split
  · next zero =>
      have cut : numerator * 10 ^ decimals / denominator = 0 := by
        rcases zero with rfl | rfl
        · exact Nat.div_zero _
        · rw [Nat.zero_mul, Nat.zero_div]
      rw [cut, Nat.cast_zero, zero_div]
      exact decimalNumber_toDigits 0
  · have recompose := Nat.div_add_mod (numerator * 10 ^ decimals / denominator) (10 ^ decimals)
    have positive : (10 ^ decimals : ℚ) ≠ 0 := pow_ne_zero _ (by norm_num)
    dsimp only
    split
    · next exact =>
        rw [decimalNumber_toDigits]
        rw [exact, Nat.add_zero] at recompose
        conv_rhs => rw [← recompose]
        push_cast
        field_simp
    · next rest =>
        have bound := Nat.mod_lt (numerator * 10 ^ decimals / denominator)
          (Nat.pow_pos (n := decimals) (show 0 < 10 by decide))
        obtain ⟨part, digits, fraction⟩ := exists_digitsNumber_frac rest bound
        rw [show ((padStart decimals _).reverse.dropWhile (· == '0')).reverse = stripZeros _ from rfl,
          decimalNumber_point _ digits, fraction]
        conv_rhs => rw [← recompose]
        push_cast
        field_simp

end ZcashSoloPool.WorkManager
