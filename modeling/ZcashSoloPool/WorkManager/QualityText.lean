import ZcashSoloPool.WorkManager.Quality
import Mathlib.Algebra.Order.Floor.Semifield
import Mathlib.Data.Rat.Floor

/-!
# The text of a quality

The form of the decimal text that `ratioToDecimalString` writes, beside the
number that it is read as.  The zeros in front of a fraction survive the
padding and the zeros at its end do not, so the text has one point at most and
a digit other than zero at the end of what follows it.
-/

namespace ZcashSoloPool.WorkManager

open ZcashSoloPool.JavaScript

/-! ## What the text is -/

/-- The text reads as the quotient cut off after its last place, and a point in
it stands between digits, the last of them not a zero. -/
structure ExactText (numerator denominator decimals : Nat) (text : Text) : Prop where
  value : decimalNumber text =
    some ((⌊(numerator * 10 ^ decimals / denominator : ℚ)⌋₊ : ℚ) / 10 ^ decimals)
  point : ∀ whole frac, text = whole ++ '.' :: frac →
    whole ≠ [] ∧ ∃ front last, frac = front ++ [last] ∧ last ≠ '0'

/-- Both texts are read, the first as no more than the second. -/
def ReadsAtMost (first second : Text) : Prop :=
  ∃ small large, decimalNumber first = some small ∧ decimalNumber second = some large ∧
    small ≤ large

/-- The laws of the text with this many places. -/
structure ExactQuality (decimals : Nat) : Prop where
  text : ∀ numerator denominator, 0 < numerator → 0 < denominator →
    ExactText numerator denominator decimals (ratioToDecimalString numerator denominator decimals)
  monotone : ∀ small large denominator, 0 < small → 0 < denominator → small ≤ large →
    ReadsAtMost (ratioToDecimalString small denominator decimals)
      (ratioToDecimalString large denominator decimals)
  antitone : ∀ numerator small large, 0 < numerator → 0 < small → small ≤ large →
    ReadsAtMost (ratioToDecimalString numerator large decimals)
      (ratioToDecimalString numerator small decimals)
  atLeastOne : ∀ numerator denominator, 0 < denominator → denominator ≤ numerator →
    ∃ value, decimalNumber (ratioToDecimalString numerator denominator decimals) = some value ∧
      1 ≤ value

/-! ## The form -/

/-- What is left of a text without its zeros at the end does not end in one. -/
theorem exists_concat_stripZeros {text : Text} (nonempty : stripZeros text ≠ []) :
    ∃ front last, stripZeros text = front ++ [last] ∧ last ≠ '0' := by
  have kept := List.head?_dropWhile_not (· == '0') text.reverse
  unfold stripZeros at nonempty ⊢
  cases rest : text.reverse.dropWhile (· == '0') with
  | nil =>
      rw [rest] at nonempty
      contradiction
  | cons last front =>
      rw [rest] at kept
      exact ⟨front.reverse, last, List.reverse_cons, by simpa using kept⟩

/-- Text that is read as a number has no point. -/
theorem point_not_mem_of_digitsNumber {text : Text} {n : Nat}
    (digits : digitsNumber text = some n) : text ≠ [] ∧ '.' ∉ text := by
  unfold digitsNumber at digits
  split at digits
  · next checked =>
      rw [Bool.and_eq_true_iff, Bool.not_eq_true', List.isEmpty_eq_false_iff,
        List.all_eq_true] at checked
      refine ⟨checked.1, fun member => ?_⟩
      exact absurd (checked.2 '.' member) (by decide)
  · contradiction

/-- A positive quotient is written as its whole part alone, where nothing is
left of it, or with its last places behind a point. -/
theorem ratioToDecimalString_cases {numerator denominator : Nat} (numeratorPos : 0 < numerator)
    (denominatorPos : 0 < denominator) (decimals : Nat) :
    ∃ whole, ratioToDecimalString numerator denominator decimals = Nat.toDigits 10 whole ∨
      ∃ frac, frac ≠ 0 ∧ frac < 10 ^ decimals ∧
        ratioToDecimalString numerator denominator decimals = Nat.toDigits 10 whole ++
          '.' :: stripZeros (padStart decimals (Nat.toDigits 10 frac)) := by
  have positive : ¬(denominator = 0 ∨ numerator = 0) := by omega
  refine ⟨numerator * 10 ^ decimals / denominator / 10 ^ decimals, ?_⟩
  rw [ratioToDecimalString, if_neg positive]
  dsimp only
  split
  · exact Or.inl rfl
  · next rest => exact Or.inr ⟨_, rest, Nat.mod_lt _ (Nat.pow_pos (by decide)), rfl⟩

/-- A point in the text stands between digits, the last of them not a zero. -/
theorem point_ratioToDecimalString {numerator denominator : Nat} (numeratorPos : 0 < numerator)
    (denominatorPos : 0 < denominator) (decimals : Nat) {whole frac : Text}
    (split : ratioToDecimalString numerator denominator decimals = whole ++ '.' :: frac) :
    whole ≠ [] ∧ ∃ front last, frac = front ++ [last] ∧ last ≠ '0' := by
  obtain ⟨number, bare | ⟨rest, positive, bound, pointed⟩⟩ :=
    ratioToDecimalString_cases numeratorPos denominatorPos decimals
  · have noPoint := (point_not_mem_of_digitsNumber (digitsNumber_toDigits number)).2
    rw [← bare, split] at noPoint
    simp at noPoint
  · obtain ⟨part, digits, -⟩ := exists_digitsNumber_frac positive bound
    have wholeDigits := point_not_mem_of_digitsNumber (digitsNumber_toDigits number)
    have fracDigits := point_not_mem_of_digitsNumber digits
    rw [pointed] at split
    obtain ⟨rfl, -, rfl⟩ :=
      (List.append_cons_inj_of_notMem wholeDigits.2 fracDigits.2).mp split
    exact ⟨wholeDigits.1, exists_concat_stripZeros fracDigits.1⟩

/-! ## The laws -/

theorem readsAtMost_of_le {numerator denominator numerator' denominator' decimals : Nat}
    (ordered : numerator * 10 ^ decimals / denominator ≤
      numerator' * 10 ^ decimals / denominator') :
    ReadsAtMost (ratioToDecimalString numerator denominator decimals)
      (ratioToDecimalString numerator' denominator' decimals) := by
  refine ⟨_, _, decimalNumber_ratioToDecimalString _ _ _,
    decimalNumber_ratioToDecimalString _ _ _, ?_⟩
  gcongr

/-- Whatever the number of places, the text is exact, and it follows the order
of the quotients. -/
theorem exactQuality (decimals : Nat) : ExactQuality decimals where
  text := by
    intro numerator denominator numeratorPos denominatorPos
    constructor
    · have floor := Nat.floor_div_eq_div (K := ℚ) (numerator * 10 ^ decimals) denominator
      push_cast at floor
      rw [decimalNumber_ratioToDecimalString, floor]
    · intro whole frac split
      exact point_ratioToDecimalString numeratorPos denominatorPos decimals split
  monotone := by
    intro small large denominator _ _ ordered
    exact readsAtMost_of_le (Nat.div_le_div_right (Nat.mul_le_mul_right _ ordered))
  antitone := by
    intro numerator small large _ smallPos ordered
    exact readsAtMost_of_le (Nat.div_le_div_left ordered smallPos)
  atLeastOne := by
    intro numerator denominator denominatorPos ordered
    refine ⟨_, decimalNumber_ratioToDecimalString _ _ _, ?_⟩
    have scaled : 10 ^ decimals ≤ numerator * 10 ^ decimals / denominator := by
      rw [Nat.le_div_iff_mul_le denominatorPos, Nat.mul_comm]
      exact Nat.mul_le_mul_right _ ordered
    rw [one_le_div (by positivity)]
    exact_mod_cast scaled

example : ratioToDecimalString 1 3 6 = "0.333333".toList := by decide

example : ratioToDecimalString 2001 1000 6 = "2.001".toList := by decide

end ZcashSoloPool.WorkManager
