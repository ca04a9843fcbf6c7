import Mathlib.Data.Rat.Floor
import Mathlib.Tactic.FieldSimp
import ZcashSoloPool.WorkManager.Quality

/-!
# Numbers and their texts

`Number` on strings and `toFixed`, in exact arithmetic.  What `toFixed` writes
is a decimal, and `Number` reads a decimal up to the first character that
cannot continue it.
-/

namespace ZcashSoloPool.Dashboard

open ZcashSoloPool.Bytes
open ZcashSoloPool.JavaScript
open ZcashSoloPool.WorkManager

/-! ## `Number` -/

/-- An exponent behind a decimal, or nothing. -/
def exponentPart : Text → Option ℤ
  | [] => some 0
  | mark :: rest =>
      if mark = 'e' ∨ mark = 'E' then
        match rest with
        | '-' :: digits => (digitsNumber digits).map fun n => -(n : ℤ)
        | '+' :: digits => (digitsNumber digits).map Nat.cast
        | digits => (digitsNumber digits).map Nat.cast
      else none

/-- Digits before and behind the point as a number. -/
def decimalValue (whole frac : Text) : ℚ :=
  (Nat.ofDigitChars 10 whole 0 : ℚ) + (Nat.ofDigitChars 10 frac 0 : ℚ) / 10 ^ frac.length

/-- The digits behind a point, and what comes after them. -/
def splitFraction : Text → Text × Text
  | '.' :: behind => (behind.takeWhile Char.isDigit, behind.dropWhile Char.isDigit)
  | rest => ([], rest)

/-- A decimal without a sign: digits on at least one side of the point, and an
exponent. -/
def unsignedDecimal (text : Text) : Option ℚ :=
  let whole := text.takeWhile Char.isDigit
  let (frac, rest) := splitFraction (text.dropWhile Char.isDigit)
  if whole.isEmpty && frac.isEmpty then none
  else (exponentPart rest).map fun exponent => decimalValue whole frac * (10 : ℚ) ^ exponent

/-- The base that a letter behind a zero announces. -/
def radixBase (mark : Char) : Option Nat :=
  if mark = 'x' ∨ mark = 'X' then some 16
  else if mark = 'o' ∨ mark = 'O' then some 8
  else if mark = 'b' ∨ mark = 'B' then some 2
  else none

/-- The digits behind `0x`, `0o` or `0b`, with their base. -/
def radixDigits : Text → Option (Nat × Text)
  | '0' :: mark :: digits => (radixBase mark).map fun base => (base, digits)
  | _ => none

/-- Number spelled by digits of a base. -/
def radixNumber (base : Nat) (digits : Text) : Option Nat :=
  if digits.isEmpty then none
  else digits.foldlM (fun n c => ((hexValue c).filter (· < base)).map (base * n + ·)) 0

/-- `Number(_)` of a string in exact arithmetic; `none` stands for `NaN` and for
the word `Infinity`.  A number beyond the doubles keeps its value here. -/
def numberOfText (text : Text) : Option ℚ :=
  let source := trim text
  match radixDigits source with
  | some (base, digits) => (radixNumber base digits).map Nat.cast
  | none =>
      match source with
      | [] => some 0
      | '-' :: rest => (unsignedDecimal rest).map fun n => -n
      | '+' :: rest => unsignedDecimal rest
      | _ => unsignedDecimal source

/-! ## Decimals -/

/-- Digits, and behind a point more of them or no point. -/
structure Decimal where
  whole : Text
  frac : Text
  whole_ne_nil : whole ≠ []
  isDigit_whole : ∀ c ∈ whole, c.isDigit = true
  isDigit_frac : ∀ c ∈ frac, c.isDigit = true

namespace Decimal

/-- The point with the digits behind it. -/
def fraction (decimal : Decimal) : Text :=
  if decimal.frac.isEmpty then [] else '.' :: decimal.frac

/-- A decimal as text. -/
def text (decimal : Decimal) : Text :=
  decimal.whole ++ decimal.fraction

/-- The number of a decimal. -/
def value (decimal : Decimal) : ℚ :=
  decimalValue decimal.whole decimal.frac

end Decimal

/-- No digit, point or letter of a base comes first, so that a decimal in front
ends there. -/
def Ends (rest : Text) : Prop :=
  ∀ c ∈ rest.head?, c.isDigit = false ∧ c ≠ '.' ∧ radixBase c = none

theorem not_isSpace_of_isDigit {c : Char} (digit : c.isDigit = true) : ¬isSpace c = true := by
  intro space
  have bounds : c.toNat ≤ 57 := by
    rw [Char.isDigit, Bool.and_eq_true, decide_eq_true_eq, decide_eq_true_eq] at digit
    exact digit.2
  rw [isSpace, Bool.or_eq_true, decide_eq_true_eq, Bool.and_eq_true, decide_eq_true_eq] at space
  rcases space with listed | ⟨far, _⟩
  · have none : (['\t', '\n', '\u000b', '\u000c', '\r', ' ', '\u00a0', '\u1680', '\u2028',
        '\u2029', '\u202f', '\u205f', '\u3000', '\ufeff'].all fun c => !c.isDigit) = true := by
      decide
    have notDigit := List.all_eq_true.mp none c listed
    rw [digit] at notDigit
    contradiction
  · have farther : 8192 ≤ c.toNat := far
    omega

theorem radixBase_of_isDigit {c : Char} (digit : c.isDigit = true) : radixBase c = none := by
  have letters : (['x', 'X', 'o', 'O', 'b', 'B'].all fun c => !c.isDigit) = true := by decide
  have listed : c ∉ ['x', 'X', 'o', 'O', 'b', 'B'] := by
    intro member
    have notDigit := List.all_eq_true.mp letters c member
    rw [digit] at notDigit
    contradiction
  simp only [List.mem_cons, List.not_mem_nil, or_false, not_or] at listed
  simp [radixBase, listed]

/-- Digits in front of something else are told apart from it. -/
theorem span_digits {digits rest : Text} (isDigit : ∀ c ∈ digits, c.isDigit = true)
    (stop : ∀ c ∈ rest.head?, c.isDigit = false) :
    (digits ++ rest).takeWhile Char.isDigit = digits ∧
      (digits ++ rest).dropWhile Char.isDigit = rest := by
  rw [List.takeWhile_append_of_pos isDigit, List.dropWhile_append_of_pos isDigit]
  cases rest with
  | nil => exact ⟨List.append_nil _, rfl⟩
  | cons c rest =>
      have notDigit : ¬c.isDigit = true := by
        rw [stop c rfl]
        exact Bool.false_ne_true
      rw [List.takeWhile_cons_of_neg notDigit, List.dropWhile_cons_of_neg notDigit]
      exact ⟨List.append_nil _, rfl⟩

namespace Decimal

variable (decimal : Decimal) {rest : Text}

theorem splitFraction_append (ends : Ends rest) :
    splitFraction (decimal.fraction ++ rest) = (decimal.frac, rest) := by
  unfold fraction
  cases frac : decimal.frac with
  | nil =>
      change splitFraction rest = _
      unfold splitFraction
      split
      · exact absurd rfl (ends '.' rfl).2.1
      · rfl
  | cons c more =>
      have isDigit := decimal.isDigit_frac
      rw [frac] at isDigit
      obtain ⟨taken, dropped⟩ := span_digits isDigit fun c head => (ends c head).1
      exact Prod.ext taken dropped

theorem span_text_append (ends : Ends rest) :
    (decimal.text ++ rest).takeWhile Char.isDigit = decimal.whole ∧
      (decimal.text ++ rest).dropWhile Char.isDigit = decimal.fraction ++ rest := by
  rw [text, List.append_assoc]
  apply span_digits decimal.isDigit_whole
  intro c head
  unfold fraction at head
  split at head
  · exact (ends c head).1
  · cases head
    rfl

theorem unsignedDecimal_append (ends : Ends rest) :
    unsignedDecimal (decimal.text ++ rest) =
      (exponentPart rest).map fun exponent => decimal.value * (10 : ℚ) ^ exponent := by
  have notEmpty : decimal.whole.isEmpty = false :=
    List.isEmpty_eq_false_iff.mpr decimal.whole_ne_nil
  obtain ⟨taken, dropped⟩ := decimal.span_text_append ends
  rw [unsignedDecimal, taken, dropped, decimal.splitFraction_append ends]
  dsimp only
  rw [notEmpty]
  rfl

/-- A decimal begins with a digit and does not begin another notation. -/
theorem exists_text_append (ends : Ends rest) :
    ∃ first second, decimal.text ++ rest = first :: second ∧ first.isDigit = true ∧
      ∀ c ∈ second.head?, radixBase c = none := by
  have isDigit := decimal.isDigit_whole
  rw [text, List.append_assoc]
  cases whole : decimal.whole with
  | nil => exact absurd whole decimal.whole_ne_nil
  | cons first more =>
      rw [whole] at isDigit
      refine ⟨first, _, rfl, isDigit first List.mem_cons_self, fun c head => ?_⟩
      cases more with
      | cons second _ =>
          cases head
          exact radixBase_of_isDigit (isDigit c (List.mem_cons_of_mem _ List.mem_cons_self))
      | nil =>
          unfold fraction at head
          split at head
          · exact (ends c head).2.2
          · cases head
            rfl

theorem not_isSpace_of_mem_text {c : Char} (member : c ∈ decimal.text) : ¬isSpace c = true := by
  rcases List.mem_append.mp member with before | behind
  · exact not_isSpace_of_isDigit (decimal.isDigit_whole c before)
  · unfold fraction at behind
    split at behind
    · contradiction
    · rcases List.mem_cons.mp behind with rfl | digit
      · decide
      · exact not_isSpace_of_isDigit (decimal.isDigit_frac c digit)

theorem trim_text_append (ends : Ends rest) (last : ∀ c ∈ rest.getLast?, ¬isSpace c = true) :
    trim (decimal.text ++ rest) = decimal.text ++ rest := by
  obtain ⟨first, second, split, digit, _⟩ := decimal.exists_text_append ends
  refine trim_of_ends (fun c head => ?_) fun c ending => ?_
  · rw [split] at head
    cases head
    exact not_isSpace_of_isDigit digit
  · rw [List.getLast?_append] at ending
    cases lastOfRest : rest.getLast? with
    | some other =>
        rw [lastOfRest] at ending
        cases ending
        exact last c lastOfRest
    | none =>
        rw [lastOfRest] at ending
        exact decimal.not_isSpace_of_mem_text (List.mem_of_mem_getLast? ending)

theorem numberOfText_append (ends : Ends rest) (last : ∀ c ∈ rest.getLast?, ¬isSpace c = true) :
    numberOfText (decimal.text ++ rest) =
      (exponentPart rest).map fun exponent => decimal.value * (10 : ℚ) ^ exponent := by
  rw [numberOfText, decimal.trim_text_append ends last, ← decimal.unsignedDecimal_append ends]
  obtain ⟨first, second, split, digit, letter⟩ := decimal.exists_text_append ends
  rw [split]
  have noRadix : radixDigits (first :: second) = none := by
    unfold radixDigits
    split
    · next mark _ beginning =>
        cases beginning
        rw [letter mark rfl]
        rfl
    · rfl
  rw [noRadix]
  dsimp only
  split
  · contradiction
  · next sign =>
      cases sign
      contradiction
  · next sign =>
      cases sign
      contradiction
  · rfl

theorem numberOfText_text : numberOfText decimal.text = some decimal.value := by
  have read : numberOfText (decimal.text ++ []) = _ := decimal.numberOfText_append nofun nofun
  rw [List.append_nil] at read
  rw [read, exponentPart, Option.map_some, zpow_zero, mul_one]

end Decimal

/-! ## `toFixed` -/

/-- A decimal with an exponent that is not negative. -/
def Exponential (text : Text) : Prop :=
  ∃ (decimal : Decimal) (digits : Text), text = decimal.text ++ 'e' :: '+' :: digits ∧
    digits ≠ [] ∧ ∀ c ∈ digits, c.isDigit = true

/-- `String(_)` of numbers, as far as `toFixed` depends on it: from 10^21 on the
text has an exponent. -/
structure NumberFormat where
  text : ℚ → Text
  exponential : ∀ x, 10 ^ 21 ≤ x → Exponential (text x)

/-- `toFixed` of a number that is not negative.  Of two candidates that are
equally close the larger is written. -/
def toFixedUnsigned (format : NumberFormat) (x : ℚ) (fractionDigits : Nat) : Text :=
  if 10 ^ 21 ≤ x then format.text x
  else
    let n := ⌊x * 10 ^ fractionDigits + 1 / 2⌋₊
    if fractionDigits = 0 then Nat.toDigits 10 n
    else
      Nat.toDigits 10 (n / 10 ^ fractionDigits) ++
        '.' :: padStart fractionDigits (Nat.toDigits 10 (n % 10 ^ fractionDigits))

/-- `toFixed`. -/
def toFixed (format : NumberFormat) (x : ℚ) (fractionDigits : Nat) : Text :=
  if x < 0 then '-' :: toFixedUnsigned format (-x) fractionDigits
  else toFixedUnsigned format x fractionDigits

theorem isDigit_of_mem_toDigits {n : Nat} {c : Char} (member : c ∈ Nat.toDigits 10 n) :
    c.isDigit = true :=
  Nat.isDigit_of_mem_toDigits (by decide) (Nat.le_refl 10) member

/-- The nearest number with these digits behind the point. -/
def fixed (n fractionDigits : Nat) : Decimal where
  whole := Nat.toDigits 10 (n / 10 ^ fractionDigits)
  frac :=
    if fractionDigits = 0 then []
    else padStart fractionDigits (Nat.toDigits 10 (n % 10 ^ fractionDigits))
  whole_ne_nil := Nat.toDigits_ne_nil
  isDigit_whole := fun _ member => isDigit_of_mem_toDigits member
  isDigit_frac := by
    intro c member
    split at member
    · contradiction
    · rcases List.mem_append.mp member with zero | digit
      · rw [(List.mem_replicate.mp zero).2]
        rfl
      · exact isDigit_of_mem_toDigits digit

theorem value_fixed (n fractionDigits : Nat) :
    (fixed n fractionDigits).value = n / 10 ^ fractionDigits := by
  have positive : (10 ^ fractionDigits : ℚ) ≠ 0 := pow_ne_zero _ (by norm_num)
  have recompose := Nat.div_add_mod n (10 ^ fractionDigits)
  have bound := Nat.mod_lt n (Nat.pow_pos (n := fractionDigits) (show 0 < 10 by decide))
  rw [Decimal.value, decimalValue, fixed, Nat.ofDigitChars_ten_toDigits]
  dsimp only
  split
  · next none =>
      rw [none, Nat.pow_zero, Nat.div_one]
      simp
  · next some =>
      have short : (Nat.toDigits 10 (n % 10 ^ fractionDigits)).length ≤ fractionDigits :=
        (Nat.length_toDigits_le_iff (by decide) (Nat.pos_of_ne_zero some)).mpr bound
      rw [length_padStart, max_eq_left short, padStart, Nat.ofDigitChars_append,
        Nat.ofDigitChars_replicate_zero, Nat.mul_zero, Nat.ofDigitChars_ten_toDigits]
      conv_rhs => rw [← recompose]
      push_cast
      field_simp

theorem text_fixed (n fractionDigits : Nat) :
    (if fractionDigits = 0 then Nat.toDigits 10 n
      else Nat.toDigits 10 (n / 10 ^ fractionDigits) ++
        '.' :: padStart fractionDigits (Nat.toDigits 10 (n % 10 ^ fractionDigits))) =
      (fixed n fractionDigits).text := by
  rw [Decimal.text, Decimal.fraction, fixed]
  dsimp only
  split
  · next none =>
      rw [none, Nat.pow_zero, Nat.div_one]
      exact (List.append_nil _).symm
  · next some =>
      have notEmpty : (padStart fractionDigits
          (Nat.toDigits 10 (n % 10 ^ fractionDigits))).isEmpty = false := by
        rw [List.isEmpty_eq_false_iff, padStart]
        exact List.append_ne_nil_of_right_ne_nil _ Nat.toDigits_ne_nil
      rw [notEmpty]
      rfl

/-- What `toFixed` writes is a decimal within half a unit of its last digit. -/
theorem exists_toFixed_eq (format : NumberFormat) {x : ℚ} (nonneg : 0 ≤ x) (small : x < 10 ^ 21)
    (fractionDigits : Nat) :
    ∃ decimal : Decimal, toFixed format x fractionDigits = decimal.text ∧
      |decimal.value - x| ≤ 1 / 2 / 10 ^ fractionDigits := by
  let n := ⌊x * 10 ^ fractionDigits + 1 / 2⌋₊
  refine ⟨fixed n fractionDigits, ?_, ?_⟩
  · rw [toFixed, if_neg (not_lt.mpr nonneg), toFixedUnsigned, if_neg (not_le.mpr small)]
    exact text_fixed n fractionDigits
  · have scale : (0 : ℚ) < 10 ^ fractionDigits := pow_pos (by norm_num) _
    have scaled : 0 ≤ x * 10 ^ fractionDigits + 1 / 2 := by positivity
    have below : (n : ℚ) ≤ x * 10 ^ fractionDigits + 1 / 2 := Nat.floor_le scaled
    have above : x * 10 ^ fractionDigits + 1 / 2 < n + 1 := Nat.lt_floor_add_one _
    rw [value_fixed, div_sub' scale.ne', abs_div, abs_of_pos scale,
      div_le_div_iff_of_pos_right scale, abs_le]
    constructor
    · linarith
    · linarith

end ZcashSoloPool.Dashboard
