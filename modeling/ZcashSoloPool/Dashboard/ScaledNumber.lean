import ZcashSoloPool.Dashboard.NumberText

/-!
# Rates and difficulties as texts

The pool writes rates and difficulties with a unit, and the dashboard reads
numbers with a unit.  The two lists of units are not the same: the dashboard
knows neither `Sol/s` without a prefix nor `Z`.
-/

namespace ZcashSoloPool.Dashboard

open ZcashSoloPool.JavaScript
open ZcashSoloPool.WorkManager

/-! ## The dashboard -/

/-- The beginning of a text that matches `\d+(?:\.\d+)?`, and what follows. -/
def matchNumber (text : Text) : Option (Text × Text) :=
  let whole := text.takeWhile Char.isDigit
  let (frac, rest) := splitFraction (text.dropWhile Char.isDigit)
  if whole.isEmpty then none
  else if frac.isEmpty then some (whole, text.dropWhile Char.isDigit)
  else some (whole ++ '.' :: frac, rest)

/-- The letters of the regular expression. -/
def scaleLetters : Text :=
  "kKmMgGtTpPeE".toList

/-- The characters that may follow them. -/
def isSuffix (c : Char) : Bool :=
  c.isAlpha || c == '/'

/-- The sign that a text may begin with, and what follows. -/
def splitSign : Text → Text × Text
  | '-' :: rest => (['-'], rest)
  | rest => ([], rest)

/-- The letter of a text that matches `\s*([kKmMgGtTpPeE])(?:[a-zA-Z/]+)?` as a
whole. -/
def matchUnit (text : Text) : Option Char :=
  match text.dropWhile isSpace with
  | [] => none
  | letter :: suffix =>
      if scaleLetters.contains letter && suffix.all isSuffix then some letter else none

/-- `match(/^(-?\d+(?:\.\d+)?)\s*([kKmMgGtTpPeE])(?:[a-zA-Z/]+)?$/)`.  Digits,
spaces and letters are told apart by one character, so that no match is found by
going back. -/
def matchScaled (text : Text) : Option (Text × Char) :=
  let (sign, unsigned) := splitSign text
  (matchNumber unsigned).bind fun (number, rest) =>
    (matchUnit rest).map fun letter => (sign ++ number, letter)

/-- `{ k: 1, m: 2, g: 3, t: 4, p: 5, e: 6 }[_.toLowerCase()] || 0`. -/
def scalePower (letter : Char) : Nat :=
  match letter.toLower with
  | 'k' => 1
  | 'm' => 2
  | 'g' => 3
  | 't' => 4
  | 'p' => 5
  | 'e' => 6
  | _ => 0

/-- `parseScaledNumber` of a string. -/
def parseScaledNumber (value : Text) : Option ℚ :=
  if value.isEmpty then none
  else
    match numberOfText value with
    | some n => some n
    | none =>
        match matchScaled (trim value) with
        | none => none
        | some (number, letter) =>
            (numberOfText number).map fun n => n * 1000 ^ scalePower letter

/-! ## The pool -/

/-- The loop of the formatters, with the units that are left: the value and the
place of its unit. -/
def scaleDown : Nat → ℚ → Nat → ℚ × Nat
  | 0, value, i => (value, i)
  | left + 1, value, i => if value ≥ 1000 then scaleDown left (value / 1000) (i + 1) else (value, i)

/-- The units of rates. -/
def rateUnits : List Text :=
  ["Sol/s", "KSol/s", "MSol/s", "GSol/s", "TSol/s"].map String.toList

/-- The digits behind the point of a rate. -/
def ratePrecision (value : ℚ) : Nat :=
  if value ≥ 100 then 0 else if value ≥ 10 then 1 else 2

/-- `formatSolutionsRate`; `none` is no number. -/
def formatSolutionsRate (format : NumberFormat) (hashrate : Option ℚ) : Text :=
  let rate := (parsePositiveNumber hashrate).getD 0
  if rate ≤ 0 then "0 Sol/s".toList
  else
    let (value, i) := scaleDown (rateUnits.length - 1) rate 0
    toFixed format value (ratePrecision value) ++ ' ' :: rateUnits.getD i []

/-- The units of difficulties. -/
def difficultyUnits : List Text :=
  ["K", "M", "G", "T", "P", "E", "Z"].map String.toList

/-- The digits behind the point of a difficulty. -/
def difficultyPrecision (value : ℚ) : Nat :=
  if value ≥ 100 then 1 else if value ≥ 10 then 2 else 3

/-- `formatDifficulty`; `none` is no finite number. -/
def formatDifficulty (format : NumberFormat) (value : Option ℚ) : Text :=
  match value with
  | none => "n/a".toList
  | some n =>
      if n = 0 then "0K".toList
      else
        let sign := if n < 0 then ['-'] else []
        let (v, i) := scaleDown (difficultyUnits.length - 1) (|n| / 1000) 0
        sign ++ toFixed format v (difficultyPrecision v) ++ difficultyUnits.getD i []

/-! ## Reading a decimal with a unit -/

/-- A unit as it follows a decimal: it neither continues the number nor ends in
white space. -/
structure FollowsNumber (rest : Text) : Prop where
  ne_nil : rest ≠ []
  ends : Ends rest
  last : ∀ c ∈ rest.getLast?, ¬isSpace c = true
  noExponent : exponentPart rest = none

theorem matchNumber_append (decimal : Decimal) {rest : Text} (ends : Ends rest) :
    matchNumber (decimal.text ++ rest) = some (decimal.text, rest) := by
  have notEmpty : decimal.whole.isEmpty = false :=
    List.isEmpty_eq_false_iff.mpr decimal.whole_ne_nil
  obtain ⟨taken, dropped⟩ := decimal.span_text_append ends
  rw [matchNumber, taken, dropped, decimal.splitFraction_append ends]
  dsimp only
  rw [notEmpty, if_neg Bool.false_ne_true, Decimal.text, Decimal.fraction]
  split
  · rw [List.nil_append, List.append_nil]
  · rfl

theorem splitSign_append (decimal : Decimal) {rest : Text} (ends : Ends rest) :
    splitSign (decimal.text ++ rest) = ([], decimal.text ++ rest) := by
  obtain ⟨first, second, split, digit, _⟩ := decimal.exists_text_append ends
  rw [split]
  unfold splitSign
  split
  · next sign =>
      cases sign
      contradiction
  · rfl

theorem matchScaled_append (decimal : Decimal) {rest : Text} (ends : Ends rest) :
    matchScaled (decimal.text ++ rest) =
      (matchUnit rest).map fun letter => (decimal.text, letter) := by
  rw [matchScaled, splitSign_append decimal ends]
  dsimp only
  rw [matchNumber_append decimal ends]
  rfl

/-- A text that can follow a number, by its first and its last character. -/
def canFollow (rest : Text) : Bool :=
  match rest.head?, rest.getLast? with
  | some first, some last =>
      !first.isDigit && first != '.' && (radixBase first).isNone && !isSpace last &&
        (exponentPart rest).isNone
  | _, _ => false

theorem followsNumber_of_canFollow {rest : Text} (test : canFollow rest = true) :
    FollowsNumber rest := by
  unfold canFollow at test
  split at test
  · next first last head ending =>
      simp only [Bool.and_eq_true, Bool.not_eq_true', bne_iff_ne, Option.isNone_iff_eq_none] at test
      obtain ⟨⟨⟨⟨notDigit, notPoint⟩, noBase⟩, notSpace⟩, noExponent⟩ := test
      refine ⟨?_, ?_, ?_, noExponent⟩
      · rintro rfl
        contradiction
      · intro c isHead
        cases head.symm.trans isHead
        exact ⟨notDigit, notPoint, noBase⟩
      · intro c isLast
        cases ending.symm.trans isLast
        exact Bool.eq_false_iff.mp notSpace
  · contradiction

/-- What the dashboard reads of a decimal with a unit. -/
theorem parseScaledNumber_append (decimal : Decimal) {rest : Text} (unit : FollowsNumber rest) :
    parseScaledNumber (decimal.text ++ rest) =
      (matchUnit rest).map fun letter => decimal.value * 1000 ^ scalePower letter := by
  have notEmpty : (decimal.text ++ rest).isEmpty = false :=
    List.isEmpty_eq_false_iff.mpr (List.append_ne_nil_of_right_ne_nil _ unit.ne_nil)
  rw [parseScaledNumber, notEmpty, if_neg Bool.false_ne_true,
    decimal.numberOfText_append unit.ends unit.last, unit.noExponent, Option.map_none]
  dsimp only
  rw [decimal.trim_text_append unit.ends unit.last, matchScaled_append decimal unit.ends]
  cases matchUnit rest with
  | none => rfl
  | some letter =>
      change (numberOfText decimal.text).map _ = _
      rw [decimal.numberOfText_text]
      rfl

/-- The dashboard reads no number with an exponent and a unit. -/
theorem parseScaledNumber_exponential {text rest : Text} (exponential : Exponential text)
    (unit : FollowsNumber rest) : parseScaledNumber (text ++ rest) = none := by
  obtain ⟨decimal, digits, rfl, _, _⟩ := exponential
  cases behind : rest with
  | nil => exact absurd behind unit.ne_nil
  | cons c more =>
      rw [behind] at unit
      have notDigit : c.isDigit = false := (unit.ends c rfl).1
      have follows : FollowsNumber ('e' :: '+' :: digits ++ c :: more) := by
        refine ⟨List.cons_ne_nil _ _, ?_, ?_, ?_⟩
        · rintro c ⟨⟩
          decide
        · intro last ending
          rw [List.getLast?_append_of_ne_nil _ (List.cons_ne_nil _ _)] at ending
          exact unit.last last ending
        · have notAll : (digits ++ c :: more).all Char.isDigit = false := by
            simp [notDigit]
          change (digitsNumber (digits ++ c :: more)).map _ = none
          rw [digitsNumber, notAll, Bool.and_false]
          rfl
      have unread : matchUnit ('e' :: '+' :: digits ++ c :: more) = none := rfl
      rw [List.append_assoc, parseScaledNumber_append decimal follows, unread, Option.map_none]

theorem parseScaledNumber_of_large (format : NumberFormat) {x : ℚ} (large : 10 ^ 21 ≤ x)
    (fractionDigits : Nat) {rest : Text} (unit : FollowsNumber rest) :
    parseScaledNumber (toFixed format x fractionDigits ++ rest) = none := by
  have nonneg : ¬x < 0 := not_lt.mpr ((by norm_num : (0 : ℚ) ≤ 10 ^ 21).trans large)
  rw [toFixed, if_neg nonneg, toFixedUnsigned, if_pos large]
  exact parseScaledNumber_exponential (format.exponential x large) unit

theorem parseScaledNumber_of_unknown (format : NumberFormat) {x : ℚ} (nonneg : 0 ≤ x)
    (fractionDigits : Nat) {rest : Text} (unit : FollowsNumber rest)
    (unknown : matchUnit rest = none) :
    parseScaledNumber (toFixed format x fractionDigits ++ rest) = none := by
  by_cases small : x < 10 ^ 21
  · obtain ⟨decimal, written, _⟩ := exists_toFixed_eq format nonneg small fractionDigits
    rw [written, parseScaledNumber_append decimal unit, unknown, Option.map_none]
  · exact parseScaledNumber_of_large format (not_lt.mp small) fractionDigits unit

/-- What `toFixed` wrote with a known unit is read within half a unit of its last
digit. -/
theorem exists_parseScaledNumber (format : NumberFormat) {x : ℚ} (nonneg : 0 ≤ x)
    (small : x < 10 ^ 21) (fractionDigits : Nat) {rest : Text} (unit : FollowsNumber rest)
    {letter : Char} (known : matchUnit rest = some letter) :
    ∃ n, parseScaledNumber (toFixed format x fractionDigits ++ rest) = some n ∧
      |n - x * 1000 ^ scalePower letter| ≤
        1000 ^ scalePower letter / 10 ^ fractionDigits / 2 := by
  obtain ⟨decimal, written, close⟩ := exists_toFixed_eq format nonneg small fractionDigits
  have scale : (0 : ℚ) < 1000 ^ scalePower letter := pow_pos (by norm_num) _
  refine ⟨decimal.value * 1000 ^ scalePower letter, ?_, ?_⟩
  · rw [written, parseScaledNumber_append decimal unit, known, Option.map_some]
  · rw [← sub_mul, abs_mul, abs_of_pos scale]
    calc
      |decimal.value - x| * 1000 ^ scalePower letter
          ≤ 1 / 2 / 10 ^ fractionDigits * 1000 ^ scalePower letter :=
        mul_le_mul_of_nonneg_right close scale.le
      _ = 1000 ^ scalePower letter / 10 ^ fractionDigits / 2 := by ring

/-! ## The loop over the units -/

/-- The loop divides until the value is below 1000 or no unit is left, and does
not divide below 1. -/
theorem exists_scaleDown_eq (left : Nat) (value : ℚ) (i : Nat) :
    ∃ k ≤ left, scaleDown left value i = (value / 1000 ^ k, i + k) ∧
      (k = left ∨ value / 1000 ^ k < 1000) ∧ (k = 0 ∨ 1 ≤ value / 1000 ^ k) := by
  induction left generalizing value i with
  | zero => exact ⟨0, Nat.le_refl 0, by simp [scaleDown], Or.inl rfl, Or.inl rfl⟩
  | succ left ih =>
      by_cases large : value ≥ 1000
      · obtain ⟨k, bound, scaled, stopped, above⟩ := ih (value / 1000) (i + 1)
        have shift : value / 1000 / 1000 ^ k = value / 1000 ^ (k + 1) := by
          rw [div_div, pow_succ']
        rw [shift] at scaled stopped above
        refine ⟨k + 1, Nat.succ_le_succ bound, ?_, ?_, Or.inr ?_⟩
        · rw [scaleDown, if_pos large, scaled, Nat.add_right_comm, Nat.add_assoc]
        · exact stopped.imp_left (congrArg Nat.succ)
        · rcases above with rfl | above
          · rw [Nat.zero_add, pow_one, le_div_iff₀ (by norm_num)]
            linarith
          · exact above
      · refine ⟨0, Nat.zero_le _, ?_, Or.inr ?_, Or.inl rfl⟩
        · rw [scaleDown, if_neg large, pow_zero, div_one]
          rfl
        · rw [pow_zero, div_one]
          exact not_le.mp large

/-! ## Round trips -/

/-- The dashboard reads the text as a number within one percent of the original
or within half a unit of the last digit. -/
def ReadsBack (text : Text) (original lastPlace : ℚ) : Prop :=
  ∃ n, parseScaledNumber text = some n ∧
    (|n - original| ≤ original / 100 ∨ |n - original| ≤ lastPlace / 2)

/-- The unit of the last digit of a rate. -/
def rateLastPlace (rate : ℚ) : ℚ :=
  let (value, i) := scaleDown (rateUnits.length - 1) rate 0
  1000 ^ i / 10 ^ ratePrecision value

/-- The unit of the last digit of a difficulty. -/
def difficultyLastPlace (difficulty : ℚ) : ℚ :=
  let (v, i) := scaleDown (difficultyUnits.length - 1) (|difficulty| / 1000) 0
  1000 ^ (i + 1) / 10 ^ difficultyPrecision v

theorem readsBack_toFixed_iff (format : NumberFormat) {x original lastPlace : ℚ} (nonneg : 0 ≤ x)
    (fractionDigits : Nat) {rest : Text} (unit : FollowsNumber rest) {known : Option Nat}
    (power : (matchUnit rest).map scalePower = known)
    (scaled : ∀ power, known = some power →
      original = x * 1000 ^ power ∧ lastPlace = 1000 ^ power / 10 ^ fractionDigits) :
    ReadsBack (toFixed format x fractionDigits ++ rest) original lastPlace ↔
      x < 10 ^ 21 ∧ known ≠ none := by
  constructor
  · rintro ⟨n, read, _⟩
    constructor
    · by_contra large
      rw [parseScaledNumber_of_large format (not_lt.mp large) fractionDigits unit] at read
      contradiction
    · rintro rfl
      rw [parseScaledNumber_of_unknown format nonneg fractionDigits unit
        (Option.map_eq_none_iff.mp power)] at read
      contradiction
  · rintro ⟨small, isKnown⟩
    cases known with
    | none => exact absurd rfl isKnown
    | some power' =>
        obtain ⟨letter, matched, rfl⟩ := Option.map_eq_some_iff.mp power
        obtain ⟨rfl, rfl⟩ := scaled _ rfl
        obtain ⟨n, read, close⟩ :=
          exists_parseScaledNumber format nonneg small fractionDigits unit matched
        exact ⟨n, read, Or.inr close⟩

theorem followsNumber_rateUnit {i : Nat} (bound : i ≤ 4) :
    FollowsNumber (' ' :: rateUnits.getD i []) := by
  apply followsNumber_of_canFollow
  revert i
  decide

theorem matchUnit_rateUnit {i : Nat} (bound : i ≤ 4) :
    (matchUnit (' ' :: rateUnits.getD i [])).map scalePower = if i = 0 then none else some i := by
  revert i
  decide

theorem followsNumber_difficultyUnit {i : Nat} (bound : i ≤ 6) :
    FollowsNumber (difficultyUnits.getD i []) := by
  apply followsNumber_of_canFollow
  revert i
  decide

theorem matchUnit_difficultyUnit {i : Nat} (bound : i ≤ 6) :
    (matchUnit (difficultyUnits.getD i [])).map scalePower =
      if i = 6 then none else some (i + 1) := by
  revert i
  decide

theorem readsBack_rate_iff (format : NumberFormat) {rate : ℚ} (nonneg : 0 ≤ rate) :
    ReadsBack (formatSolutionsRate format (some rate)) rate (rateLastPlace rate) ↔
      1000 ≤ rate ∧ rate < 10 ^ 33 := by
  rcases nonneg.eq_or_lt with rfl | positive
  · have written : formatSolutionsRate format (some 0) = "0 Sol/s".toList := by
      simp [formatSolutionsRate, parsePositiveNumber, Option.filter]
    have unread : parseScaledNumber "0 Sol/s".toList = none := by decide +kernel
    refine iff_of_false ?_ fun bounds => absurd bounds.1 (by norm_num)
    rintro ⟨n, read, _⟩
    rw [written, unread] at read
    contradiction
  · have parsed : (parsePositiveNumber (some rate)).getD 0 = rate := by
      simp [parsePositiveNumber, Option.filter, positive]
    obtain ⟨k, bound, scaled, stopped, above⟩ := exists_scaleDown_eq 4 rate 0
    rw [Nat.zero_add] at scaled
    have place : rateLastPlace rate = 1000 ^ k / 10 ^ ratePrecision (rate / 1000 ^ k) := by
      rw [rateLastPlace, show rateUnits.length - 1 = 4 from rfl, scaled]
    have written : formatSolutionsRate format (some rate) =
        toFixed format (rate / 1000 ^ k) (ratePrecision (rate / 1000 ^ k)) ++
          ' ' :: rateUnits.getD k [] := by
      rw [formatSolutionsRate]
      dsimp only
      rw [parsed, if_neg (not_le.mpr positive), show rateUnits.length - 1 = 4 from rfl, scaled]
    have scale : (0 : ℚ) < 1000 ^ k := pow_pos (by norm_num) _
    rw [written, readsBack_toFixed_iff format (div_nonneg nonneg scale.le) _
      (followsNumber_rateUnit bound) (matchUnit_rateUnit bound)]
    · rw [div_lt_iff₀ scale]
      constructor
      · rintro ⟨small, known⟩
        have some : k ≠ 0 := by
          rintro rfl
          exact known rfl
        have above := (one_le_div scale).mp (above.resolve_left some)
        have least : (1000 : ℚ) ^ 1 ≤ 1000 ^ k :=
          pow_le_pow_right₀ (by norm_num) (Nat.one_le_iff_ne_zero.mpr some)
        have most : (1000 : ℚ) ^ k ≤ 1000 ^ 4 := pow_le_pow_right₀ (by norm_num) bound
        constructor
        · linarith
        · calc
            rate < 10 ^ 21 * 1000 ^ k := small
            _ ≤ 10 ^ 21 * 1000 ^ 4 := mul_le_mul_of_nonneg_left most (by norm_num)
            _ = 10 ^ 33 := by norm_num
      · rintro ⟨large, small⟩
        have some : k ≠ 0 := by
          rintro rfl
          rw [pow_zero, div_one] at stopped
          exact absurd (stopped.resolve_left (by decide)) (not_lt.mpr large)
        refine ⟨?_, by rw [if_neg some]; exact Option.some_ne_none _⟩
        rcases stopped with rfl | below
        · linarith
        · rw [div_lt_iff₀ scale] at below
          exact below.trans_le (mul_le_mul_of_nonneg_right (by norm_num) scale.le)
    · intro power known
      split at known
      · contradiction
      · cases known
        exact ⟨(div_mul_cancel₀ rate scale.ne').symm, place⟩

theorem readsBack_difficulty_iff (format : NumberFormat) {difficulty : ℚ}
    (nonneg : 0 ≤ difficulty) :
    ReadsBack (formatDifficulty format (some difficulty)) difficulty
        (difficultyLastPlace difficulty) ↔
      difficulty < 10 ^ 21 := by
  rcases nonneg.eq_or_lt with rfl | positive
  · have written : formatDifficulty format (some 0) = "0K".toList := by
      simp [formatDifficulty]
    have read : parseScaledNumber "0K".toList = some 0 := by decide +kernel
    refine iff_of_true ⟨0, by rw [written, read], Or.inl ?_⟩ (by norm_num)
    norm_num
  · obtain ⟨k, bound, scaled, stopped, above⟩ := exists_scaleDown_eq 6 (difficulty / 1000) 0
    rw [Nat.zero_add] at scaled
    have scale : (0 : ℚ) < 1000 ^ k := pow_pos (by norm_num) _
    have thousands : 0 ≤ difficulty / 1000 := div_nonneg nonneg (by norm_num)
    let v := difficulty / 1000 / 1000 ^ k
    have place : difficultyLastPlace difficulty =
        1000 ^ (k + 1) / 10 ^ difficultyPrecision v := by
      rw [difficultyLastPlace, abs_of_nonneg nonneg,
        show difficultyUnits.length - 1 = 6 from rfl, scaled]
    have written : formatDifficulty format (some difficulty) =
        toFixed format v (difficultyPrecision v) ++ difficultyUnits.getD k [] := by
      rw [formatDifficulty]
      dsimp only
      rw [if_neg positive.ne', if_neg (not_lt.mpr nonneg), abs_of_nonneg nonneg,
        show difficultyUnits.length - 1 = 6 from rfl, scaled]
      rfl
    rw [written, readsBack_toFixed_iff format (div_nonneg thousands scale.le) _
      (followsNumber_difficultyUnit bound) (matchUnit_difficultyUnit bound)]
    · constructor
      · rintro ⟨_, known⟩
        have notLast : k ≠ 6 := by
          rintro rfl
          exact known rfl
        have below := stopped.resolve_left notLast
        rw [div_div, div_lt_iff₀ (by positivity)] at below
        have most : (1000 : ℚ) ^ k ≤ 1000 ^ 5 :=
          pow_le_pow_right₀ (by norm_num) (by omega)
        linarith
      · intro small
        have notLast : k ≠ 6 := by
          rintro rfl
          have large := above.resolve_left (by decide)
          rw [div_div, one_le_div (by norm_num)] at large
          linarith
        refine ⟨(stopped.resolve_left notLast).trans (by norm_num), ?_⟩
        rw [if_neg notLast]
        exact Option.some_ne_none _
    · intro power known
      split at known
      · contradiction
      · cases known
        refine ⟨?_, place⟩
        rw [pow_succ, ← mul_assoc, div_mul_cancel₀ _ scale.ne', div_mul_cancel₀ _ (by norm_num)]

/-- A rate is read back from its text exactly from 1000 on and below 10^33, and a
difficulty exactly below 10^21. -/
theorem readsBack_iff (format : NumberFormat) :
    (∀ rate : ℚ, 0 ≤ rate →
        (ReadsBack (formatSolutionsRate format (some rate)) rate (rateLastPlace rate) ↔
          1000 ≤ rate ∧ rate < 10 ^ 33)) ∧
      ∀ difficulty : ℚ, 0 ≤ difficulty →
        (ReadsBack (formatDifficulty format (some difficulty)) difficulty
            (difficultyLastPlace difficulty) ↔
          difficulty < 10 ^ 21) :=
  ⟨fun _ nonneg => readsBack_rate_iff format nonneg,
    fun _ nonneg => readsBack_difficulty_iff format nonneg⟩

/-! ## Integers with an exponent -/

/-- The digits of an integer with a point behind the first. -/
def leading (n : Nat) : Decimal where
  whole := (Nat.toDigits 10 n).take 1
  frac := stripZeros ((Nat.toDigits 10 n).drop 1)
  whole_ne_nil := by
    intro empty
    rcases List.take_eq_nil_iff.mp empty with zero | none
    · exact Nat.one_ne_zero zero
    · exact Nat.toDigits_ne_nil none
  isDigit_whole := fun _ member => isDigit_of_mem_toDigits (List.mem_of_mem_take member)
  isDigit_frac := by
    intro c member
    obtain ⟨zeros, split⟩ := exists_stripZeros ((Nat.toDigits 10 n).drop 1)
    apply isDigit_of_mem_toDigits (n := n)
    apply List.mem_of_mem_drop
    rw [split]
    exact List.mem_append_left _ member

/-- The exact digits of integers. -/
def integerFormat : NumberFormat where
  text x :=
    (leading ⌊x⌋₊).text ++ 'e' :: '+' :: Nat.toDigits 10 ((Nat.toDigits 10 ⌊x⌋₊).length - 1)
  exponential x _ := ⟨leading ⌊x⌋₊, _, rfl, Nat.toDigits_ne_nil,
    fun _ member => isDigit_of_mem_toDigits member⟩

example : integerFormat.text (25 * 10 ^ 20) = "2.5e+21".toList := by
  decide +kernel

/-- 1.23 MSol/s. -/
theorem readsBack_1234567 :
    ReadsBack (formatSolutionsRate integerFormat (some 1234567)) 1234567 (rateLastPlace 1234567) :=
  ((readsBack_iff integerFormat).1 1234567 (by norm_num)).mpr ⟨by norm_num, by norm_num⟩

/-- 500 Sol/s and 1.000Z. -/
theorem not_readsBack_500 :
    (¬∀ rate : ℚ, 0 ≤ rate →
        ReadsBack (formatSolutionsRate integerFormat (some rate)) rate (rateLastPlace rate)) ∧
      ¬∀ difficulty : ℚ, 0 ≤ difficulty →
        ReadsBack (formatDifficulty integerFormat (some difficulty)) difficulty
          (difficultyLastPlace difficulty) := by
  constructor
  · intro reads
    obtain ⟨n, read, _⟩ := reads 500 (by norm_num)
    have unread : parseScaledNumber (formatSolutionsRate integerFormat (some 500)) = none := by
      decide +kernel
    rw [unread] at read
    contradiction
  · intro reads
    obtain ⟨n, read, _⟩ := reads (10 ^ 21) (by norm_num)
    have unread : parseScaledNumber (formatDifficulty integerFormat (some (10 ^ 21))) = none := by
      decide +kernel
    rw [unread] at read
    contradiction

end ZcashSoloPool.Dashboard
