import ZcashSoloPool.Dashboard.ScaledNumber

/-!
# Durations as texts

The pool writes how long a miner is connected in the two largest units that
matter, and the dashboard reads durations back to sort by them.  What is read is
the duration but for less than the smallest unit that was written, and it has the
order of the durations.
-/

namespace ZcashSoloPool.Dashboard

open ZcashSoloPool.Bytes
open ZcashSoloPool.JavaScript

/-! ## The pool -/

/-- `${n}` for a whole number. -/
def wholeText (format : NumberFormat) (n : Nat) : Text :=
  if 10 ^ 21 ≤ n then format.text n else Nat.toDigits 10 n

/-- `formatDuration`; `none` is no finite number. -/
def formatDuration (format : NumberFormat) (seconds : Option ℚ) : Text :=
  match seconds.filter fun n => 0 ≤ n with
  | none => "n/a".toList
  | some n =>
      let total := ⌊n⌋₊
      let days := total / 86400
      let hours := total % 86400 / 3600
      let minutes := total % 3600 / 60
      let secs := total % 60
      let text := wholeText format
      if 0 < days then text days ++ 'd' :: ' ' :: (text hours ++ ['h'])
      else if 0 < hours then text hours ++ 'h' :: ' ' :: (text minutes ++ ['m'])
      else if 0 < minutes then text minutes ++ 'm' :: ' ' :: (text secs ++ ['s'])
      else text secs ++ ['s']

/-! ## The dashboard -/

/-- `unitScale`. -/
def unitScale : Char → Option Nat
  | 'd' => some 86400
  | 'h' => some 3600
  | 'm' => some 60
  | 's' => some 1
  | _ => none

/-- The beginning of a text that matches `(\d+(?:\.\d+)?)\s*([dhms])`, with the
scale of its letter, and what follows.  Digits, spaces and letters are told apart
by one character, so that no match is found by going back. -/
def matchDuration (text : Text) : Option ((Text × Nat) × Text) :=
  (matchNumber text).bind fun (number, rest) =>
    match rest.dropWhile isSpace with
    | [] => none
    | letter :: behind => (unitScale letter).map fun scale => ((number, scale), behind)

/-- `matchAll`, for texts that are not longer than the first number. -/
def matchAll : Nat → Text → List (Text × Nat)
  | 0, _ => []
  | _ + 1, [] => []
  | fuel + 1, c :: rest =>
      match matchDuration (c :: rest) with
      | some (found, behind) => found :: matchAll fuel behind
      | none => matchAll fuel rest

/-- The sum of the matches, if there is one. -/
def sumDurations (found : List (Text × Nat)) : Option ℚ :=
  let amounts := found.filterMap fun (number, scale) =>
    (numberOfText number).map fun amount => amount * scale
  if amounts.isEmpty then none else some amounts.sum

/-- `parseDurationSeconds` of a string. -/
def parseDurationSeconds (value : Text) : Option ℚ :=
  if value.isEmpty then none
  else
    match (numberOfText value).filter fun n => 0 ≤ n with
    | some n => some n
    | none =>
        let text := toLowerCase (trim value)
        if text.isEmpty then none else sumDurations (matchAll text.length text)

/-! ## Scanning what was written -/

/-- The decimal of a whole number. -/
theorem text_fixed_zero (n : Nat) : (fixed n 0).text = Nat.toDigits 10 n := by
  rw [← text_fixed, if_pos rfl]

theorem value_fixed_zero (n : Nat) : (fixed n 0).value = n := by
  rw [value_fixed, pow_zero, div_one]

theorem ends_of_unitScale {letter : Char} {scale : Nat} (known : unitScale letter = some scale)
    (rest : Text) : Ends (letter :: rest) := by
  rintro c ⟨⟩
  unfold unitScale at known
  split at known
  all_goals first | decide | contradiction

theorem not_isSpace_of_unitScale {letter : Char} {scale : Nat}
    (known : unitScale letter = some scale) : ¬isSpace letter = true := by
  unfold unitScale at known
  split at known
  all_goals first | decide | contradiction

/-- A whole number with a unit is found at once. -/
theorem matchDuration_append (n : Nat) {letter : Char} {scale : Nat}
    (known : unitScale letter = some scale) (rest : Text) :
    matchDuration (Nat.toDigits 10 n ++ letter :: rest) =
      some ((Nat.toDigits 10 n, scale), rest) := by
  have notSpace := not_isSpace_of_unitScale known
  rw [← text_fixed_zero, matchDuration, matchNumber_append _ (ends_of_unitScale known rest),
    Option.bind_some]
  dsimp only
  rw [List.dropWhile_cons_of_neg notSpace]
  dsimp only
  rw [known, Option.map_some]

theorem matchAll_append (fuel n : Nat) {letter : Char} {scale : Nat}
    (known : unitScale letter = some scale) (rest : Text) :
    matchAll (fuel + 1) (Nat.toDigits 10 n ++ letter :: rest) =
      (Nat.toDigits 10 n, scale) :: matchAll fuel rest := by
  have found := matchDuration_append n known rest
  cases digits : Nat.toDigits 10 n with
  | nil => exact absurd digits Nat.toDigits_ne_nil
  | cons c more =>
      rw [digits, List.cons_append] at found
      rw [List.cons_append, matchAll, found]

theorem matchAll_space (fuel : Nat) (rest : Text) :
    matchAll (fuel + 1) (' ' :: rest) = matchAll fuel rest :=
  rfl

@[simp]
theorem matchAll_nil (fuel : Nat) : matchAll fuel [] = [] := by
  cases fuel <;> rfl

theorem toLower_of_isDigit {c : Char} (digit : c.isDigit = true) : c.toLower = c := by
  apply toLower_of_not_upper
  rw [Char.isDigit, Bool.and_eq_true, decide_eq_true_eq, decide_eq_true_eq] at digit
  rintro ⟨above, -⟩
  exact absurd (UInt32.le_trans above digit.2) (by decide)

theorem toLowerCase_toDigits_append (n : Nat) (rest : Text) :
    toLowerCase (Nat.toDigits 10 n ++ rest) = Nat.toDigits 10 n ++ toLowerCase rest := by
  have same : (Nat.toDigits 10 n).map Char.toLower = Nat.toDigits 10 n := by
    conv_rhs => rw [← List.map_id (Nat.toDigits 10 n)]
    apply List.map_congr_left
    intro c member
    exact toLower_of_isDigit (isDigit_of_mem_toDigits member)
  rw [toLowerCase, List.map_append, same]
  rfl

theorem toLower_of_unitScale {letter : Char} {scale : Nat}
    (known : unitScale letter = some scale) : letter.toLower = letter := by
  unfold unitScale at known
  split at known
  all_goals first | rfl | contradiction

theorem exponentPart_of_unitScale {letter : Char} {scale : Nat}
    (known : unitScale letter = some scale) (rest : Text) :
    exponentPart (letter :: rest) = none := by
  unfold unitScale at known
  split at known
  all_goals first | rfl | contradiction

/-- A text that begins with a number and a unit is no number, and is scanned as it
stands. -/
theorem parseDurationSeconds_append (n : Nat) {letter : Char} {scale : Nat} {rest : Text}
    (known : unitScale letter = some scale) (lower : toLowerCase rest = rest)
    (last : ∀ c ∈ rest.getLast?, ¬isSpace c = true) :
    parseDurationSeconds (Nat.toDigits 10 n ++ letter :: rest) =
      sumDurations ((Nat.toDigits 10 n, scale) ::
        matchAll ((Nat.toDigits 10 n).length + rest.length) rest) := by
  have ends := ends_of_unitScale known rest
  have ending : ∀ c ∈ (letter :: rest).getLast?, ¬isSpace c = true := by
    cases rest with
    | nil =>
        rintro c ⟨⟩
        exact not_isSpace_of_unitScale known
    | cons d others => exact last
  have notEmpty : (Nat.toDigits 10 n ++ letter :: rest).isEmpty = false :=
    List.isEmpty_eq_false_iff.mpr (List.append_ne_nil_of_right_ne_nil _ (List.cons_ne_nil _ _))
  have noNumber : numberOfText (Nat.toDigits 10 n ++ letter :: rest) = none := by
    rw [← text_fixed_zero, (fixed n 0).numberOfText_append ends ending,
      exponentPart_of_unitScale known, Option.map_none]
  have trimmed : trim (Nat.toDigits 10 n ++ letter :: rest) =
      Nat.toDigits 10 n ++ letter :: rest := by
    rw [← text_fixed_zero]
    exact (fixed n 0).trim_text_append ends ending
  have lowered : toLowerCase (Nat.toDigits 10 n ++ letter :: rest) =
      Nat.toDigits 10 n ++ letter :: rest := by
    rw [toLowerCase_toDigits_append]
    change _ ++ letter.toLower :: toLowerCase rest = _
    rw [toLower_of_unitScale known, lower]
  have length : (Nat.toDigits 10 n ++ letter :: rest).length =
      (Nat.toDigits 10 n).length + rest.length + 1 := by
    rw [List.length_append, List.length_cons]
    rfl
  rw [parseDurationSeconds, notEmpty, if_neg Bool.false_ne_true, noNumber, Option.filter_none,
    trimmed, lowered]
  dsimp only
  rw [notEmpty, if_neg Bool.false_ne_true, length, matchAll_append _ _ known]

theorem numberOfText_toDigits (n : Nat) : numberOfText (Nat.toDigits 10 n) = some (n : ℚ) := by
  rw [← text_fixed_zero, Decimal.numberOfText_text, value_fixed_zero]

/-- One number with a unit. -/
theorem parseDurationSeconds_one (n : Nat) {letter : Char} {scale : Nat}
    (known : unitScale letter = some scale) :
    parseDurationSeconds (Nat.toDigits 10 n ++ [letter]) = some ((n * scale : Nat) : ℚ) := by
  rw [parseDurationSeconds_append n known rfl (by simp), matchAll_nil]
  simp [sumDurations, numberOfText_toDigits]

/-- Two numbers with units. -/
theorem parseDurationSeconds_two (n m : Nat) {letter second : Char} {scale other : Nat}
    (known : unitScale letter = some scale) (also : unitScale second = some other) :
    parseDurationSeconds (Nat.toDigits 10 n ++ letter :: ' ' :: (Nat.toDigits 10 m ++ [second])) =
      some ((n * scale + m * other : Nat) : ℚ) := by
  have lower : toLowerCase (' ' :: (Nat.toDigits 10 m ++ [second])) =
      ' ' :: (Nat.toDigits 10 m ++ [second]) := by
    change ' ' :: toLowerCase (Nat.toDigits 10 m ++ [second]) = _
    rw [toLowerCase_toDigits_append]
    change ' ' :: (_ ++ [second.toLower]) = _
    rw [toLower_of_unitScale also]
  have last : ∀ c ∈ (' ' :: (Nat.toDigits 10 m ++ [second])).getLast?, ¬isSpace c = true := by
    intro c ending
    rw [← List.cons_append, List.getLast?_concat, Option.mem_some_iff] at ending
    subst ending
    exact not_isSpace_of_unitScale also
  rw [parseDurationSeconds_append n known lower last, List.length_cons, List.length_append,
    List.length_singleton, ← Nat.add_assoc, ← Nat.add_assoc, matchAll_space,
    matchAll_append _ _ also, matchAll_nil]
  simp [sumDurations, numberOfText_toDigits]

/-! ## The round trip -/

/-- The smallest unit that is written for a number of seconds. -/
def durationUnit (total : Nat) : Nat :=
  if 86400 ≤ total then 3600 else if 3600 ≤ total then 60 else 1

/-- The seconds in whole units. -/
def writtenSeconds (total : Nat) : Nat :=
  total - total % durationUnit total

theorem writtenSeconds_spec (total : Nat) :
    writtenSeconds total ≤ total ∧ total < writtenSeconds total + durationUnit total := by
  have positive : 0 < durationUnit total := by
    unfold durationUnit
    split
    · decide
    · split <;> decide
  have rest := Nat.mod_lt total positive
  have le := Nat.mod_le total (durationUnit total)
  unfold writtenSeconds
  omega

theorem writtenSeconds_mono {first second : Nat} (le : first ≤ second) :
    writtenSeconds first ≤ writtenSeconds second := by
  unfold writtenSeconds durationUnit
  split_ifs <;> omega

/-- The whole seconds of a number are written in two units at most. -/
theorem parseDurationSeconds_formatDuration_of_floor (format : NumberFormat) {seconds : ℚ}
    (nonneg : 0 ≤ seconds) (small : seconds < 10 ^ 21) :
    parseDurationSeconds (formatDuration format (some seconds)) =
      some (writtenSeconds ⌊seconds⌋₊ : ℚ) := by
  have whole : ⌊seconds⌋₊ < 10 ^ 21 := (Nat.floor_lt nonneg).mpr (by exact_mod_cast small)
  have text : ∀ n ≤ ⌊seconds⌋₊, wholeText format n = Nat.toDigits 10 n :=
    fun n le => if_neg (by omega)
  have days : unitScale 'd' = some 86400 := rfl
  have hours : unitScale 'h' = some 3600 := rfl
  have minutes : unitScale 'm' = some 60 := rfl
  have secs : unitScale 's' = some 1 := rfl
  have kept : (some seconds).filter (fun n => decide (0 ≤ n)) = some seconds := by
    simp [nonneg]
  rw [formatDuration, kept]
  dsimp only
  generalize ⌊seconds⌋₊ = total at whole text ⊢
  split
  · rw [text _ (by omega), text _ (by omega), parseDurationSeconds_two _ _ days hours]
    congr 2
    unfold writtenSeconds durationUnit
    rw [if_pos (by omega)]
    omega
  · split
    · rw [text _ (by omega), text _ (by omega), parseDurationSeconds_two _ _ hours minutes]
      congr 2
      unfold writtenSeconds durationUnit
      rw [if_neg (by omega), if_pos (by omega)]
      omega
    · split
      · rw [text _ (by omega), text _ (by omega), parseDurationSeconds_two _ _ minutes secs]
        congr 2
        unfold writtenSeconds durationUnit
        rw [if_neg (by omega), if_neg (by omega)]
        omega
      · rw [text _ (by omega), parseDurationSeconds_one _ secs]
        congr 2
        unfold writtenSeconds durationUnit
        rw [if_neg (by omega), if_neg (by omega)]
        omega

/-- The dashboard reads back every duration that the pool writes, but for less than
the smallest unit written, and longer durations are not read as shorter ones. -/
theorem duration_round_trip (format : NumberFormat) {seconds later : ℚ} (nonneg : 0 ≤ seconds)
    (ordered : seconds ≤ later) (small : later < 10 ^ 21) :
    ∃ first second : Nat,
      parseDurationSeconds (formatDuration format (some seconds)) = some (first : ℚ) ∧
      parseDurationSeconds (formatDuration format (some later)) = some (second : ℚ) ∧
      (first : ℚ) ≤ seconds ∧ seconds < first + durationUnit ⌊seconds⌋₊ ∧
      first ≤ second := by
  have laterNonneg := nonneg.trans ordered
  have spec := writtenSeconds_spec ⌊seconds⌋₊
  refine ⟨writtenSeconds ⌊seconds⌋₊, writtenSeconds ⌊later⌋₊,
    parseDurationSeconds_formatDuration_of_floor format nonneg (ordered.trans_lt small),
    parseDurationSeconds_formatDuration_of_floor format laterNonneg small, ?_, ?_,
    writtenSeconds_mono (Nat.floor_mono ordered)⟩
  · calc (writtenSeconds ⌊seconds⌋₊ : ℚ) ≤ ⌊seconds⌋₊ := by exact_mod_cast spec.1
      _ ≤ seconds := Nat.floor_le nonneg
  · calc seconds < ⌊seconds⌋₊ + 1 := Nat.lt_floor_add_one seconds
      _ ≤ writtenSeconds ⌊seconds⌋₊ + durationUnit ⌊seconds⌋₊ := by exact_mod_cast spec.2

/-- An hour and a half, and three days. -/
theorem duration_round_trip_hours :
    ∃ first second : Nat,
      parseDurationSeconds (formatDuration integerFormat (some 5400)) = some (first : ℚ) ∧
      parseDurationSeconds (formatDuration integerFormat (some 259200)) = some (second : ℚ) ∧
      (first : ℚ) ≤ 5400 ∧ (5400 : ℚ) < first + durationUnit ⌊(5400 : ℚ)⌋₊ ∧ first ≤ second :=
  duration_round_trip integerFormat (by norm_num) (by norm_num) (by norm_num)

end ZcashSoloPool.Dashboard
