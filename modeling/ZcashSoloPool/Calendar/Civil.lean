import Mathlib.Data.List.Basic
import Mathlib.Order.Basic

/-!
# Dates by the number of the day

Days are counted from the first of January 1970.  Years, and the months of a year,
divide the days into stretches of their lengths; a day lies in one of them at some
place.  Later days have later dates, and dates are written so that the later one
is the later text.
-/

namespace ZcashSoloPool.Calendar

/-! ## Stretches -/

/-- The first place of a stretch. -/
def startOf (lengths : Nat → Nat) : Nat → Nat
  | 0 => 0
  | i + 1 => startOf lengths i + lengths i

/-- The stretch that a place lies in and the place in it, from some stretch on. -/
def locate (lengths : Nat → Nat) : Nat → Nat → Nat → Nat × Nat
  | 0, i, place => (i, place)
  | fuel + 1, i, place =>
      if place < lengths i then (i, place) else locate lengths fuel (i + 1) (place - lengths i)

/-- Stretches are not empty. -/
def Positive (lengths : Nat → Nat) : Prop :=
  ∀ i, 0 < lengths i

theorem startOf_mono (lengths : Nat → Nat) {i j : Nat} (le : i ≤ j) :
    startOf lengths i ≤ startOf lengths j := by
  induction le with
  | refl => exact Nat.le_refl _
  | step _ ih => exact Nat.le_add_right_of_le ih

/-- The place is counted from the start of its stretch and lies inside of it. -/
theorem locate_spec {lengths : Nat → Nat} (positive : Positive lengths) {fuel i place : Nat}
    (enough : place < fuel) :
    startOf lengths (locate lengths fuel i place).1 + (locate lengths fuel i place).2 =
        startOf lengths i + place ∧
      (locate lengths fuel i place).2 < lengths (locate lengths fuel i place).1 := by
  induction fuel generalizing i place with
  | zero => contradiction
  | succ fuel ih =>
      rw [locate]
      split
      · next inside => exact ⟨rfl, inside⟩
      · next beyond =>
          have length := positive i
          have later := @ih (i + 1) (place - lengths i) (by omega)
          refine ⟨later.1.trans ?_, later.2⟩
          rw [startOf]
          omega

/-- The stretch that a place lies in and the place in it. -/
def position (lengths : Nat → Nat) (place : Nat) : Nat × Nat :=
  locate lengths (place + 1) 0 place

theorem position_spec {lengths : Nat → Nat} (positive : Positive lengths) (place : Nat) :
    startOf lengths (position lengths place).1 + (position lengths place).2 = place ∧
      (position lengths place).2 < lengths (position lengths place).1 := by
  have spec := locate_spec positive (i := 0) (Nat.lt_succ_self place)
  rw [startOf, Nat.zero_add] at spec
  exact spec

/-- A place behind another one lies in a later stretch, or later in the same. -/
theorem position_lt {lengths : Nat → Nat} (positive : Positive lengths) {place other : Nat}
    (lt : place < other) :
    (position lengths place).1 < (position lengths other).1 ∨
      (position lengths place).1 = (position lengths other).1 ∧
        (position lengths place).2 < (position lengths other).2 := by
  have spec := position_spec positive place
  have otherSpec := position_spec positive other
  rcases Nat.lt_trichotomy (position lengths place).1 (position lengths other).1 with
    before | same | after
  · exact Or.inl before
  · rw [same] at spec
    exact Or.inr ⟨same, by omega⟩
  · have starts := startOf_mono lengths (Nat.succ_le_of_lt after)
    rw [startOf] at starts
    omega

/-- A place lies in front of a stretch if it is counted less than its start. -/
theorem position_fst_lt {lengths : Nat → Nat} (positive : Positive lengths) {place count : Nat}
    (lt : place < startOf lengths count) : (position lengths place).1 < count := by
  have spec := position_spec positive place
  by_contra behind
  have starts := startOf_mono lengths (Nat.le_of_not_lt behind)
  omega

/-! ## Years and months -/

/-- The year has a 29th of February. -/
def isLeap (year : Nat) : Bool :=
  year % 4 == 0 && (year % 100 != 0 || year % 400 == 0)

/-- The days of a year, counted from 1970. -/
def yearLength (i : Nat) : Nat :=
  if isLeap (1970 + i) then 366 else 365

/-- The days of a month, counted from zero. -/
def monthLength (leap : Bool) : Nat → Nat
  | 1 => if leap then 29 else 28
  | 3 => 30
  | 5 => 30
  | 8 => 30
  | 10 => 30
  | _ => 31

theorem positive_yearLength : Positive yearLength := by
  intro i
  unfold yearLength
  split <;> decide

theorem monthLength_bounds (leap : Bool) (i : Nat) :
    0 < monthLength leap i ∧ monthLength leap i ≤ 31 := by
  unfold monthLength
  split
  · cases leap <;> decide
  all_goals decide

theorem positive_monthLength (leap : Bool) : Positive (monthLength leap) :=
  fun i => (monthLength_bounds leap i).1

/-- A year is over after its twelfth month. -/
theorem startOf_monthLength (leap : Bool) :
    startOf (monthLength leap) 12 = if leap then 366 else 365 := by
  cases leap <;> decide

/-- The days before a year. -/
theorem startOf_yearLength (i : Nat) :
    startOf yearLength i + (i + 69) / 100 = 365 * i + (i + 1) / 4 + (i + 369) / 400 := by
  induction i with
  | zero => decide
  | succ i ih =>
      rw [startOf, yearLength]
      by_cases leap : isLeap (1970 + i) = true
      · rw [if_pos leap]
        simp only [isLeap, Bool.and_eq_true, Bool.or_eq_true, beq_iff_eq, bne_iff_ne] at leap
        omega
      · rw [if_neg leap]
        simp only [isLeap, Bool.and_eq_true, Bool.or_eq_true, beq_iff_eq, bne_iff_ne] at leap
        omega

/-! ## Dates -/

/-- A date. -/
structure Civil where
  year : Nat
  month : Nat
  day : Nat
  deriving DecidableEq, Repr

/-- The date of a day. -/
def civil (day : Nat) : Civil :=
  let year := position yearLength day
  let month := position (monthLength (isLeap (1970 + year.1))) year.2
  ⟨1970 + year.1, month.1 + 1, month.2 + 1⟩

example : civil 19782 = ⟨2024, 2, 29⟩ := by decide +kernel

/-- One date is earlier than another. -/
def Civil.Before (first second : Civil) : Prop :=
  first.year < second.year ∨ first.year = second.year ∧
    (first.month < second.month ∨ first.month = second.month ∧ first.day < second.day)

/-- Later days have later dates. -/
theorem before_civil {day other : Nat} (lt : day < other) : (civil day).Before (civil other) := by
  rcases position_lt positive_yearLength lt with earlier | ⟨same, before⟩
  · exact Or.inl (Nat.add_lt_add_left earlier 1970)
  · refine Or.inr ⟨congrArg (1970 + ·) same, ?_⟩
    simp only [civil, same]
    rcases position_lt (positive_monthLength (isLeap (1970 + (position yearLength other).1)))
      before with earlier | ⟨month, before⟩
    · exact Or.inl (Nat.succ_lt_succ earlier)
    · exact Or.inr ⟨congrArg (· + 1) month, Nat.succ_lt_succ before⟩

/-- The last day of the year 9999. -/
def lastDay : Nat :=
  2932896

/-- Months and days have two digits, and up to the year 9999 years have four. -/
theorem civil_bounds {day : Nat} (bounded : day ≤ lastDay) :
    (civil day).year < 10000 ∧ (civil day).month < 100 ∧ (civil day).day < 100 := by
  have year := position_spec positive_yearLength day
  have years : (position yearLength day).1 < 8030 := by
    apply position_fst_lt positive_yearLength
    have start := startOf_yearLength 8030
    unfold lastDay at bounded
    omega
  have month := position_spec (positive_monthLength (isLeap (1970 + (position yearLength day).1)))
    (position yearLength day).2
  have months : (position (monthLength (isLeap (1970 + (position yearLength day).1)))
      (position yearLength day).2).1 < 12 := by
    apply position_fst_lt (positive_monthLength _)
    rw [startOf_monthLength]
    exact year.2
  have days := (monthLength_bounds (isLeap (1970 + (position yearLength day).1))
    (position (monthLength (isLeap (1970 + (position yearLength day).1)))
      (position yearLength day).2).1).2
  simp only [civil]
  omega

/-! ## Texts -/

/-- Two decimal digits. -/
def twoDigits (n : Nat) : List Char :=
  [Nat.digitChar (n / 10), Nat.digitChar (n % 10)]

/-- The date as year, month and day. -/
def Civil.text (date : Civil) : List Char :=
  twoDigits (date.year / 100) ++ (twoDigits (date.year % 100) ++ ('-' ::
    (twoDigits date.month ++ ('-' :: twoDigits date.day))))

theorem digitChar_lt_iff : ∀ a < 10, ∀ b < 10, (Nat.digitChar a < Nat.digitChar b ↔ a < b) ∧
    (Nat.digitChar a = Nat.digitChar b ↔ a = b) := by
  decide

/-- Numbers of two digits are ordered as their texts are. -/
theorem twoDigits_append_lt_iff {n m : Nat} (small : n < 100) (other : m < 100)
    (rest later : List Char) :
    twoDigits n ++ rest < twoDigits m ++ later ↔ n < m ∨ n = m ∧ rest < later := by
  have tens := digitChar_lt_iff (n / 10) (by omega) (m / 10) (by omega)
  have ones := digitChar_lt_iff (n % 10) (Nat.mod_lt _ (by decide)) (m % 10)
    (Nat.mod_lt _ (by decide))
  simp only [twoDigits, List.cons_append, List.nil_append, List.cons_lt_cons_iff, tens, ones]
  by_cases lt : rest < later
  · simp only [lt, and_true]
    omega
  · simp only [lt, and_false, or_false]
    omega

/-- Dates are ordered as their texts are. -/
theorem Civil.Before.text_lt {first second : Civil} (before : first.Before second)
    (bounds : first.year < 10000 ∧ first.month < 100 ∧ first.day < 100)
    (others : second.year < 10000 ∧ second.month < 100 ∧ second.day < 100) :
    first.text < second.text := by
  have days := twoDigits_append_lt_iff bounds.2.2 others.2.2 [] []
  simp only [List.append_nil, List.not_lt_nil, and_false, or_false] at days
  unfold Civil.text
  rw [twoDigits_append_lt_iff (by omega) (by omega), twoDigits_append_lt_iff (by omega) (by omega),
    List.cons_lt_cons_iff, twoDigits_append_lt_iff bounds.2.1 others.2.1, List.cons_lt_cons_iff,
    days]
  unfold Before at before
  have dash : ('-' < '-') = False := by decide
  simp only [dash, false_or, true_and]
  omega

/-- The later day has the later text. -/
theorem text_civil_lt {day other : Nat} (lt : day < other) (bounded : other ≤ lastDay) :
    (civil day).text < (civil other).text := by
  exact (before_civil lt).text_lt
    (civil_bounds (Nat.le_of_lt (Nat.lt_of_lt_of_le lt bounded))) (civil_bounds bounded)

end ZcashSoloPool.Calendar
