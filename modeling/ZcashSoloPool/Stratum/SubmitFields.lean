import ZcashSoloPool.Stratum.Messages
import Mathlib.Data.List.Permutation
import Mathlib.Data.List.TakeWhile

/-!
# Telling the fields of a submission apart

A field of a submission may be written with a mark `0x` in front, in either
letter case and with blanks around its digits.  Wherever the fields stand
between the job and the solution, the one with eight digits is taken for the
time and a longest one of the others for the nonce.
-/

namespace ZcashSoloPool.Stratum

open ZcashSoloPool.Bytes
open ZcashSoloPool.JavaScript
open ZcashSoloPool.WorkManager

/-! ## Blanks around a text -/

/-- A text of white space. -/
def IsBlank (text : Text) : Prop :=
  ∀ c ∈ text, isSpace c = true

theorem isBlank_takeWhile (text : Text) : IsBlank (text.takeWhile isSpace) := by
  intro c member
  exact List.mem_takeWhile_imp member

/-- A text is its trimmed form between blanks. -/
theorem exists_blanks (text : Text) :
    ∃ before after, IsBlank before ∧ IsBlank after ∧ text = before ++ trim text ++ after := by
  have front := List.takeWhile_append_dropWhile (p := isSpace) (l := text)
  have back := List.takeWhile_append_dropWhile (p := isSpace)
    (l := (text.dropWhile isSpace).reverse)
  refine ⟨text.takeWhile isSpace, ((text.dropWhile isSpace).reverse.takeWhile isSpace).reverse,
    isBlank_takeWhile text, ?_, ?_⟩
  · intro c member
    exact isBlank_takeWhile _ c (List.mem_reverse.mp member)
  · calc
      text = text.takeWhile isSpace ++ (text.dropWhile isSpace).reverse.reverse := by
        rw [List.reverse_reverse, front]
      _ = text.takeWhile isSpace ++ (trim text ++
          ((text.dropWhile isSpace).reverse.takeWhile isSpace).reverse) := by
        rw [trim, ← List.reverse_append, back]
      _ = _ := (List.append_assoc _ _ _).symm

/-- Blanks around digits are trimmed. -/
theorem trim_between {before digits after : Text} (blankBefore : IsBlank before)
    (blankAfter : IsBlank after) (lower : IsLowerHex digits) (nonempty : digits ≠ []) :
    trim (before ++ digits ++ after) = digits := by
  have reversed : IsBlank after.reverse := fun c member => blankAfter c (List.mem_reverse.mp member)
  have keep (part : Text) (rest : Text) (some_digits : part ≠ []) (hex : IsLowerHex part) :
      (part ++ rest).dropWhile isSpace = part ++ rest := by
    cases part with
    | nil => contradiction
    | cons c others =>
        rw [List.cons_append, List.dropWhile_cons_of_neg]
        rw [isSpace_of_mem_digits (hex c List.mem_cons_self)]
        exact Bool.false_ne_true
  have hexReversed : IsLowerHex digits.reverse :=
    fun c member => lower c (List.mem_reverse.mp member)
  rw [trim, List.append_assoc, List.dropWhile_append_of_pos blankBefore, keep _ _ nonempty lower,
    List.reverse_append, List.dropWhile_append_of_pos reversed]
  rw [← List.append_nil digits.reverse, keep _ _ (by simpa using nonempty) hexReversed]
  rw [List.append_nil, List.reverse_reverse]

/-! ## Fields -/

/-- What may stand in front of the digits of a field. -/
def marks : List Text :=
  [[], ['0', 'x'], ['0', 'X']]

/-- The value is a field with these digits: a string of an optional mark,
blanks, the digits in either letter case, and blanks. -/
inductive IsField : Value → Text → Prop
  | intro {mark before shown after : Text} (marked : mark ∈ marks) (blankBefore : IsBlank before)
      (blankAfter : IsBlank after) (hex : IsLowerHex (toLowerCase shown)) (nonempty : shown ≠ []) :
      IsField (.string (mark ++ before ++ shown ++ after)) (toLowerCase shown)

theorem toLowerCase_append (left right : Text) :
    toLowerCase (left ++ right) = toLowerCase left ++ toLowerCase right :=
  List.map_append

theorem IsBlank.toLowerCase_eq {text : Text} (blank : IsBlank text) : toLowerCase text = text := by
  rw [toLowerCase, List.map_congr_left fun c member => toLower_of_isSpace (blank c member)]
  exact List.map_id text

/-- Text that does not begin with a mark stays. -/
theorem strip0x_between {before digits after : Text} (blankBefore : IsBlank before)
    (blankAfter : IsBlank after) (lower : IsLowerHex digits) (nonempty : digits ≠ []) :
    strip0x (before ++ digits ++ after) = before ++ digits ++ after := by
  have zero : isSpace '0' = false := by decide
  have notBlank : isSpace 'x' = false := by decide
  have notDigit : 'x' ∉ Bytes.digits := by decide
  unfold strip0x
  split
  · next rest marked =>
      cases before with
      | cons c others =>
          have same : c = '0' := (List.cons.inj marked).1
          have blank := blankBefore c List.mem_cons_self
          rw [same, zero] at blank
          contradiction
      | nil =>
          cases digits with
          | nil => contradiction
          | cons c others =>
              have later : others ++ after = 'x' :: rest := (List.cons.inj marked).2
              have member : 'x' ∈ others ++ after := by
                rw [later]
                exact List.mem_cons_self
              rcases List.mem_append.mp member with digit | blank
              · exact absurd (lower 'x' (List.mem_cons_of_mem c digit)) notDigit
              · have space := blankAfter 'x' blank
                rw [notBlank] at space
                contradiction
  · rfl

theorem asHex_of_isField {v : Value} {digits : Text} (field : IsField v digits) :
    asHex v = digits := by
  cases field with
  | @intro mark before shown after marked blankBefore blankAfter hex nonempty =>
      have digitsNonempty : toLowerCase shown ≠ [] := by
        rw [toLowerCase, ne_eq, List.map_eq_nil_iff]
        exact nonempty
      have body : toLowerCase (before ++ shown ++ after) =
          before ++ toLowerCase shown ++ after := by
        rw [toLowerCase_append, toLowerCase_append, blankBefore.toLowerCase_eq,
          blankAfter.toLowerCase_eq]
      have stripped : strip0x (toLowerCase (mark ++ before ++ shown ++ after)) =
          before ++ toLowerCase shown ++ after := by
        rw [List.append_assoc, List.append_assoc, ← List.append_assoc before, toLowerCase_append,
          body]
        simp only [marks, List.mem_cons, List.not_mem_nil, or_false] at marked
        rcases marked with rfl | rfl | rfl
        · exact strip0x_between blankBefore blankAfter hex digitsNonempty
        · rfl
        · rfl
      rw [asHex, stripped, trim_between blankBefore blankAfter hex digitsNonempty]

/-- What holds of the upper-case letters, listed by number. -/
theorem of_isUpper {P : Char → Prop} (letters : ∀ n < 26, P (Char.ofNat (65 + n))) {c : Char}
    (upper : c.val ≥ 'A'.val ∧ c.val ≤ 'Z'.val) : P c := by
  have low : 65 ≤ c.toNat := upper.1
  have high : c.toNat ≤ 90 := upper.2
  have letter := letters (c.toNat - 65) (by omega)
  rwa [Nat.add_sub_cancel' low, Char.ofNat_toNat] at letter

/-- A character is white space in either letter case or in none. -/
theorem isSpace_toLower (c : Char) : isSpace c.toLower = isSpace c := by
  by_cases upper : c.val ≥ 'A'.val ∧ c.val ≤ 'Z'.val
  · apply of_isUpper (P := fun c => isSpace c.toLower = isSpace c) _ upper
    decide
  · rw [toLower_of_not_upper upper]

theorem eq_zero_of_toLower {c : Char} (lowered : c.toLower = '0') : c = '0' := by
  by_cases upper : c.val ≥ 'A'.val ∧ c.val ≤ 'Z'.val
  · have letter : c.toLower ≠ '0' := by
      apply of_isUpper (P := fun c => c.toLower ≠ '0') _ upper
      decide
    contradiction
  · rwa [toLower_of_not_upper upper] at lowered

theorem eq_x_of_toLower {c : Char} (lowered : c.toLower = 'x') : c = 'x' ∨ c = 'X' := by
  by_cases upper : c.val ≥ 'A'.val ∧ c.val ≤ 'Z'.val
  · right
    revert lowered
    apply of_isUpper (P := fun c => c.toLower = 'x' → c = 'X') _ upper
    decide
  · left
    rwa [toLower_of_not_upper upper] at lowered

theorem trim_toLowerCase (text : Text) : trim (toLowerCase text) = toLowerCase (trim text) := by
  have same : isSpace ∘ Char.toLower = isSpace := funext isSpace_toLower
  simp only [trim, toLowerCase, List.dropWhile_map, ← List.map_reverse, same]

/-- A text is a mark and the text that is left when the mark is removed. -/
theorem exists_mark (text : Text) :
    ∃ mark ∈ marks, ∃ rest, text = mark ++ rest ∧
      strip0x (toLowerCase text) = toLowerCase rest := by
  unfold strip0x
  split
  · next rest lowered =>
      obtain ⟨zero, others, rfl, isZero, later⟩ := List.map_eq_cons_iff.mp lowered
      obtain ⟨x, others, rfl, isX, rfl⟩ := List.map_eq_cons_iff.mp later
      cases eq_zero_of_toLower isZero
      refine ⟨['0', x], ?_, others, rfl, rfl⟩
      rcases eq_x_of_toLower isX with rfl | rfl
      · exact List.mem_cons_of_mem _ List.mem_cons_self
      · exact List.mem_cons_of_mem _ (List.mem_cons_of_mem _ List.mem_cons_self)
  · exact ⟨[], List.mem_cons_self, text, rfl, rfl⟩

/-- Only a string has a normalised text. -/
theorem exists_string_of_asHex_ne_nil {v : Value} (nonempty : asHex v ≠ []) :
    ∃ text, v = .string text := by
  cases v with
  | string text => exact ⟨text, rfl⟩
  | undefined => contradiction
  | null => contradiction
  | bool flag => contradiction
  | number n => contradiction
  | object identity text buffer => contradiction

/-- A value with digits left after the normalisation is a field. -/
theorem isField_asHex {v : Value} (lower : IsLowerHex (asHex v)) (nonempty : asHex v ≠ []) :
    IsField v (asHex v) := by
  obtain ⟨text, rfl⟩ := exists_string_of_asHex_ne_nil nonempty
  obtain ⟨mark, marked, rest, rfl, stripped⟩ := exists_mark text
  obtain ⟨before, after, blankBefore, blankAfter, around⟩ := exists_blanks rest
  have shown : asHex (.string (mark ++ rest)) = toLowerCase (trim rest) := by
    rw [asHex, stripped, trim_toLowerCase]
  rw [shown] at lower nonempty ⊢
  rw [around, ← List.append_assoc, ← List.append_assoc, ← around]
  apply IsField.intro marked blankBefore blankAfter lower
  intro empty
  rw [empty] at nonempty
  exact nonempty rfl

theorem isField_iff {v : Value} {digits : Text} :
    IsField v digits ↔ asHex v = digits ∧ IsLowerHex digits ∧ digits ≠ [] := by
  constructor
  · intro field
    refine ⟨asHex_of_isField field, ?_⟩
    cases field with
    | intro marked blankBefore blankAfter hex nonempty =>
        refine ⟨hex, ?_⟩
        rw [toLowerCase, ne_eq, List.map_eq_nil_iff]
        exact nonempty
  · rintro ⟨rfl, lower, nonempty⟩
    exact isField_asHex lower nonempty

theorem isNTimeHex_iff {v : Value} :
    isNTimeHex v = true ↔ ∃ digits, IsField v digits ∧ digits.length = 8 := by
  rw [isNTimeHex, Bool.and_eq_true_iff, beq_iff_eq, isHexText_iff]
  constructor
  · rintro ⟨length, nonempty, lower⟩
    exact ⟨asHex v, isField_asHex lower nonempty, length⟩
  · rintro ⟨digits, field, length⟩
    obtain ⟨rfl, lower, nonempty⟩ := isField_iff.mp field
    exact ⟨length, nonempty, lower⟩

/-- The normalised text is lower-case. -/
theorem toLower_of_mem_asHex {v : Value} {c : Char} (member : c ∈ asHex v) : c.toLower = c := by
  obtain ⟨text, rfl⟩ := exists_string_of_asHex_ne_nil (List.ne_nil_of_mem member)
  obtain ⟨mark, -, rest, -, stripped⟩ := exists_mark text
  rw [asHex, stripped, trim_toLowerCase] at member
  obtain ⟨other, -, rfl⟩ := List.mem_map.mp member
  exact toLower_toLower other

theorem isHexLike_iff {v : Value} : isHexLike v = true ↔ ∃ digits, IsField v digits := by
  have digit_iff {c : Char} (member : c ∈ asHex v) :
      (hexValue c).isSome = true ↔ c ∈ Bytes.digits := by
    rw [hexValue, toLower_of_mem_asHex member, List.isSome_idxOf?]
  rw [isHexLike, Bool.and_eq_true_iff, Bool.not_eq_true', List.isEmpty_eq_false_iff,
    List.all_eq_true]
  constructor
  · rintro ⟨nonempty, hex⟩
    exact ⟨asHex v, isField_asHex (fun c member => (digit_iff member).mp (hex c member)) nonempty⟩
  · rintro ⟨digits, field⟩
    obtain ⟨rfl, lower, nonempty⟩ := isField_iff.mp field
    exact ⟨nonempty, fun c member => (digit_iff member).mpr (lower c member)⟩

theorem truthy_of_isField {v : Value} {digits : Text} (field : IsField v digits) :
    v.truthy = true := by
  cases field with
  | @intro mark before shown after marked blankBefore blankAfter hex nonempty =>
      have written : mark ++ before ++ shown ++ after ≠ [] := by simp [nonempty]
      simpa [Value.truthy] using written

/-- What the normalisation leaves of a string of ASCII, where every letter is
lowered by itself, and of a value that is no string. -/
inductive IsNormalised : Value → Text → Prop
  | ascii {text : Text} (ascii : ∀ c ∈ text, c.toNat < 128) :
      IsNormalised (.string text) (trim (strip0x (toLowerCase text)))
  | other {v : Value} (noString : ∀ text, v ≠ .string text) : IsNormalised v []

theorem asHex_of_isNormalised {v : Value} {shown : Text} (normalised : IsNormalised v shown) :
    asHex v = shown := by
  cases normalised with
  | ascii _ => rfl
  | other noString =>
      cases v with
      | string text => exact absurd rfl (noString text)
      | _ => rfl

/-! ## The search for the time and the nonce -/

/-- The only time is found wherever it stands. -/
theorem find_isNTimeHex {time : Value} {others middle : List Value}
    (order : middle.Perm (time :: others)) (isTime : isNTimeHex time = true)
    (unique : ∀ other ∈ others, ¬isNTimeHex other = true) :
    middle.find? isNTimeHex = some time := by
  cases found : middle.find? isNTimeHex with
  | none =>
      have none := List.find?_eq_none.mp found time (order.mem_iff.mpr List.mem_cons_self)
      contradiction
  | some other =>
      have member := order.mem_iff.mp (List.mem_of_find?_eq_some found)
      rcases List.mem_cons.mp member with rfl | later
      · rfl
      · exact absurd (List.find?_some found) (unique other later)

/-- The first of the sorted candidates is a longest one. -/
theorem exists_longest {candidates : List Value} (nonempty : candidates ≠ []) :
    ∃ nonce ∈ candidates,
      (∀ other ∈ candidates, (asHex other).length ≤ (asHex nonce).length) ∧
      (candidates.mergeSort fun a b => decide ((asHex b).length ≤ (asHex a).length)).headD .null =
        nonce := by
  have order := List.mergeSort_perm candidates fun a b =>
    decide ((asHex b).length ≤ (asHex a).length)
  have sorted : (candidates.mergeSort fun a b =>
      decide ((asHex b).length ≤ (asHex a).length)).Pairwise fun a b =>
        decide ((asHex b).length ≤ (asHex a).length) = true := by
    apply List.pairwise_mergeSort
    · intro a b c first second
      exact decide_eq_true ((of_decide_eq_true second).trans (of_decide_eq_true first))
    · intro a b
      rw [Bool.or_eq_true_iff, decide_eq_true_iff, decide_eq_true_iff]
      exact Nat.le_total _ _
  cases result : candidates.mergeSort fun a b =>
      decide ((asHex b).length ≤ (asHex a).length) with
  | nil =>
      rw [result] at order
      exact absurd order.symm.eq_nil nonempty
  | cons nonce rest =>
      rw [result] at order sorted
      refine ⟨nonce, order.mem_iff.mp List.mem_cons_self, ?_, rfl⟩
      intro other member
      rcases List.mem_cons.mp (order.mem_iff.mpr member) with rfl | later
      · exact Nat.le_refl _
      · exact of_decide_eq_true ((List.pairwise_cons.mp sorted).1 other later)

/-- Besides the time that was found, the nonce is a longest one of the other
hexadecimal values. -/
theorem findTimeAndNonce_of_find {time : Value} {middle : List Value}
    (found : middle.find? isNTimeHex = some time)
    (another : ∃ other ∈ middle, other ≠ time ∧ isHexLike other = true) :
    ∃ nonce ∈ middle, nonce ≠ time ∧ isHexLike nonce = true ∧
      (∀ other ∈ middle, other ≠ time → isHexLike other = true →
        (asHex other).length ≤ (asHex nonce).length) ∧
      findTimeAndNonce middle = (time, nonce) := by
  have candidate_iff (v : Value) :
      v ∈ middle.filter (fun v => decide (v ≠ time) && isHexLike v) ↔
        v ∈ middle ∧ v ≠ time ∧ isHexLike v = true := by
    rw [List.mem_filter, Bool.and_eq_true_iff, decide_eq_true_iff]
  obtain ⟨hexOther, member, different, hex⟩ := another
  have nonempty : middle.filter (fun v => decide (v ≠ time) && isHexLike v) ≠ [] :=
    List.ne_nil_of_mem ((candidate_iff hexOther).mpr ⟨member, different, hex⟩)
  obtain ⟨nonce, candidate, longest, head⟩ := exists_longest nonempty
  obtain ⟨nonceMember, nonceDifferent, nonceHex⟩ := (candidate_iff nonce).mp candidate
  refine ⟨nonce, nonceMember, nonceDifferent, nonceHex, ?_, ?_⟩
  · intro other otherMember otherDifferent otherHex
    exact longest other ((candidate_iff other).mpr ⟨otherMember, otherDifferent, otherHex⟩)
  · rw [findTimeAndNonce, found, Option.getD_some]
    exact congrArg (Prod.mk time) head

/-! ## The result -/

/-- A time and a nonce that the search finds are taken. -/
theorem parseSubmit_of_found (worker jobId solution : Value) {time nonce : Value}
    {middle : List Value} (long : 2 ≤ middle.length)
    (found : findTimeAndNonce middle = (time, nonce)) (isTime : isNTimeHex time = true)
    (isHex : isHexLike nonce = true) :
    parseSubmit (some (worker :: jobId :: (middle ++ [solution]))) =
      ⟨worker, some jobId.joinText, some (asHex time), some (asHex nonce),
        some (asHex solution)⟩ := by
  have enough : (worker :: jobId :: (middle ++ [solution])).length ≥ 5 := by
    simp only [List.length_cons, List.length_append, List.length_nil]
    omega
  obtain ⟨timeDigits, timeField, -⟩ := isNTimeHex_iff.mp isTime
  obtain ⟨nonceDigits, nonceField⟩ := isHexLike_iff.mp isHex
  have both : (!time.truthy || !nonce.truthy) = false := by
    rw [truthy_of_isField timeField, truthy_of_isField nonceField]
    rfl
  rw [parseSubmit]
  dsimp only
  rw [if_pos enough]
  simp only [List.drop_succ_cons, List.drop_zero, List.dropLast_concat, found, both,
    Bool.false_eq_true, if_false, List.getD_cons_zero, List.getD_cons_succ]
  rw [List.getLastD_concat]

/-- With four parameters, a time is taken for one wherever it stands. -/
theorem parseSubmit_of_perm_pair (jobId solution : Value) {time other : Value}
    {middle : List Value} (order : middle.Perm [time, other]) (isTime : isNTimeHex time = true)
    (unique : ¬isNTimeHex other = true) :
    parseSubmit (some (jobId :: (middle ++ [solution]))) =
      ⟨.null, some jobId.joinText, some (asHex time), some (asHex other),
        some (asHex solution)⟩ := by
  have length : (jobId :: (middle ++ [solution])).length = 4 := by
    have count := order.length_eq
    simp only [List.length_cons, List.length_append, List.length_nil] at count ⊢
    omega
  rw [parseSubmit]
  dsimp only
  rw [if_neg (by omega), if_pos length]
  rcases List.perm_pair.mp order with rfl | rfl
  · simp [isTime]
  · simp [isTime, unique]

/-- The value is a field of eight digits, and none of the others is one. -/
structure IsOnlyTime (time : Value) (digits : Text) (others : List Value) : Prop where
  field : IsField time digits
  eight : digits.length = 8
  unique : ∀ other ∈ others, ∀ otherDigits, IsField other otherDigits → otherDigits.length ≠ 8

/-- The job id of five parameters or more is the second one. -/
theorem parseSubmit?_of_found (hostile : Nat → Bool) (worker jobId solution : Value)
    {time nonce : Value} {middle : List Value} (long : 2 ≤ middle.length)
    (found : findTimeAndNonce middle = (time, nonce)) (isTime : isNTimeHex time = true)
    (isHex : isHexLike nonce = true) :
    parseSubmit? hostile (some (worker :: jobId :: (middle ++ [solution]))) =
      if jobId.throwsOn hostile then none
      else some ⟨worker, some jobId.joinText, some (asHex time), some (asHex nonce),
        some (asHex solution)⟩ := by
  have enough : (worker :: jobId :: (middle ++ [solution])).length ≥ 5 := by
    simp only [List.length_cons, List.length_append, List.length_nil]
    omega
  have second : jobIdParam (some (worker :: jobId :: (middle ++ [solution]))) = jobId :=
    if_pos enough
  rw [parseSubmit?, second, parseSubmit_of_found worker jobId solution long found isTime isHex]

/-- The job id of four parameters is the first one. -/
theorem parseSubmit?_of_perm_pair (hostile : Nat → Bool) (jobId solution : Value)
    {time other : Value} {middle : List Value} (order : middle.Perm [time, other])
    (isTime : isNTimeHex time = true) (unique : ¬isNTimeHex other = true) :
    parseSubmit? hostile (some (jobId :: (middle ++ [solution]))) =
      if jobId.throwsOn hostile then none
      else some ⟨.null, some jobId.joinText, some (asHex time), some (asHex other),
        some (asHex solution)⟩ := by
  have first : jobIdParam (some (jobId :: (middle ++ [solution]))) = jobId := by
    rcases List.perm_pair.mp order with rfl | rfl
    · rfl
    · rfl
  rw [parseSubmit?, first, parseSubmit_of_perm_pair jobId solution order isTime unique]

/-- The fields of a submission are found in any order: with five parameters or
more the only field of eight digits is the time and a longest other field the
nonce, and with four the time and the other value.  Only a job id can throw. -/
theorem parseSubmit_any_order (hostile : Nat → Bool) {time : Value} {digits : Text}
    {others : List Value} (only : IsOnlyTime time digits others) (jobId : Value)
    {solution : Value} {solutionText : Text} (normalised : IsNormalised solution solutionText) :
    (∀ (worker : Value) (middle : List Value), middle.Perm (time :: others) →
      (∃ other ∈ others, ∃ otherDigits, IsField other otherDigits) →
      ∃ nonce ∈ others, ∃ nonceDigits, IsField nonce nonceDigits ∧
        (∀ other ∈ others, ∀ otherDigits, IsField other otherDigits →
          otherDigits.length ≤ nonceDigits.length) ∧
        parseSubmit? hostile (some (worker :: jobId :: (middle ++ [solution]))) =
          if jobId.throwsOn hostile then none
          else some
            ⟨worker, some jobId.joinText, some digits, some nonceDigits, some solutionText⟩) ∧
    (∀ (other : Value) (otherText : Text) (middle : List Value), others = [other] →
      IsNormalised other otherText → middle.Perm [time, other] →
      parseSubmit? hostile (some (jobId :: (middle ++ [solution]))) =
        if jobId.throwsOn hostile then none
        else some ⟨.null, some jobId.joinText, some digits, some otherText, some solutionText⟩) := by
  have isTime : isNTimeHex time = true := isNTimeHex_iff.mpr ⟨digits, only.field, only.eight⟩
  have unique : ∀ other ∈ others, ¬isNTimeHex other = true := by
    intro other member isTime
    obtain ⟨otherDigits, field, eight⟩ := isNTimeHex_iff.mp isTime
    exact only.unique other member otherDigits field eight
  have timeDigits := asHex_of_isField only.field
  constructor
  · intro worker middle order someField
    have mem_iff (other : Value) : other ∈ others ↔ other ∈ middle ∧ other ≠ time := by
      rw [order.mem_iff, List.mem_cons]
      constructor
      · intro member
        refine ⟨Or.inr member, ?_⟩
        rintro rfl
        exact unique other member isTime
      · rintro ⟨same | member, different⟩
        · exact absurd same different
        · exact member
    obtain ⟨hexOther, member, hexDigits, hexField⟩ := someField
    have inMiddle := (mem_iff hexOther).mp member
    obtain ⟨nonce, nonceMember, different, hex, longest, found⟩ :=
      findTimeAndNonce_of_find (find_isNTimeHex order isTime unique)
        ⟨hexOther, inMiddle.1, inMiddle.2, isHexLike_iff.mpr ⟨hexDigits, hexField⟩⟩
    obtain ⟨nonceDigits, nonceField⟩ := isHexLike_iff.mp hex
    have nonceText := asHex_of_isField nonceField
    refine ⟨nonce, (mem_iff nonce).mpr ⟨nonceMember, different⟩, nonceDigits, nonceField, ?_, ?_⟩
    · intro other otherMember otherDigits field
      obtain ⟨otherIn, otherDifferent⟩ := (mem_iff other).mp otherMember
      have bound := longest other otherIn otherDifferent (isHexLike_iff.mpr ⟨otherDigits, field⟩)
      rwa [asHex_of_isField field, nonceText] at bound
    · have long : 2 ≤ middle.length := by
        have count := order.length_eq
        have another := List.length_pos_of_mem member
        rw [List.length_cons] at count
        omega
      rw [parseSubmit?_of_found hostile worker jobId solution long found isTime hex, timeDigits,
        nonceText, asHex_of_isNormalised normalised]
  · rintro other otherText middle rfl otherNormalised order
    have otherIsNone := unique other List.mem_cons_self
    rw [parseSubmit?_of_perm_pair hostile jobId solution order isTime otherIsNone, timeDigits,
      asHex_of_isNormalised otherNormalised, asHex_of_isNormalised normalised]

/-- A marked time in capital letters behind the nonce. -/
theorem parseSubmit_any_order_capitals :
    ∃ nonceDigits, parseSubmit? (fun _ => true) (some [.string "w".toList, .string "1f".toList,
        .string "ABCDEF0123".toList, .string "0X6553F100".toList, .string "FD4005".toList]) =
      some ⟨.string "w".toList, some "1f".toList, some "6553f100".toList, some nonceDigits,
        some "fd4005".toList⟩ := by
  have time : IsField (.string "0X6553F100".toList) "6553f100".toList :=
    isField_iff.mpr (by decide)
  have nonce : IsField (.string "ABCDEF0123".toList) "abcdef0123".toList :=
    isField_iff.mpr (by decide)
  have only : IsOnlyTime (.string "0X6553F100".toList) "6553f100".toList
      [.string "ABCDEF0123".toList] := by
    refine ⟨time, by decide, ?_⟩
    intro other member otherDigits field
    rw [List.mem_singleton.mp member] at field
    rw [← asHex_of_isField field]
    decide
  have ascii : ("FD4005".toList.all fun c => decide (c.toNat < 128)) = true := rfl
  have solution : IsNormalised (.string "FD4005".toList) "fd4005".toList :=
    .ascii fun c member => of_decide_eq_true (List.all_eq_true.mp ascii c member)
  obtain ⟨-, -, nonceDigits, -, -, result⟩ :=
    (parseSubmit_any_order (fun _ => true) only (.string "1f".toList) solution).1
      (.string "w".toList) [.string "ABCDEF0123".toList, .string "0X6553F100".toList]
      (List.Perm.swap _ _ _) ⟨_, List.mem_cons_self, _, nonce⟩
  exact ⟨nonceDigits, result⟩

/-! ## Fields with blanks -/

/-- The digits of a string that is nothing but an optional mark and digits. -/
def plainDigits : Value → Option Text
  | .string text =>
      if isHexText (strip0x (toLowerCase text)) then some (strip0x (toLowerCase text)) else none
  | _ => none

/-- Without regard to blanks the time is not found: another value with eight
digits after a blank is taken for it. -/
theorem not_forall_plainDigits :
    ¬∀ (worker jobId solution time : Value) (digits : Text) (others middle : List Value),
      plainDigits time = some digits → digits.length = 8 →
      (∀ other ∈ others, ∀ otherDigits, plainDigits other = some otherDigits →
        otherDigits.length ≠ 8) →
      (∃ other ∈ others, ∃ otherDigits, plainDigits other = some otherDigits) →
      middle.Perm (time :: others) →
      (parseSubmit (some (worker :: jobId :: (middle ++ [solution])))).nTime = some digits := by
  intro every
  have wrong := every .null .null .null (.string "22222222".toList) "22222222".toList
    [.string " 11111111".toList, .string "abcdef".toList]
    [.string " 11111111".toList, .string "22222222".toList, .string "abcdef".toList]
    (by decide) (by decide)
    (by
      intro other member otherDigits plain
      rcases List.mem_pair.mp member with rfl | rfl
      · rw [show plainDigits (.string " 11111111".toList) = none by decide] at plain
        contradiction
      · rw [show plainDigits (.string "abcdef".toList) = some "abcdef".toList by decide] at plain
        cases plain
        decide)
    ⟨_, List.mem_cons_of_mem _ List.mem_cons_self, "abcdef".toList, by decide⟩
    (List.Perm.swap _ _ _)
  have first : [Value.string " 11111111".toList, .string "22222222".toList,
      .string "abcdef".toList].find? isNTimeHex = some (.string " 11111111".toList) := by
    decide
  obtain ⟨nonce, -, -, hex, -, found⟩ := findTimeAndNonce_of_find first
    ⟨.string "abcdef".toList, by decide, by decide, by decide⟩
  rw [parseSubmit_of_found .null .null .null (by decide) found (by decide) hex] at wrong
  have taken : asHex (.string " 11111111".toList) = "22222222".toList := Option.some.inj wrong
  exact absurd taken (by decide)

end ZcashSoloPool.Stratum
