import ZcashSoloPool.JavaScript.Value
import ZcashSoloPool.Wire.CompactSize

/-!
# Text encodings of the work manager

The helpers of `WorkManager` that turn fields of a template or of a submission
into hexadecimal text and back.  Each helper is translated on text; beside it
stands what it means for the byte strings that the text spells.
-/

namespace ZcashSoloPool.WorkManager

open ZcashSoloPool.Bytes
open ZcashSoloPool.JavaScript
open ZcashSoloPool.Wire

/-! ## Hexadecimal fields -/

/-- The text that `normalizeHexField` goes on to check.  The fields it is
applied to are never buffers or big integers. -/
def hexSource : Value → Option Text
  | .string text => some (strip0x (toLowerCase (trim text)))
  | .number n => if n.value < 0 then none else some (hexText n.value.toNat)
  | _ => none

/-- The leading zero that `allowOddLength` supplies. -/
def padOddLength (allowOddLength : Bool) (source : Text) : Text :=
  if allowOddLength && source.length % 2 != 0 then '0' :: source else source

/-- `normalizeHexField`; a `maxLength` of zero is no limit. -/
def normalizeHexField (input : Value) (allowOddLength : Bool) (maxLength : Nat) : Option Text := do
  let source ← hexSource input
  if !isHexText source then none
  else
    let normalized := padOddLength allowOddLength source
    if normalized.length % 2 ≠ 0 then none
    else if maxLength ≠ 0 ∧ normalized.length > maxLength then none
    else some normalized

/-- `WorkManager.normalizeTarget`. -/
def normalizeTarget (target : Value) : Option Text :=
  (normalizeHexField target false 64).map (padStart 64)

/-- `reverseHex` on text. -/
def reverseHex (h : Text) : Text :=
  toHex (ofHex h).reverse

/-- `reverseHex` on a value of the template, which may throw. -/
def reverseHexValue (h : Value) : Except String Text := do
  let bytes ← h.bufferFromHex
  pure (toHex bytes.reverse)

/-- `uint32ToHex`. -/
def uint32ToHex (n : Int) : Text :=
  toHex (toLE 4 (n % 2 ^ 32).toNat)

/-- `normalizeCompactBitsLE`. -/
def normalizeCompactBitsLE (bitsHex : Text) : Text :=
  let h := toLowerCase bitsHex
  if h.length ≠ 8 || !isHexText h then h
  else
    let beExp := hexNumber (h.take 2)
    let leExp := hexNumber (h.drop 6)
    let expRange := fun x => decide (3 ≤ x) && decide (x ≤ 32)
    if expRange beExp && !expRange leExp then reverseHex h
    else h

/-! ## Compact sizes -/

/-- `compactSizeHex`, on the non-negative integers below `2 ^ 64`. -/
def compactSizeHex (value : Nat) : Text :=
  if value < 253 then padStart 2 (hexText value)
  else if value ≤ 0xffff then "fd".toList ++ toHex (toLE 2 value)
  else if value ≤ 0xffffffff then "fe".toList ++ toHex (toLE 4 value)
  else "ff".toList ++ toHex (toLE 8 value)

/-- The result of `parseCompactSize`. -/
structure ParsedSize where
  value : Nat
  sizeHexChars : Nat
  deriving DecidableEq, Repr

/-- `Number.MAX_SAFE_INTEGER`. -/
def maxSafeInteger : Nat :=
  2 ^ 53 - 1

/-- `parseCompactSize`, on hexadecimal text. -/
def parseCompactSize (hexValue : Text) : Option ParsedSize :=
  if hexValue.length < 2 ∨ hexValue.length % 2 ≠ 0 then none
  else
    let first := hexNumber (hexValue.take 2)
    if first < 0xfd then some ⟨first, 2⟩
    else if first = 0xfd then
      if hexValue.length < 6 then none
      else some ⟨ofLE (ofHex ((hexValue.drop 2).take 4)), 6⟩
    else if first = 0xfe then
      if hexValue.length < 10 then none
      else some ⟨ofLE (ofHex ((hexValue.drop 2).take 8)), 10⟩
    else if hexValue.length < 18 then none
    else
      let value := ofLE (ofHex ((hexValue.drop 2).take 16))
      if value > maxSafeInteger then none else some ⟨value, 18⟩

/-! ## What the field checks guarantee -/

theorem isLowerHex_padOddLength {source : Text} (lower : IsLowerHex source)
    (allowOddLength : Bool) : IsLowerHex (padOddLength allowOddLength source) := by
  unfold padOddLength
  split
  · intro c member
    rcases List.mem_cons.mp member with rfl | member
    · decide
    · exact lower c member
  · exact lower

theorem padOddLength_ne_nil {source : Text} (nonempty : source ≠ []) (allowOddLength : Bool) :
    padOddLength allowOddLength source ≠ [] := by
  unfold padOddLength
  split
  · exact List.cons_ne_nil _ _
  · exact nonempty

/-- A normalised field spells whole bytes, at least one and no more than
allowed. -/
theorem normalizeHexField_eq_some {input : Value} {allowOddLength : Bool} {maxLength : Nat}
    {text : Text} (normalized : normalizeHexField input allowOddLength maxLength = some text) :
    IsHexBytes text ∧ text ≠ [] ∧ (maxLength ≠ 0 → text.length ≤ maxLength) := by
  unfold normalizeHexField at normalized
  rcases Option.bind_eq_some_iff.mp normalized with ⟨source, -, checked⟩
  split at checked
  · contradiction
  · next isHex =>
      rcases isHexText_iff.mp (by simpa using isHex) with ⟨nonempty, lower⟩
      dsimp only at checked
      split at checked
      · contradiction
      · next even =>
          split at checked
          · contradiction
          · next short =>
              have result := Option.some.inj checked
              subst result
              refine ⟨⟨isLowerHex_padOddLength lower _, not_not.mp even⟩,
                padOddLength_ne_nil nonempty _, fun limit => ?_⟩
              exact Nat.le_of_not_lt fun long => short ⟨limit, long⟩

/-- Text that spells whole bytes is normalised to their digits. -/
theorem normalizeHexField_of_spells {text : Text} {bytes : List UInt8}
    (spells : Spells text bytes) (nonempty : bytes ≠ []) (allowOddLength : Bool) (maxLength : Nat)
    (fits : maxLength = 0 ∨ 2 * bytes.length ≤ maxLength) :
    normalizeHexField (.string text) allowOddLength maxLength = some (toHex bytes) := by
  have hex := isHexBytes_toHex bytes
  have lowerCase : toLowerCase text = toHex bytes := spells
  have source : hexSource (.string text) = some (toHex bytes) := by
    rw [hexSource, trim_of_toLowerCase (by rw [lowerCase]; exact hex.lower), lowerCase,
      strip0x_of_isLowerHex hex.lower]
  have isHex : isHexText (toHex bytes) = true :=
    isHexText_iff.mpr ⟨toHex_ne_nil nonempty, hex.lower⟩
  have even : ¬(toHex bytes).length % 2 ≠ 0 := not_not.mpr hex.even
  have short : ¬(maxLength ≠ 0 ∧ (toHex bytes).length > maxLength) := by
    rw [length_toHex]
    omega
  have padded : padOddLength allowOddLength (toHex bytes) = toHex bytes := by
    simp [padOddLength]
  simp only [normalizeHexField, source, Option.bind_eq_bind, Option.bind_some, isHex, padded,
    Bool.not_true, Bool.false_eq_true, if_false, if_neg even, if_neg short]

/-- Text that already spells whole bytes is its own normal form. -/
theorem normalizeHexField_string {text : Text} (hex : IsHexBytes text) (nonempty : text ≠ [])
    (allowOddLength : Bool) (maxLength : Nat) (fits : maxLength = 0 ∨ text.length ≤ maxLength) :
    normalizeHexField (.string text) allowOddLength maxLength = some text := by
  obtain ⟨bytes, rfl⟩ := exists_toHex_eq hex
  refine normalizeHexField_of_spells (spells_toHex bytes) ?_ allowOddLength maxLength
    (by rwa [length_toHex] at fits)
  rintro rfl
  exact nonempty rfl

/-- A normalised target has exactly 64 digits. -/
theorem normalizeTarget_eq_some {target : Value} {text : Text}
    (normalized : normalizeTarget target = some text) :
    IsLowerHex text ∧ text.length = 64 := by
  obtain ⟨field, fieldEq, rfl⟩ := Option.map_eq_some_iff.mp normalized
  rcases normalizeHexField_eq_some fieldEq with ⟨hex, -, short⟩
  have := short (by decide)
  refine ⟨isLowerHex_padStart hex.lower 64, ?_⟩
  rw [length_padStart]
  omega

theorem normalizeTarget_string {text : Text} (lower : IsLowerHex text) (length : text.length = 64) :
    normalizeTarget (.string text) = some text := by
  have nonempty : text ≠ [] := by
    rintro rfl
    simp at length
  rw [normalizeTarget, normalizeHexField_string ⟨lower, by omega⟩ nonempty false 64
    (Or.inr length.le), Option.map_some, padStart_of_le length.ge]

/-! ## Byte order -/

@[simp]
theorem reverseHex_toHex (bytes : List UInt8) : reverseHex (toHex bytes) = toHex bytes.reverse := by
  rw [reverseHex, ofHex_toHex]

/-! ## Compact sizes as bytes -/

/-- One byte is written with two digits. -/
theorem padStart_hexText_byte (byte : UInt8) : padStart 2 (hexText byte.toNat) = toHex [byte] := by
  have allBytes : ∀ value < 256, padStart 2 (hexText value) =
      [hexDigit (value / 16), hexDigit (value % 16)] := by decide +kernel
  exact allBytes byte.toNat byte.toNat_lt

/-- The text of a length spells its shortest byte form. -/
theorem compactSizeHex_eq (value : Nat) : compactSizeHex value = toHex (compactSize value) := by
  unfold compactSizeHex compactSize
  split
  · next small =>
      have byteValue : (UInt8.ofNat value).toNat = value := by
        rw [UInt8.toNat_ofNat']
        omega
      rw [← padStart_hexText_byte, byteValue]
  · split
    · rfl
    · split <;> rfl

theorem hexNumber_take_toHex (first : UInt8) (rest : List UInt8) :
    hexNumber ((toHex (first :: rest)).take 2) = first.toNat := by
  have firstDigits : (toHex (first :: rest)).take 2 = toHex [first] := rfl
  rw [firstDigits, hexNumber_toHex, ofBE, List.reverse_singleton, ofLE_cons, ofLE_nil]
  omega

theorem take_toHex (bytes : List UInt8) (n : Nat) :
    (toHex bytes).take (2 * n) = toHex (bytes.take n) := by
  induction n generalizing bytes with
  | zero => simp
  | succ n ih =>
      cases bytes with
      | nil => simp
      | cons byte rest =>
          rw [toHex_cons, show 2 * (n + 1) = 2 * n + 1 + 1 by omega, List.take_succ_cons,
            List.take_succ_cons, ih, List.take_succ_cons, toHex_cons]

theorem drop_toHex (bytes : List UInt8) (n : Nat) :
    (toHex bytes).drop (2 * n) = toHex (bytes.drop n) := by
  induction n generalizing bytes with
  | zero => simp
  | succ n ih =>
      cases bytes with
      | nil => simp
      | cons byte rest =>
          rw [toHex_cons, show 2 * (n + 1) = 2 * n + 1 + 1 by omega, List.drop_succ_cons,
            List.drop_succ_cons, ih, List.drop_succ_cons]

/-- Parsing text is reading the length from the bytes it spells, for lengths
that are safe integers. -/
theorem parseCompactSize_toHex (bytes : List UInt8) :
    parseCompactSize (toHex bytes) =
      match readCompactSize bytes with
      | none => none
      | some (value, rest) =>
          if value > maxSafeInteger then none
          else some ⟨value, 2 * (bytes.length - rest.length)⟩ := by
  cases bytes with
  | nil => rfl
  | cons first rest =>
      have firstNumber := hexNumber_take_toHex first rest
      have byteBound : first.toNat < 256 := first.toNat_lt
      have tail : (toHex (first :: rest)).drop 2 = toHex rest := drop_toHex (first :: rest) 1
      have length : (toHex (first :: rest)).length = 2 * rest.length + 2 := by simp; omega
      have shape :
          ¬((toHex (first :: rest)).length < 2 ∨ (toHex (first :: rest)).length % 2 ≠ 0) := by
        omega
      rw [parseCompactSize, if_neg shape]
      simp only [firstNumber, tail, length]
      have payloadSafe : ∀ width, width ≤ 4 → ¬ofLE (rest.take width) > maxSafeInteger := by
        intro width narrow
        have bound := ofLE_lt (rest.take width)
        have widthBound : (rest.take width).length ≤ 4 := by simp; omega
        have := Nat.pow_le_pow_right (show 0 < 256 by decide) widthBound
        simp only [maxSafeInteger]
        omega
      by_cases small : first.toNat < 253
      · have safe : ¬first.toNat > maxSafeInteger := by simp only [maxSafeInteger]; omega
        rw [if_pos small, readCompactSize_small small]
        simp only [safe, if_false, List.length_cons]
        congr 2
        omega
      · rw [if_neg small]
        by_cases is253 : first.toNat = 253
        · have width : payloadWidth first = 2 := by simp [payloadWidth, is253]
          rw [if_pos is253, readCompactSize, if_neg small, width]
          by_cases short : rest.length < 2
          · rw [if_pos (by omega), if_pos short]
          · rw [if_neg (by omega), if_neg short]
            simp only [payloadSafe 2 (by decide), if_false, take_toHex rest 2, ofHex_toHex,
              List.length_drop, List.length_cons]
            congr 2
            omega
        · rw [if_neg is253]
          by_cases is254 : first.toNat = 254
          · have width : payloadWidth first = 4 := by simp [payloadWidth, is254]
            rw [if_pos is254, readCompactSize, if_neg small, width]
            by_cases short : rest.length < 4
            · rw [if_pos (by omega), if_pos short]
            · rw [if_neg (by omega), if_neg short]
              simp only [payloadSafe 4 (by decide), if_false, take_toHex rest 4, ofHex_toHex,
                List.length_drop, List.length_cons]
              congr 2
              omega
          · have width : payloadWidth first = 8 := by simp [payloadWidth, is253, is254, small]
            rw [if_neg is254, readCompactSize, if_neg small, width]
            by_cases short : rest.length < 8
            · rw [if_pos (by omega), if_pos short]
            · rw [if_neg (by omega), if_neg short]
              simp only [take_toHex rest 8, ofHex_toHex, List.length_drop, List.length_cons]
              split
              · rfl
              · congr 2
                omega

end ZcashSoloPool.WorkManager
