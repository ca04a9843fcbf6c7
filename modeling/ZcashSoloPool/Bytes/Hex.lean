import ZcashSoloPool.Bytes.Endian

/-!
# Hexadecimal text

Byte strings written as two digits a byte, high half first.  Decoding accepts
both letter cases and, like the decoders of scripting runtimes, stops silently
at the first pair that is not hexadecimal.  On even-length lower-case text the
two directions are inverse, and both distribute over concatenation.
-/

namespace ZcashSoloPool.Bytes

/-- The sixteen lower-case digits in order. -/
def digits : List Char :=
  "0123456789abcdef".toList

/-- The digit of a value below sixteen. -/
def hexDigit (value : Nat) : Char :=
  digits.getD value '0'

/-- Value of a digit of either case. -/
def hexValue (digit : Char) : Option Nat :=
  digits.idxOf? digit.toLower

/-- Digits of a byte string. -/
def toHex (bytes : List UInt8) : List Char :=
  bytes.flatMap fun byte => [hexDigit (byte.toNat / 16), hexDigit (byte.toNat % 16)]

/-- Bytes of a text, up to the first pair of characters that is not a byte. -/
def ofHex : List Char → List UInt8
  | high :: low :: rest =>
      match hexValue high, hexValue low with
      | some highValue, some lowValue => UInt8.ofNat (16 * highValue + lowValue) :: ofHex rest
      | _, _ => []
  | _ => []

/-- Text of lower-case digits only. -/
def IsLowerHex (text : List Char) : Prop :=
  ∀ c ∈ text, c ∈ digits

instance (text : List Char) : Decidable (IsLowerHex text) :=
  List.decidableBAll (· ∈ digits) text

/-- Text that spells whole bytes in lower-case digits. -/
structure IsHexBytes (text : List Char) : Prop where
  lower : IsLowerHex text
  even : text.length % 2 = 0

instance (text : List Char) : Decidable (IsHexBytes text) :=
  decidable_of_iff (IsLowerHex text ∧ text.length % 2 = 0)
    ⟨fun h => ⟨h.1, h.2⟩, fun h => ⟨h.lower, h.even⟩⟩

/-! ## Digits -/

theorem hexDigit_mem {value : Nat} (bound : value < 16) : hexDigit value ∈ digits := by
  revert value
  decide

theorem hexValue_hexDigit {value : Nat} (bound : value < 16) :
    hexValue (hexDigit value) = some value := by
  revert value
  decide

theorem exists_hexValue_of_mem {c : Char} (member : c ∈ digits) :
    ∃ value < 16, hexValue c = some value ∧ hexDigit value = c := by
  obtain ⟨value, bound, rfl⟩ := List.mem_iff_getElem.mp member
  have digit : hexDigit value = digits[value] := List.getD_eq_getElem digits '0' bound
  exact ⟨value, bound, digit ▸ hexValue_hexDigit bound, digit⟩

theorem toLower_of_mem {c : Char} (member : c ∈ digits) : c.toLower = c := by
  obtain ⟨value, bound, -, rfl⟩ := exists_hexValue_of_mem member
  revert value
  decide

theorem toLower_of_not_upper {c : Char} (notUpper : ¬(c.val ≥ 'A'.val ∧ c.val ≤ 'Z'.val)) :
    c.toLower = c :=
  dif_neg notUpper

/-- Making a character lower-case twice is making it so once. -/
theorem toLower_toLower (c : Char) : c.toLower.toLower = c.toLower := by
  by_cases upper : c.val ≥ 'A'.val ∧ c.val ≤ 'Z'.val
  · have value : c.toLower.val = c.val + ('a'.val - 'A'.val) :=
      congrArg Char.val (dif_pos upper)
    apply toLower_of_not_upper
    rw [value]
    simp only [UInt32.le_iff_toNat_le, ge_iff_le, UInt32.toNat_add] at *
    simp at *
    omega
  · rw [toLower_of_not_upper upper, toLower_of_not_upper upper]

theorem hexValue_toLower (c : Char) : hexValue c.toLower = hexValue c := by
  rw [hexValue, hexValue, toLower_toLower]

/-! ## Lower-case text -/

@[simp]
theorem isLowerHex_append {left right : List Char} :
    IsLowerHex (left ++ right) ↔ IsLowerHex left ∧ IsLowerHex right := by
  simp [IsLowerHex, or_imp, forall_and]

theorem IsLowerHex.sublist {part text : List Char} (sublist : part.Sublist text)
    (lower : IsLowerHex text) : IsLowerHex part :=
  fun c member => lower c (sublist.mem member)

theorem IsLowerHex.take {text : List Char} (lower : IsLowerHex text) (n : Nat) :
    IsLowerHex (text.take n) :=
  lower.sublist (List.take_sublist n text)

theorem IsLowerHex.drop {text : List Char} (lower : IsLowerHex text) (n : Nat) :
    IsLowerHex (text.drop n) :=
  lower.sublist (List.drop_sublist n text)

theorem isLowerHex_replicate_zero (count : Nat) : IsLowerHex (List.replicate count '0') := by
  intro c member
  rw [List.eq_of_mem_replicate member]
  decide

theorem IsLowerHex.map_toLower {text : List Char} (lower : IsLowerHex text) :
    text.map Char.toLower = text := by
  rw [List.map_congr_left fun c member => toLower_of_mem (lower c member), List.map_id'']
  exact fun _ => rfl

/-! ## Encoding -/

@[simp]
theorem toHex_nil : toHex [] = [] :=
  rfl

theorem toHex_cons (byte : UInt8) (rest : List UInt8) :
    toHex (byte :: rest) =
      hexDigit (byte.toNat / 16) :: hexDigit (byte.toNat % 16) :: toHex rest :=
  rfl

@[simp]
theorem toHex_append (left right : List UInt8) :
    toHex (left ++ right) = toHex left ++ toHex right := by
  simp [toHex]

@[simp]
theorem length_toHex (bytes : List UInt8) : (toHex bytes).length = 2 * bytes.length := by
  induction bytes with
  | nil => rfl
  | cons byte rest ih =>
      simp only [toHex_cons, List.length_cons, ih]
      omega

theorem toHex_ne_nil {bytes : List UInt8} (nonempty : bytes ≠ []) : toHex bytes ≠ [] := by
  have := List.length_pos_iff.mpr nonempty
  exact List.ne_nil_of_length_pos (by rw [length_toHex]; omega)

/-- The digits of a part are a part of the digits. -/
theorem toHex_infix {part whole : List UInt8} (occurs : part <:+: whole) :
    toHex part <:+: toHex whole := by
  obtain ⟨before, after, rfl⟩ := occurs
  exact ⟨toHex before, toHex after, by simp⟩

theorem isHexBytes_toHex (bytes : List UInt8) : IsHexBytes (toHex bytes) where
  lower := by
    intro c member
    simp only [toHex, List.mem_flatMap, List.mem_cons, List.not_mem_nil, or_false] at member
    obtain ⟨byte, _, rfl | rfl⟩ := member
    · exact hexDigit_mem (Nat.div_lt_of_lt_mul byte.toNat_lt)
    · exact hexDigit_mem (Nat.mod_lt _ (by decide))
  even := by simp

/-! ## Decoding -/

/-- A whole number of bytes in front is decoded before what follows. -/
@[simp]
theorem ofHex_toHex_append (bytes : List UInt8) (text : List Char) :
    ofHex (toHex bytes ++ text) = bytes ++ ofHex text := by
  induction bytes with
  | nil => rfl
  | cons byte rest ih =>
      have high : byte.toNat / 16 < 16 := Nat.div_lt_of_lt_mul byte.toNat_lt
      have low : byte.toNat % 16 < 16 := Nat.mod_lt _ (by decide)
      rw [toHex_cons, List.cons_append, List.cons_append, ofHex, hexValue_hexDigit high,
        hexValue_hexDigit low]
      simp [ih, Nat.div_add_mod]

/-- Reading the digits of a byte string gives the byte string back. -/
@[simp]
theorem ofHex_toHex (bytes : List UInt8) : ofHex (toHex bytes) = bytes := by
  have decoded := ofHex_toHex_append bytes []
  rwa [List.append_nil, show ofHex [] = [] from rfl, List.append_nil] at decoded

theorem toHex_injective : Function.Injective toHex :=
  Function.LeftInverse.injective ofHex_toHex

/-- Text of whole bytes is the encoding of the bytes it decodes to. -/
theorem toHex_ofHex {text : List Char} (hex : IsHexBytes text) : toHex (ofHex text) = text := by
  rcases hex with ⟨lower, even⟩
  induction text using ofHex.induct with
  | case1 high low rest highValue lowValue highEq lowEq ih =>
      rcases exists_hexValue_of_mem (lower high (by simp)) with ⟨x, xBound, xValue, xDigit⟩
      rcases exists_hexValue_of_mem (lower low (by simp)) with ⟨y, yBound, yValue, yDigit⟩
      have restBytes := ih (fun c member => lower c (by simp [member])) (by
        simp only [List.length_cons] at even
        omega)
      have value : (UInt8.ofNat (16 * x + y)).toNat = 16 * x + y := by
        rw [UInt8.toNat_ofNat']
        omega
      rw [ofHex, xValue, yValue]
      simp only [toHex_cons, value, restBytes]
      rw [show (16 * x + y) / 16 = x by omega, show (16 * x + y) % 16 = y by omega, xDigit, yDigit]
  | case2 high low rest noByte =>
      rcases exists_hexValue_of_mem (lower high (by simp)) with ⟨x, _, xValue, _⟩
      rcases exists_hexValue_of_mem (lower low (by simp)) with ⟨y, _, yValue, _⟩
      exact absurd yValue (noByte x y xValue)
  | case3 text short =>
      match text with
      | [] => rfl
      | [c] => simp at even
      | high :: low :: rest => exact absurd rfl (short high low rest)

theorem exists_toHex_eq {text : List Char} (hex : IsHexBytes text) :
    ∃ bytes, text = toHex bytes :=
  ⟨ofHex text, (toHex_ofHex hex).symm⟩

theorem length_ofHex {text : List Char} (hex : IsHexBytes text) :
    (ofHex text).length = text.length / 2 := by
  obtain ⟨bytes, rfl⟩ := exists_toHex_eq hex
  simp

theorem ofHex_append {left : List Char} (hex : IsHexBytes left) (right : List Char) :
    ofHex (left ++ right) = ofHex left ++ ofHex right := by
  obtain ⟨bytes, rfl⟩ := exists_toHex_eq hex
  rw [ofHex_toHex_append, ofHex_toHex]

/-! ## Text of either letter case -/

/-- Decoding does not look at the letter case. -/
theorem ofHex_map_toLower (text : List Char) : ofHex (text.map Char.toLower) = ofHex text := by
  induction text using ofHex.induct with
  | case1 high low rest highValue lowValue highEq lowEq ih =>
      rw [List.map_cons, List.map_cons, ofHex, ofHex, hexValue_toLower, hexValue_toLower, ih]
  | case2 high low rest noByte =>
      rw [List.map_cons, List.map_cons, ofHex, ofHex, hexValue_toLower, hexValue_toLower]
      split
      · next highEq lowEq => exact absurd lowEq (noByte _ _ highEq)
      · rfl
  | case3 text short =>
      match text with
      | [] => rfl
      | [c] => rfl
      | high :: low :: rest => exact absurd rfl (short high low rest)

/-- Text of digits of either letter case. -/
def IsHexDigits (text : List Char) : Prop :=
  ∀ c ∈ text, (hexValue c).isSome = true

instance (text : List Char) : Decidable (IsHexDigits text) :=
  List.decidableBAll (fun c => (hexValue c).isSome = true) text

theorem toLower_mem_of_isSome_hexValue {c : Char} (digit : (hexValue c).isSome = true) :
    c.toLower ∈ digits := by
  obtain ⟨value, valueEq⟩ := Option.isSome_iff_exists.mp digit
  rw [hexValue, List.idxOf?] at valueEq
  obtain ⟨bound, equal, -⟩ := List.findIdx?_eq_some_iff_getElem.mp valueEq
  rw [← eq_of_beq equal]
  exact List.getElem_mem bound

/-- Made lower-case, digits of either letter case are lower-case digits. -/
theorem IsHexDigits.isLowerHex {text : List Char} (hex : IsHexDigits text) :
    IsLowerHex (text.map Char.toLower) := by
  intro c member
  obtain ⟨original, originalMember, rfl⟩ := List.mem_map.mp member
  exact toLower_mem_of_isSome_hexValue (hex original originalMember)

/-- Every character of the text is a digit of a byte. -/
def IsWhole (text : List Char) : Prop :=
  text.length = 2 * (ofHex text).length

instance (text : List Char) : Decidable (IsWhole text) :=
  inferInstanceAs (Decidable (_ = _))

/-- Digits of whole bytes in front are decoded before what follows. -/
theorem IsWhole.ofHex_append {left : List Char} (whole : IsWhole left) (right : List Char) :
    ofHex (left ++ right) = ofHex left ++ ofHex right := by
  unfold IsWhole at whole
  induction left using ofHex.induct with
  | case1 high low rest highValue lowValue highEq lowEq ih =>
      rw [ofHex, highEq, lowEq] at whole
      simp only [List.length_cons] at whole
      rw [List.cons_append, List.cons_append, ofHex, ofHex, highEq, lowEq]
      simp [ih (by omega)]
  | case2 high low rest noByte =>
      rw [ofHex] at whole
      split at whole
      · next highEq lowEq => exact absurd lowEq (noByte _ _ highEq)
      · simp at whole
  | case3 text short =>
      match text with
      | [] => rfl
      | [c] => simp [ofHex] at whole
      | high :: low :: rest => exact absurd rfl (short high low rest)

theorem IsHexBytes.isWhole {text : List Char} (hex : IsHexBytes text) : IsWhole text := by
  obtain ⟨bytes, rfl⟩ := exists_toHex_eq hex
  simp [IsWhole]

theorem isWhole_append {left right : List Char} (wholeLeft : IsWhole left)
    (wholeRight : IsWhole right) : IsWhole (left ++ right) := by
  unfold IsWhole at *
  rw [IsWhole.ofHex_append wholeLeft, List.length_append, List.length_append]
  omega

/-- The digits of several texts one after the other. -/
theorem isWhole_flatten {texts : List (List Char)} (whole : ∀ text ∈ texts, IsWhole text) :
    IsWhole texts.flatten := by
  induction texts with
  | nil => rfl
  | cons text rest ih =>
      rw [List.flatten_cons]
      exact isWhole_append (whole text List.mem_cons_self)
        (ih fun other member => whole other (List.mem_cons_of_mem text member))

theorem ofHex_flatten {texts : List (List Char)} (whole : ∀ text ∈ texts, IsWhole text) :
    ofHex texts.flatten = (texts.map ofHex).flatten := by
  induction texts with
  | nil => rfl
  | cons text rest ih =>
      rw [List.flatten_cons, (whole text List.mem_cons_self).ofHex_append, List.map_cons,
        List.flatten_cons, ih fun other member => whole other (List.mem_cons_of_mem text member)]

/-- Digits in pairs are whole bytes. -/
theorem isWhole_of_all {text : List Char} (digit : ∀ c ∈ text, (hexValue c).isSome = true)
    (even : text.length % 2 = 0) : IsWhole text := by
  unfold IsWhole
  induction text using ofHex.induct with
  | case1 high low rest highValue lowValue highEq lowEq ih =>
      have later := ih (fun c member => digit c (by simp [member])) (by
        simp only [List.length_cons] at even
        omega)
      rw [ofHex, highEq, lowEq]
      simp only [List.length_cons]
      omega
  | case2 high low rest noByte =>
      rcases Option.isSome_iff_exists.mp (digit high (by simp)) with ⟨x, highEq⟩
      rcases Option.isSome_iff_exists.mp (digit low (by simp)) with ⟨y, lowEq⟩
      exact absurd lowEq (noByte x y highEq)
  | case3 text short =>
      match text with
      | [] => rfl
      | [c] => simp at even
      | high :: low :: rest => exact absurd rfl (short high low rest)

end ZcashSoloPool.Bytes
