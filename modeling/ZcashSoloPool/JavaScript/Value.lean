import ZcashSoloPool.Bytes.Hex
import Mathlib.Data.List.Induction

/-!
# JavaScript values

The values that reach the pool from a JSON reply, with the conversions the
pool applies to them.  Text is a list of characters.  A number is an integer
of the range in which JavaScript integers are exact, which is what the node
sends in every field that is read as a number; an array or an object is opaque
and only shows its identity and its conversions.
-/

namespace ZcashSoloPool.JavaScript

open ZcashSoloPool.Bytes

/-- A JavaScript string. -/
abbrev Text :=
  List Char

/-- An integer of the safe range. -/
structure SafeInteger where
  value : Int
  safe : value.natAbs < 2 ^ 53
  deriving DecidableEq, Repr

/-- A JavaScript array: its length is below `2 ^ 32`. -/
structure JsArray (α : Type) where
  elements : List α
  short : elements.length < 2 ^ 32
  deriving DecidableEq, Repr

/-- The array `[]`. -/
def JsArray.empty {α : Type} : JsArray α :=
  ⟨[], Nat.two_pow_pos 32⟩

/-- A value decoded from JSON, or `undefined` for an absent member. -/
inductive Value where
  | undefined
  | null
  | bool (flag : Bool)
  | number (n : SafeInteger)
  | string (text : Text)
  /-- An array or object: its identity, its conversion to a string, and what
  `Buffer.from(_, "hex")` makes of it, with `none` for a thrown error. -/
  | object (identity : Nat) (text : Text) (buffer : Option (List UInt8))
  deriving DecidableEq, Repr

namespace Value

/-- Conversion to a boolean. -/
def truthy : Value → Bool
  | undefined => false
  | null => false
  | bool flag => flag
  | number n => decide (n.value ≠ 0)
  | string text => !text.isEmpty
  | object _ _ _ => true

/-- The operator `||`. -/
def or (left right : Value) : Value :=
  if left.truthy then left else right

/-- A string or `null`. -/
def ofText? : Option Text → Value
  | some text => string text
  | none => null

/-- `String(_)`. -/
def toText : Value → Text
  | undefined => "undefined".toList
  | null => "null".toList
  | bool true => "true".toList
  | bool false => "false".toList
  | number n => (toString n.value).toList
  | string text => text
  | object _ text _ => text

/-- What `Array.prototype.join` writes for an element. -/
def joinText : Value → Text
  | undefined => []
  | null => []
  | value => value.toText

/-- `Buffer.from(_, "hex")`; everything but a string and some objects throws. -/
def bufferFromHex : Value → Except String (List UInt8)
  | string text => .ok (ofHex text)
  | object _ _ (some bytes) => .ok bytes
  | _ => .error "The first argument must be of type string or an instance of Buffer"

/-- The conversion of a value to a string throws.  An object can bring a member
`toString` that is no function. -/
def throwsOn (hostile : Nat → Bool) : Value → Bool
  | object identity _ _ => hostile identity
  | _ => false

@[simp]
theorem toText_string (text : Text) : (string text).toText = text :=
  rfl

theorem or_of_ne_nil {text : Text} (nonempty : text ≠ []) (right : Value) :
    (string text).or right = string text := by
  simp [Value.or, truthy, nonempty]

end Value

/-! ## Thrown errors -/

theorem bind_eq_ok {ε α β : Type} {first : Except ε α} {second : α → Except ε β} {result : β} :
    (first >>= second) = .ok result ↔ ∃ value, first = .ok value ∧ second value = .ok result := by
  cases first with
  | error e =>
      constructor
      · intro thrown
        cases thrown
      · rintro ⟨_, thrown, _⟩
        cases thrown
  | ok value =>
      constructor
      · intro later
        exact ⟨value, rfl, later⟩
      · rintro ⟨_, returned, later⟩
        cases returned
        exact later

theorem bind_eq_error {ε α β : Type} {first : Except ε α} {second : α → Except ε β} {error : ε} :
    (first >>= second) = .error error ↔
      first = .error error ∨ ∃ value, first = .ok value ∧ second value = .error error := by
  cases first with
  | error other =>
      constructor
      · intro ended
        cases ended
        exact Or.inl rfl
      · rintro (ended | ⟨_, returned, _⟩)
        · cases ended
          rfl
        · cases returned
  | ok value =>
      constructor
      · intro later
        exact Or.inr ⟨value, rfl, later⟩
      · rintro (ended | ⟨_, returned, later⟩)
        · cases ended
        · cases returned
          exact later

/-! ## Text -/

/-- White space and line terminators, as `String.prototype.trim` strips them. -/
def isSpace (c : Char) : Bool :=
  c ∈ ['\t', '\n', '\u000b', '\u000c', '\r', ' ', '\u00a0', '\u1680', '\u2028', '\u2029',
    '\u202f', '\u205f', '\u3000', '\ufeff'] || ('\u2000' ≤ c && c ≤ '\u200a')

/-- `trim`. -/
def trim (text : Text) : Text :=
  ((text.dropWhile isSpace).reverse.dropWhile isSpace).reverse

/-- `toLowerCase`, on the letters that decide whether a text is hexadecimal. -/
def toLowerCase (text : Text) : Text :=
  text.map Char.toLower

/-- `replace(/^0x/, "")`. -/
def strip0x : Text → Text
  | '0' :: 'x' :: rest => rest
  | text => text

/-- The test `/^[0-9a-f]+$/`. -/
def isHexText (text : Text) : Bool :=
  !text.isEmpty && text.all fun c => c ∈ digits

/-- `padStart(width, "0")`. -/
def padStart (width : Nat) (text : Text) : Text :=
  List.replicate (width - text.length) '0' ++ text

/-- `padEnd(width, "0")`. -/
def padEnd (width : Nat) (text : Text) : Text :=
  text ++ List.replicate (width - text.length) '0'

/-- `toString(16)` of a non-negative integer. -/
def hexText (n : Nat) : Text :=
  Nat.toDigits 16 n

/-- Number spelled by hexadecimal digits. -/
def hexNumber (text : Text) : Nat :=
  text.foldl (fun acc c => 16 * acc + (hexValue c).getD 0) 0

/-- `BigInt("0x" + text)`, with `none` where it throws a syntax error. -/
def bigIntOfHex (text : Text) : Option Nat :=
  let digitsOf := (text.reverse.dropWhile isSpace).reverse
  if digitsOf.isEmpty || digitsOf.any fun c => (hexValue c).isNone then none
  else some (hexNumber digitsOf)

@[simp]
theorem length_padStart (width : Nat) (text : Text) :
    (padStart width text).length = max width text.length := by
  simp only [padStart, List.length_append, List.length_replicate]
  omega

theorem padStart_of_le {width : Nat} {text : Text} (wide : width ≤ text.length) :
    padStart width text = text := by
  simp [padStart, Nat.sub_eq_zero_of_le wide]

theorem isLowerHex_padStart {text : Text} (lower : IsLowerHex text) (width : Nat) :
    IsLowerHex (padStart width text) :=
  isLowerHex_append.mpr ⟨isLowerHex_replicate_zero _, lower⟩

theorem isHexText_iff {text : Text} : isHexText text = true ↔ text ≠ [] ∧ IsLowerHex text := by
  simp [isHexText, IsLowerHex]

theorem isSpace_of_mem_digits {c : Char} (member : c ∈ digits) : isSpace c = false := by
  obtain ⟨value, bound, -, rfl⟩ := exists_hexValue_of_mem member
  revert value
  decide

theorem toLowerCase_of_isLowerHex {text : Text} (lower : IsLowerHex text) :
    toLowerCase text = text :=
  lower.map_toLower

/-- White space has no letter case. -/
theorem toLower_of_isSpace {c : Char} (space : isSpace c = true) : c.toLower = c := by
  rcases Bool.or_eq_true_iff.mp space with listed | general
  · have member := of_decide_eq_true listed
    simp only [List.mem_cons, List.not_mem_nil, or_false] at member
    rcases member with rfl | rfl | rfl | rfl | rfl | rfl | rfl | rfl | rfl | rfl | rfl | rfl | rfl |
      rfl <;> rfl
  · have above : '\u2000' ≤ c := of_decide_eq_true (Bool.and_eq_true_iff.mp general).1
    have notUpper : ¬(c.val ≥ 'A'.val ∧ c.val ≤ 'Z'.val) := by
      have far : (0x2000 : UInt32) ≤ c.val := above
      rintro ⟨_, below⟩
      exact absurd (UInt32.le_trans far below) (by decide)
    exact toLower_of_not_upper notUpper

theorem dropWhile_isSpace_of_head {text : Text} (head : ∀ c ∈ text.head?, ¬isSpace c = true) :
    text.dropWhile isSpace = text := by
  cases text with
  | nil => rfl
  | cons c rest => rw [List.dropWhile_cons_of_neg (head c rfl)]

/-- Text without white space at its ends is not trimmed. -/
theorem trim_of_ends {text : Text} (head : ∀ c ∈ text.head?, ¬isSpace c = true)
    (last : ∀ c ∈ text.getLast?, ¬isSpace c = true) : trim text = text := by
  have reversed : ∀ c ∈ text.reverse.head?, ¬isSpace c = true := by
    rw [List.head?_reverse]
    exact last
  rw [trim, dropWhile_isSpace_of_head head, dropWhile_isSpace_of_head reversed,
    List.reverse_reverse]

/-- Text without white space is not trimmed. -/
theorem trim_of_not_isSpace {text : Text} (noSpace : ∀ c ∈ text, ¬isSpace c = true) :
    trim text = text :=
  trim_of_ends (fun c head => noSpace c (List.mem_of_mem_head? head))
    fun c last => noSpace c (List.mem_of_mem_getLast? last)

/-- Hexadecimal text of either letter case has no white space to trim. -/
theorem trim_of_toLowerCase {text : Text} (lower : IsLowerHex (toLowerCase text)) :
    trim text = text := by
  apply trim_of_not_isSpace
  intro c member space
  have digit := lower c.toLower (List.mem_map_of_mem member)
  rw [toLower_of_isSpace space] at digit
  rw [isSpace_of_mem_digits digit] at space
  contradiction

theorem trim_of_isLowerHex {text : Text} (lower : IsLowerHex text) : trim text = text :=
  trim_of_toLowerCase (by rwa [toLowerCase_of_isLowerHex lower])

/-- The text spells the bytes, in digits of either letter case. -/
def Spells (text : Text) (bytes : List UInt8) : Prop :=
  toLowerCase text = toHex bytes

instance (text : Text) (bytes : List UInt8) : Decidable (Spells text bytes) :=
  inferInstanceAs (Decidable (_ = _))

theorem spells_toHex (bytes : List UInt8) : Spells (toHex bytes) bytes :=
  toLowerCase_of_isLowerHex (isHexBytes_toHex bytes).lower

theorem Spells.length_eq {text : Text} {bytes : List UInt8} (spells : Spells text bytes) :
    text.length = 2 * bytes.length := by
  rw [← length_toHex, ← show toLowerCase text = toHex bytes from spells, toLowerCase,
    List.length_map]

theorem Spells.ofHex_eq {text : Text} {bytes : List UInt8} (spells : Spells text bytes) :
    ofHex text = bytes := by
  rw [← ofHex_map_toLower, show text.map Char.toLower = toHex bytes from spells, ofHex_toHex]

/-- An even number of digits of either letter case spells the bytes it is
decoded to. -/
theorem spells_ofHex {text : Text} (hex : IsHexDigits text) (even : text.length % 2 = 0) :
    Spells text (ofHex text) := by
  have whole : IsHexBytes (toLowerCase text) := ⟨hex.isLowerHex, by simpa [toLowerCase]⟩
  have decoded : ofHex (toLowerCase text) = ofHex text := ofHex_map_toLower text
  rw [Spells, ← decoded, toHex_ofHex whole]

theorem strip0x_of_isLowerHex {text : Text} (lower : IsLowerHex text) : strip0x text = text := by
  unfold strip0x
  split
  · next rest =>
      have notDigit : 'x' ∉ digits := by decide
      exact absurd (lower 'x' (by simp)) notDigit
  · rfl

/-! ## Numbers as text -/

theorem digitChar_mem {value : Nat} (bound : value < 16) : value.digitChar ∈ digits := by
  revert value
  decide

theorem hexValue_digitChar {value : Nat} (bound : value < 16) :
    hexValue value.digitChar = some value := by
  revert value
  decide

/-- The digits of `toString(16)` are lower-case. -/
theorem isLowerHex_hexText (n : Nat) : IsLowerHex (hexText n) := by
  induction n using Nat.strongRecOn with
  | ind n ih =>
      rw [hexText, Nat.toDigits_eq_if (by decide)]
      split
      · next small =>
          intro c member
          rw [List.mem_singleton.mp member]
          exact digitChar_mem small
      · have lower := ih (n / 16) (by omega)
        refine isLowerHex_append.mpr ⟨lower, fun c member => ?_⟩
        rw [List.mem_singleton.mp member]
        exact digitChar_mem (Nat.mod_lt _ (by decide))

theorem hexNumber_append_singleton (text : Text) (c : Char) :
    hexNumber (text ++ [c]) = 16 * hexNumber text + (hexValue c).getD 0 := by
  simp [hexNumber]

/-- The number does not depend on the letter case of its digits. -/
theorem hexNumber_toLowerCase (text : Text) : hexNumber (toLowerCase text) = hexNumber text := by
  simp [hexNumber, toLowerCase, List.foldl_map, hexValue_toLower]

/-- `toString(16)` loses nothing. -/
@[simp]
theorem hexNumber_hexText (n : Nat) : hexNumber (hexText n) = n := by
  induction n using Nat.strongRecOn with
  | ind n ih =>
      rw [hexText, Nat.toDigits_eq_if (by decide)]
      split
      · next small => simp [hexNumber, hexValue_digitChar small]
      · have rest := ih (n / 16) (by omega)
        rw [hexText] at rest
        rw [hexNumber_append_singleton, rest,
          hexValue_digitChar (Nat.mod_lt n (by decide))]
        simp [Nat.div_add_mod]

theorem hexText_injective : Function.Injective hexText := by
  intro left right equal
  rw [← hexNumber_hexText left, equal, hexNumber_hexText]

/-- Reading the hexadecimal digits of bytes is reading them big-endian. -/
theorem hexNumber_toHex (bytes : List UInt8) : hexNumber (toHex bytes) = ofBE bytes := by
  induction bytes using List.reverseRecOn with
  | nil => rfl
  | append_singleton front byte ih =>
      have high : byte.toNat / 16 < 16 := Nat.div_lt_of_lt_mul byte.toNat_lt
      have low : byte.toNat % 16 < 16 := Nat.mod_lt _ (by decide)
      have digitsOfByte : toHex (front ++ [byte]) =
          toHex front ++ [hexDigit (byte.toNat / 16)] ++ [hexDigit (byte.toNat % 16)] := by
        simp [toHex]
      rw [digitsOfByte, hexNumber_append_singleton, hexNumber_append_singleton, ih, ofBE_concat,
        hexValue_hexDigit high, hexValue_hexDigit low]
      simp only [Option.getD_some]
      omega

/-- `BigInt("0x" + _)` reads non-empty hexadecimal text. -/
theorem bigIntOfHex_of_isLowerHex {text : Text} (lower : IsLowerHex text) (nonempty : text ≠ []) :
    bigIntOfHex text = some (hexNumber text) := by
  have keep : text.reverse.dropWhile isSpace = text.reverse := by
    cases reversed : text.reverse with
    | nil => rfl
    | cons c rest =>
        have member : c ∈ text := List.mem_reverse.mp (by simp [reversed])
        rw [List.dropWhile_cons_of_neg]
        simp [isSpace_of_mem_digits (lower c member)]
  have allDigits : (text.any fun c => (hexValue c).isNone) = false := by
    rw [List.any_eq_false]
    intro c member
    rcases exists_hexValue_of_mem (lower c member) with ⟨value, _, digit, _⟩
    simp [digit]
  simp [bigIntOfHex, keep, allDigits, nonempty]

end ZcashSoloPool.JavaScript
