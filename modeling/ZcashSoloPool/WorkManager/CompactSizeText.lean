import ZcashSoloPool.WorkManager.Encoding

/-!
# Compact sizes in hexadecimal text

`compactSizeHex` and `parseCompactSize` work on digits.  Here they are compared
with the four forms of a length on text of either letter case: what is written
is the shortest form, it is read back whatever follows it, and a text is
refused only if it is cut short, is no whole number of bytes, or announces a
length that is no safe integer.
-/

namespace ZcashSoloPool.WorkManager

open ZcashSoloPool.Bytes
open ZcashSoloPool.JavaScript
open ZcashSoloPool.Wire

/-! ## The forms of a length -/

/-- The texts that denote a length: one byte below 253, and a marker with a
little-endian payload of two, four or eight bytes that holds the value. -/
inductive SizeForm (value : Nat) : Text → Prop
  | oneByte (fits : value < 253) : SizeForm value (toHex [UInt8.ofNat value])
  | twoBytes (fits : value < 2 ^ 16) : SizeForm value (toHex (0xfd :: toLE 2 value))
  | fourBytes (fits : value < 2 ^ 32) : SizeForm value (toHex (0xfe :: toLE 4 value))
  | eightBytes (fits : value < 2 ^ 64) : SizeForm value (toHex (0xff :: toLE 8 value))

/-- What is written is one of the forms. -/
theorem sizeForm_compactSizeHex {value : Nat} (bound : value < 2 ^ 64) :
    SizeForm value (compactSizeHex value) := by
  rw [compactSizeHex_eq, compactSize]
  split
  · next small => exact SizeForm.oneByte small
  · split
    · next small => exact SizeForm.twoBytes (by omega)
    · split
      · next small => exact SizeForm.fourBytes (by omega)
      · exact SizeForm.eightBytes bound

/-- No form of a length is shorter than the written one. -/
theorem length_compactSizeHex_le {value : Nat} {form : Text} (denotes : SizeForm value form) :
    (compactSizeHex value).length ≤ form.length := by
  rw [compactSizeHex_eq, compactSize]
  cases denotes with
  | oneByte fits => simp [fits]
  | twoBytes fits =>
      have small : value ≤ 0xffff := by omega
      by_cases oneByte : value < 253 <;> simp [oneByte, small]
  | fourBytes fits =>
      have small : value ≤ 0xffffffff := by omega
      by_cases oneByte : value < 253
      · simp [oneByte]
      · by_cases twoBytes : value ≤ 0xffff <;> simp [oneByte, twoBytes, small]
  | eightBytes fits =>
      by_cases oneByte : value < 253
      · simp [oneByte]
      · by_cases twoBytes : value ≤ 0xffff
        · simp [oneByte, twoBytes]
        · by_cases fourBytes : value ≤ 0xffffffff <;> simp [oneByte, twoBytes, fourBytes]

/-! ## Reading text of either letter case -/

/-- The letter case of the digits does not matter. -/
theorem parseCompactSize_toLowerCase (text : Text) :
    parseCompactSize (toLowerCase text) = parseCompactSize text := by
  have length : (toLowerCase text).length = text.length := by simp [toLowerCase]
  have first : hexNumber ((toLowerCase text).take 2) = hexNumber (text.take 2) := by
    rw [← hexNumber_toLowerCase (text.take 2), toLowerCase, toLowerCase, List.map_take]
  have payload : ∀ width, ofHex (((toLowerCase text).drop 2).take width) =
      ofHex ((text.drop 2).take width) := by
    intro width
    rw [← ofHex_map_toLower ((text.drop 2).take width), List.map_take, List.map_drop, toLowerCase]
  simp only [parseCompactSize, length, first, payload]

/-- Reading whole bytes of text is reading the bytes. -/
theorem parseCompactSize_of_spells {text : Text} {bytes : List UInt8}
    (spells : Spells text bytes) :
    parseCompactSize text = parseCompactSize (toHex bytes) := by
  rw [← parseCompactSize_toLowerCase text, spells]

/-- What was written is read back, with the digits it took. -/
theorem parseCompactSize_compactSizeHex {value : Nat} (safe : value ≤ maxSafeInteger)
    {suffix : Text} (hex : IsHexDigits suffix) (even : suffix.length % 2 = 0) :
    parseCompactSize (compactSizeHex value ++ suffix) =
      some ⟨value, (compactSizeHex value).length⟩ := by
  have bound : value < 2 ^ 64 := by
    simp only [maxSafeInteger] at safe
    omega
  have spelled : Spells suffix (ofHex suffix) := spells_ofHex hex even
  have written : Spells (compactSizeHex value ++ suffix) (compactSize value ++ ofHex suffix) := by
    rw [Spells, toLowerCase, List.map_append, toHex_append, compactSizeHex_eq]
    exact congrArg₂ (· ++ ·) (spells_toHex (compactSize value)) spelled
  rw [parseCompactSize_of_spells written, parseCompactSize_toHex, readCompactSize_compactSize bound]
  simp [Nat.not_lt.mpr safe, compactSizeHex_eq]

/-! ## What is refused -/

/-- The digits of the form that the first byte of a text announces; a text
without a first byte lacks the two digits of that byte. -/
def announcedDigits (text : Text) : Nat :=
  match ofHex text with
  | [] => 2
  | first :: _ => 2 + 2 * payloadWidth first

/-- The length that the first byte and the payload of a text denote. -/
def announcedSize (text : Text) : Option Nat :=
  (readCompactSize (ofHex text)).map Prod.fst

theorem readCompactSize_eq_none {bytes : List UInt8} :
    readCompactSize bytes = none ↔
      ∀ first rest, bytes = first :: rest → rest.length < payloadWidth first := by
  cases bytes with
  | nil => simp [readCompactSize]
  | cons first rest =>
      rw [readCompactSize]
      by_cases small : first.toNat < 253
      · simp [small, payloadWidth]
      · simp [small]

/-- On whole bytes, nothing is read exactly if the text ends before the
announced form does. -/
theorem readCompactSize_eq_none_iff_short {text : Text} {bytes : List UInt8}
    (spells : Spells text bytes) :
    readCompactSize bytes = none ↔ text.length < announcedDigits text := by
  rw [readCompactSize_eq_none, announcedDigits, spells.length_eq, spells.ofHex_eq]
  cases bytes with
  | nil => simp
  | cons first rest =>
      simp only [List.cons.injEq, List.length_cons]
      constructor
      · intro short
        have := short first rest ⟨rfl, rfl⟩
        omega
      · rintro short _ _ ⟨rfl, rfl⟩
        omega

/-- A text is refused exactly if it is no whole number of bytes, ends before
the form that its first byte announces, or announces an unsafe integer. -/
theorem parseCompactSize_eq_none {text : Text} (hex : IsHexDigits text) :
    parseCompactSize text = none ↔
      text.length < announcedDigits text ∨ text.length % 2 ≠ 0 ∨
        ∃ value, announcedSize text = some value ∧ maxSafeInteger < value := by
  by_cases even : text.length % 2 = 0
  · have spells := spells_ofHex hex even
    rw [parseCompactSize_of_spells spells, parseCompactSize_toHex, announcedSize,
      ← readCompactSize_eq_none_iff_short spells]
    cases read : readCompactSize (ofHex text) with
    | none => simp
    | some parsed =>
        obtain ⟨value, rest⟩ := parsed
        simp [even]
  · simp [parseCompactSize, even]

/-- Lengths are written in their shortest form and read back from it whatever
digits follow, and a text is refused for one of three reasons only. -/
theorem compactSize_text :
    (∀ value ≤ maxSafeInteger,
      (∀ suffix : Text, IsHexDigits suffix → suffix.length % 2 = 0 →
        parseCompactSize (compactSizeHex value ++ suffix) =
          some ⟨value, (compactSizeHex value).length⟩) ∧
      SizeForm value (compactSizeHex value) ∧
      ∀ form, SizeForm value form → (compactSizeHex value).length ≤ form.length) ∧
    ∀ text : Text, IsHexDigits text →
      (parseCompactSize text = none ↔
        text.length < announcedDigits text ∨ text.length % 2 ≠ 0 ∨
          ∃ value, announcedSize text = some value ∧ maxSafeInteger < value) := by
  constructor
  · intro value safe
    have bound : value < 2 ^ 64 := by
      simp only [maxSafeInteger] at safe
      omega
    exact ⟨fun suffix hex even => parseCompactSize_compactSizeHex safe hex even,
      sizeForm_compactSizeHex bound, fun form denotes => length_compactSizeHex_le denotes⟩
  · intro text hex
    exact parseCompactSize_eq_none hex

/-- The length 253 in front of the digits of one byte, and a marker without its
payload. -/
theorem compactSize_text_253 :
    parseCompactSize (compactSizeHex 253 ++ "aB".toList) = some ⟨253, 6⟩ ∧
      parseCompactSize "fe01".toList = none :=
  ⟨(compactSize_text.1 253 (by decide)).1 "aB".toList (by decide) (by decide),
    (compactSize_text.2 "fe01".toList (by decide)).mpr (Or.inl (by decide))⟩

end ZcashSoloPool.WorkManager
