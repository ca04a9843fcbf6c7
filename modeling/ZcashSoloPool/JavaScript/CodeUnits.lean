import ZcashSoloPool.JavaScript.Value

/-!
# UTF-16 code units

A JavaScript string is a list of 16-bit units.  Where the pool measures or cuts
a string, the units count and not the characters.
-/

namespace ZcashSoloPool.JavaScript

/-- A string as the units that `length` counts and `slice` cuts. -/
abbrev CodeUnits :=
  List UInt16

/-- The units of a character: one, or a surrogate pair. -/
def unitsOfChar (c : Char) : CodeUnits :=
  if c.toNat < 0x10000 then [UInt16.ofNat c.toNat]
  else
    [UInt16.ofNat (0xD800 + (c.toNat - 0x10000) / 0x400),
      UInt16.ofNat (0xDC00 + (c.toNat - 0x10000) % 0x400)]

/-- The units of a text. -/
def codeUnits (text : Text) : CodeUnits :=
  text.flatMap unitsOfChar

/-- `length` of a text. -/
def unitLength (text : Text) : Nat :=
  (codeUnits text).length

@[simp]
theorem unitLength_nil : unitLength [] = 0 :=
  rfl

@[simp]
theorem unitLength_append (front back : Text) :
    unitLength (front ++ back) = unitLength front + unitLength back := by
  simp [unitLength, codeUnits]

/-- A part of a text is no longer than the text. -/
theorem unitLength_le_of_part {part text : Text} (isPart : part <:+: text) :
    unitLength part ≤ unitLength text := by
  obtain ⟨front, back, rfl⟩ := isPart
  rw [unitLength_append, unitLength_append]
  omega

/-- The test `/[\x00-\x1f\x7f]/` on one unit. -/
def isControl (u : UInt16) : Bool :=
  decide (u.toNat ≤ 0x1f) || u.toNat == 0x7f

/-- `replace(/[\x00-\x1f\x7f]/g, "")`. -/
def stripControls (units : CodeUnits) : CodeUnits :=
  units.filter fun u => !isControl u

/-- The test `/[\x00-\x1f\x7f]/` on one character. -/
def isControlChar (c : Char) : Bool :=
  decide (c.toNat ≤ 0x1f) || c.toNat == 0x7f

/-- Surrogates are no control characters. -/
theorem any_unitsOfChar (c : Char) : (unitsOfChar c).any isControl = isControlChar c := by
  have small : c.toNat < 0x110000 := by
    rcases c.valid with below | ⟨_, below⟩
    · exact Nat.lt_trans below (by decide)
    · exact below
  unfold unitsOfChar
  split
  · next single =>
      have kept : (UInt16.ofNat c.toNat).toNat = c.toNat := UInt16.toNat_ofNat_of_lt single
      simp [isControl, isControlChar, kept]
  · next pair =>
      have high : (UInt16.ofNat (0xD800 + (c.toNat - 0x10000) / 0x400)).toNat =
          0xD800 + (c.toNat - 0x10000) / 0x400 :=
        UInt16.toNat_ofNat_of_lt (show _ < 65536 by omega)
      have low : (UInt16.ofNat (0xDC00 + (c.toNat - 0x10000) % 0x400)).toNat =
          0xDC00 + (c.toNat - 0x10000) % 0x400 :=
        UInt16.toNat_ofNat_of_lt (show _ < 65536 by omega)
      simp only [List.any_cons, List.any_nil, isControl, isControlChar, high, low, Bool.or_false]
      rw [Bool.eq_iff_iff]
      simp only [Bool.or_eq_true, decide_eq_true_eq, beq_iff_eq]
      omega

/-- The units of a text have its control characters. -/
theorem any_codeUnits (text : Text) : (codeUnits text).any isControl = text.any isControlChar := by
  induction text with
  | nil => rfl
  | cons c rest ih =>
      rw [codeUnits, List.flatMap_cons, List.any_append, any_unitsOfChar, List.any_cons]
      exact congrArg _ ih

/-- No control character is left. -/
theorem any_stripControls (units : CodeUnits) : (stripControls units).any isControl = false := by
  rw [stripControls, List.any_eq_false]
  intro u member
  have kept := (List.mem_filter.mp member).2
  rwa [Bool.not_eq_true', ← Bool.not_eq_true] at kept

end ZcashSoloPool.JavaScript
