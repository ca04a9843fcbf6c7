import Mathlib.Data.Nat.Bitwise
import Mathlib.Data.List.Basic
import Mathlib.Tactic.Ring

/-!
# Fixed-width integers in byte strings

The two byte orders in which a natural number is laid out in a byte string.
The little-endian order is the structural one: its head is the low byte.  The
big-endian order is the same string read backwards, so that every law about it
is a law about little-endian strings composed with `List.reverse`.
-/

namespace ZcashSoloPool.Bytes

/-- Value of a byte string whose head is the least significant byte. -/
def ofLE : List UInt8 → Nat
  | [] => 0
  | byte :: rest => byte.toNat + 256 * ofLE rest

/-- The low `width` bytes of a value, least significant byte first. -/
def toLE : Nat → Nat → List UInt8
  | 0, _ => []
  | width + 1, value => UInt8.ofNat value :: toLE width (value / 256)

/-- Value of a byte string whose head is the most significant byte. -/
def ofBE (bytes : List UInt8) : Nat :=
  ofLE bytes.reverse

/-- The low `width` bytes of a value, most significant byte first. -/
def toBE (width value : Nat) : List UInt8 :=
  (toLE width value).reverse

@[simp]
theorem ofLE_nil : ofLE [] = 0 :=
  rfl

@[simp]
theorem ofLE_cons (byte : UInt8) (rest : List UInt8) :
    ofLE (byte :: rest) = byte.toNat + 256 * ofLE rest :=
  rfl

@[simp]
theorem length_toLE (width value : Nat) : (toLE width value).length = width := by
  induction width generalizing value with
  | zero => rfl
  | succ width ih => simp [toLE, ih]

@[simp]
theorem length_toBE (width value : Nat) : (toBE width value).length = width := by
  simp [toBE]

theorem ofLE_append (low high : List UInt8) :
    ofLE (low ++ high) = ofLE low + 256 ^ low.length * ofLE high := by
  induction low with
  | nil => simp
  | cons byte rest ih =>
      simp only [List.cons_append, ofLE_cons, ih, List.length_cons]
      ring

theorem ofLE_lt (bytes : List UInt8) : ofLE bytes < 256 ^ bytes.length := by
  induction bytes with
  | nil => simp
  | cons byte rest ih =>
      have byteBound : byte.toNat < 256 := byte.toNat_lt
      simp only [ofLE_cons, List.length_cons, Nat.pow_succ]
      omega

theorem ofLE_replicate_zero (width : Nat) : ofLE (List.replicate width 0) = 0 := by
  induction width with
  | zero => rfl
  | succ width ih => simp [List.replicate_succ, ih]

/-- Writing a value and reading it back keeps its low bytes. -/
theorem ofLE_toLE (width value : Nat) : ofLE (toLE width value) = value % 256 ^ width := by
  induction width generalizing value with
  | zero => simp [toLE, Nat.mod_one]
  | succ width ih =>
      have headValue : (UInt8.ofNat value).toNat = value % 256 := UInt8.toNat_ofNat'
      rw [toLE, ofLE_cons, ih, headValue]
      rw [Nat.pow_succ, Nat.mul_comm (256 ^ width) 256, Nat.mod_mul]

/-- Reading a string and writing it back is the identity. -/
theorem toLE_ofLE (bytes : List UInt8) : toLE bytes.length (ofLE bytes) = bytes := by
  induction bytes with
  | nil => rfl
  | cons byte rest ih =>
      have byteBound : byte.toNat < 256 := byte.toNat_lt
      have tailValue : (byte.toNat + 256 * ofLE rest) / 256 = ofLE rest := by omega
      have headByte : UInt8.ofNat (byte.toNat + 256 * ofLE rest) = byte := by
        apply UInt8.toNat_inj.mp
        rw [UInt8.toNat_ofNat']
        omega
      simp only [List.length_cons, toLE, ofLE_cons, tailValue, ih, headByte]

@[simp]
theorem ofBE_nil : ofBE [] = 0 :=
  rfl

theorem ofBE_append (high low : List UInt8) :
    ofBE (high ++ low) = ofBE high * 256 ^ low.length + ofBE low := by
  simp only [ofBE, List.reverse_append, ofLE_append, List.length_reverse]
  ring

/-- One more byte at the end shifts the value by eight bits. -/
theorem ofBE_concat (bytes : List UInt8) (byte : UInt8) :
    ofBE (bytes ++ [byte]) = ofBE bytes * 256 + byte.toNat := by
  simp only [ofBE, List.reverse_append, List.reverse_singleton, List.singleton_append, ofLE_cons]
  ring

theorem ofBE_lt (bytes : List UInt8) : ofBE bytes < 256 ^ bytes.length := by
  simpa [ofBE] using ofLE_lt bytes.reverse

theorem ofBE_toBE (width value : Nat) : ofBE (toBE width value) = value % 256 ^ width := by
  simp [ofBE, toBE, ofLE_toLE]

theorem ofBE_replicate_zero (width : Nat) : ofBE (List.replicate width 0) = 0 := by
  rw [ofBE, List.reverse_replicate, ofLE_replicate_zero]

/-- Splitting off the most significant byte of a big-endian string. -/
theorem toBE_succ (width value : Nat) :
    toBE (width + 1) value = UInt8.ofNat (value / 256 ^ width) :: toBE width value := by
  induction width generalizing value with
  | zero => simp [toBE, toLE]
  | succ width ih =>
      have shifted := ih (value / 256)
      simp only [toBE] at shifted
      simp only [toBE, toLE, List.reverse_cons] at shifted ⊢
      rw [shifted, Nat.div_div_eq_div_mul, Nat.pow_succ, Nat.mul_comm 256]
      rfl

end ZcashSoloPool.Bytes
