import ZcashSoloPool.Bytes.BitGroup

/-!
# The bit unpacker of the native verifier

`expandArray` reads a byte string through a 32-bit accumulator that is shifted
but never masked, and writes one output element each time `bit_len` unread bits
have gathered.  The loop invariant relates the accumulator to the whole string
read so far, taken as one big-endian number; the written elements are then the
bit groups of that number.
-/

namespace ZcashSoloPool.Equihash

open ZcashSoloPool.Bytes

/-! ## The function -/

/-- Locals of the `expandArray` loop between two input bytes.  The write index
`j` of the source is always the number of bytes written. -/
structure Expansion where
  accBits : Nat
  accValue : Nat
  out : List UInt8
  deriving Repr, DecidableEq

/-- `out_width`: bytes of one output element. -/
def outWidth (bitLen bytePad : Nat) : Nat :=
  (bitLen + 7) / 8 + bytePad

/-- `bit_len_mask`. -/
def bitLenMask (bitLen : Nat) : Nat :=
  (1 <<< bitLen) - 1

/-- The byte stored at `out[j + x]`, for `x` past the padding. -/
def elementByte (bitLen bytePad accBits accValue x : Nat) : UInt8 :=
  UInt8.ofNat
    ((accValue >>> (accBits + 8 * (outWidth bitLen bytePad - x - 1))) &&&
      ((bitLenMask bitLen >>> (8 * (outWidth bitLen bytePad - x - 1))) &&& 0xFF))

/-- One iteration of the loop over the input bytes.  `acc_value` is a
`uint32_t`, so its left shift drops the bits above 32. -/
def expandByte (bitLen bytePad : Nat) (state : Expansion) (byte : UInt8) : Expansion :=
  let accValue := (state.accValue <<< 8) % 2 ^ 32 ||| byte.toNat
  let accBits := state.accBits + 8
  if bitLen ≤ accBits then
    { accBits := accBits - bitLen
      accValue
      out := state.out ++ List.replicate bytePad 0 ++
        (List.range' bytePad (outWidth bitLen bytePad - bytePad)).map fun x =>
          elementByte bitLen bytePad (accBits - bitLen) accValue x }
  else
    { state with accBits, accValue }

/-- `expandArray`, with `none` where one of its assertions fails. -/
def expandArray (input : List UInt8) (outLen bitLen bytePad : Nat) : Option (List UInt8) :=
  if 8 ≤ bitLen ∧ 7 + bitLen ≤ 32 ∧
      outLen = 8 * outWidth bitLen bytePad * input.length / bitLen then
    some (input.foldl (expandByte bitLen bytePad) ⟨0, 0, []⟩).out
  else
    none

/-! ## What it writes -/

/-- One output element: padding, then the group in big-endian bytes. -/
def element (bitLen bytePad group : Nat) : List UInt8 :=
  List.replicate bytePad 0 ++ toBE ((bitLen + 7) / 8) group

/-- The first `count` elements of a `total`-bit number. -/
def elements (bitLen bytePad total value count : Nat) : List UInt8 :=
  (List.range count).flatMap fun k => element bitLen bytePad (bitGroup bitLen total value k)

@[simp]
theorem length_element (bitLen bytePad group : Nat) :
    (element bitLen bytePad group).length = outWidth bitLen bytePad := by
  simp [element, outWidth, Nat.add_comm]

theorem length_elements (bitLen bytePad total value count : Nat) :
    (elements bitLen bytePad total value count).length = count * outWidth bitLen bytePad := by
  simp [elements, List.length_flatMap]

theorem elements_succ (bitLen bytePad total value count : Nat) :
    elements bitLen bytePad total value (count + 1) =
      elements bitLen bytePad total value count ++
        element bitLen bytePad (bitGroup bitLen total value count) := by
  simp [elements, List.range_succ]

/-- The elements already written stay the elements of the longer input. -/
theorem elements_append {bitLen bytePad total value count low : Nat} (extra : Nat)
    (complete : bitLen * count ≤ total) (lowBound : low < 2 ^ extra) :
    elements bitLen bytePad (total + extra) (value * 2 ^ extra + low) count =
      elements bitLen bytePad total value count := by
  simp only [elements, List.flatMap_def]
  congr 1
  apply List.map_congr_left
  intro k member
  have groupComplete : bitLen * (k + 1) ≤ total :=
    (Nat.mul_le_mul_left bitLen (List.mem_range.mp member)).trans complete
  rw [bitGroup_append groupComplete lowBound]

/-- The accumulator keeps every bit that is still to be written, although the
bits above 32 are gone: the masked byte of the accumulator is the byte of the
group. -/
theorem elementByte_eq {bitLen bytePad accBits : Nat} (value x : Nat)
    (fits : accBits + bitLen ≤ 32) :
    elementByte bitLen bytePad accBits (value % 2 ^ 32) x =
      UInt8.ofNat (((value >>> accBits) % 2 ^ bitLen) >>>
        (8 * (outWidth bitLen bytePad - x - 1))) := by
  apply UInt8.toNat_inj.mp
  simp only [elementByte, UInt8.toNat_ofNat', bitLenMask, Nat.one_shiftLeft]
  apply Nat.eq_of_testBit_eq
  intro i
  simp only [show (0xFF : Nat) = 2 ^ 8 - 1 from rfl, Nat.testBit_mod_two_pow, Nat.testBit_and,
    Nat.testBit_shiftRight, Nat.testBit_two_pow_sub_one]
  generalize 8 * (outWidth bitLen bytePad - x - 1) = shift
  by_cases inByte : i < 8
  · by_cases inGroup : shift + i < bitLen
    · have inAccumulator : accBits + (shift + i) < 32 := by omega
      simp [inByte, inGroup, inAccumulator, Nat.add_assoc]
    · simp [inGroup]
  · simp [inByte]

theorem map_elementByte {bitLen bytePad accBits : Nat} (value : Nat)
    (fits : accBits + bitLen ≤ 32) :
    (List.range' bytePad (outWidth bitLen bytePad - bytePad)).map
        (elementByte bitLen bytePad accBits (value % 2 ^ 32)) =
      toBE ((bitLen + 7) / 8) ((value >>> accBits) % 2 ^ bitLen) := by
  rw [toBE_eq_map_range, List.range'_eq_map_range, List.map_map]
  rw [show outWidth bitLen bytePad - bytePad = (bitLen + 7) / 8 by simp [outWidth]]
  apply List.map_congr_left
  intro x _
  rw [Function.comp_apply, elementByte_eq value _ fits]
  congr 3
  simp only [outWidth]
  omega

/-! ## The loop invariant -/

/-- State of the loop after the bytes `before`: the accumulator holds the low
32 bits of everything read, and every complete group has been written. -/
structure Expanded (bitLen bytePad : Nat) (before : List UInt8) (state : Expansion) : Prop where
  accBits : state.accBits = 8 * before.length % bitLen
  accValue : state.accValue = ofBE before % 2 ^ 32
  out : state.out =
    elements bitLen bytePad (8 * before.length) (ofBE before) (8 * before.length / bitLen)

theorem expanded_nil {bitLen bytePad : Nat} : Expanded bitLen bytePad [] ⟨0, 0, []⟩ where
  accBits := by simp
  accValue := by simp
  out := by simp [elements]

/-- Shifting a byte into the accumulator appends it to the number read. -/
theorem accumulate (before : List UInt8) (byte : UInt8) :
    (ofBE before % 2 ^ 32) <<< 8 % 2 ^ 32 ||| byte.toNat = ofBE (before ++ [byte]) % 2 ^ 32 := by
  have byteBound : byte.toNat < 2 ^ 8 := byte.toNat_lt
  have shifted : (ofBE before % 2 ^ 32) <<< 8 % 2 ^ 32 = (ofBE before % 2 ^ 24) <<< 8 := by
    rw [Nat.shiftLeft_eq, Nat.shiftLeft_eq]
    omega
  rw [shifted, ← Nat.shiftLeft_add_eq_or_of_lt byteBound, ofBE_concat, Nat.shiftLeft_eq]
  omega

/-- One iteration preserves the invariant. -/
theorem Expanded.step {bitLen bytePad : Nat} (bitLenLower : 8 ≤ bitLen) (bitLenUpper : bitLen ≤ 25)
    {before : List UInt8} {state : Expansion} (expanded : Expanded bitLen bytePad before state)
    (byte : UInt8) :
    Expanded bitLen bytePad (before ++ [byte]) (expandByte bitLen bytePad state byte) := by
  have byteBound : byte.toNat < 2 ^ 8 := byte.toNat_lt
  have remainder : 8 * before.length % bitLen < bitLen := Nat.mod_lt _ (by omega)
  have split := Nat.div_add_mod (8 * before.length) bitLen
  have longer : 8 * (before ++ [byte]).length = 8 * before.length + 8 := by simp; omega
  have written : elements bitLen bytePad (8 * before.length + 8) (ofBE (before ++ [byte]))
      (8 * before.length / bitLen) = state.out := by
    rw [expanded.out, ofBE_concat]
    exact elements_append 8 (by omega) byteBound
  by_cases full : bitLen ≤ 8 * before.length % bitLen + 8
  · -- The byte completes the group numbered `8 * before.length / bitLen`.
    obtain ⟨quotient, newBits⟩ : (8 * before.length + 8) / bitLen = 8 * before.length / bitLen + 1 ∧
        (8 * before.length + 8) % bitLen = 8 * before.length % bitLen + 8 - bitLen := by
      rw [Nat.div_mod_unique (by omega), Nat.mul_add]
      omega
    have offset : 8 * before.length + 8 - bitLen * (8 * before.length / bitLen + 1) =
        8 * before.length % bitLen + 8 - bitLen := by
      rw [Nat.mul_add]
      omega
    constructor
    · rw [longer, newBits]
      simp [expandByte, expanded.accBits, full]
    · rw [← accumulate, ← expanded.accValue]
      simp only [expandByte, expanded.accBits, full, if_true]
    · rw [longer, quotient, elements_succ, written]
      simp only [expandByte, expanded.accBits, full, if_true, expanded.accValue, accumulate]
      rw [map_elementByte _ (by omega), element, bitGroup, offset, List.append_assoc]
  · obtain ⟨quotient, newBits⟩ : (8 * before.length + 8) / bitLen = 8 * before.length / bitLen ∧
        (8 * before.length + 8) % bitLen = 8 * before.length % bitLen + 8 := by
      rw [Nat.div_mod_unique (by omega)]
      omega
    constructor
    · rw [longer, newBits]
      simp only [expandByte, expanded.accBits, full, if_false]
    · rw [← accumulate, ← expanded.accValue]
      simp only [expandByte, expanded.accBits, full, if_false]
    · rw [longer, quotient, written]
      simp only [expandByte, expanded.accBits, full, if_false]

/-- The whole loop preserves the invariant. -/
theorem Expanded.run {bitLen bytePad : Nat} (bitLenLower : 8 ≤ bitLen) (bitLenUpper : bitLen ≤ 25)
    (input : List UInt8) {before : List UInt8} {state : Expansion}
    (expanded : Expanded bitLen bytePad before state) :
    Expanded bitLen bytePad (before ++ input) (input.foldl (expandByte bitLen bytePad) state) := by
  induction input generalizing before state with
  | nil => simpa using expanded
  | cons byte rest ih =>
      have stepped := expanded.step bitLenLower bitLenUpper byte
      simpa using ih stepped

/-- The invariant at the end of the loop. -/
theorem expanded_foldl {bitLen : Nat} (bytePad : Nat) (bitLenLower : 8 ≤ bitLen)
    (bitLenUpper : bitLen ≤ 25) (input : List UInt8) :
    Expanded bitLen bytePad input (input.foldl (expandByte bitLen bytePad) ⟨0, 0, []⟩) := by
  have start : Expanded bitLen bytePad [] _ := expanded_nil
  simpa using start.run bitLenLower bitLenUpper input

/-- On a string whose bits split evenly into groups, `expandArray` writes the
elements of all groups. -/
theorem expandArray_eq (bitLen bytePad count : Nat) (input : List UInt8)
    (bitLenLower : 8 ≤ bitLen) (bitLenUpper : bitLen ≤ 25)
    (even : 8 * input.length = bitLen * count) :
    expandArray input (count * outWidth bitLen bytePad) bitLen bytePad =
      some (elements bitLen bytePad (bitLen * count) (ofBE input) count) := by
  have bitLenPos : 0 < bitLen := by omega
  have expanded := expanded_foldl bytePad bitLenLower bitLenUpper input
  have exact : count * outWidth bitLen bytePad =
      8 * outWidth bitLen bytePad * input.length / bitLen := by
    rw [Nat.mul_right_comm, even, Nat.mul_assoc, Nat.mul_div_cancel_left _ bitLenPos]
  have written := expanded.out
  rw [even, Nat.mul_div_cancel_left _ bitLenPos] at written
  rw [expandArray, if_pos ⟨bitLenLower, by omega, exact⟩, written]

end ZcashSoloPool.Equihash
