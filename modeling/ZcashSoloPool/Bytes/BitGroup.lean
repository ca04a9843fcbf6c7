import ZcashSoloPool.Bytes.Endian

/-!
# Groups of bits in a big-endian bit string

A number of `total` bits, read from its most significant bit, splits into
consecutive groups of `width` bits.  Both a packed list of small integers and
the digits of a hash are such groups.  The laws here are the ones an unpacking
loop needs: later input does not disturb the groups already complete, groups
commute with exclusive or, and a number is determined by its groups.
-/

namespace ZcashSoloPool.Bytes

/-- The `k`-th group of `width` bits of `value`, counted from the top of a
`total`-bit string. -/
def bitGroup (width total value k : Nat) : Nat :=
  (value >>> (total - width * (k + 1))) % 2 ^ width

theorem bitGroup_lt (width total value k : Nat) : bitGroup width total value k < 2 ^ width :=
  Nat.mod_lt _ (Nat.two_pow_pos width)

theorem testBit_bitGroup (width total value k i : Nat) :
    (bitGroup width total value k).testBit i =
      (decide (i < width) && value.testBit (total - width * (k + 1) + i)) := by
  simp [bitGroup, Nat.testBit_mod_two_pow, Nat.testBit_shiftRight]

/-- A group that is complete is not changed by the bits that follow it. -/
theorem bitGroup_append {width total value k extra low : Nat}
    (complete : width * (k + 1) ≤ total) (lowBound : low < 2 ^ extra) :
    bitGroup width (total + extra) (value * 2 ^ extra + low) k =
      bitGroup width total value k := by
  have shift : total + extra - width * (k + 1) = extra + (total - width * (k + 1)) := by omega
  have dropLow : (value * 2 ^ extra + low) >>> extra = value := by
    rw [Nat.shiftRight_eq_div_pow, Nat.mul_comm, Nat.mul_add_div (Nat.two_pow_pos extra),
      Nat.div_eq_of_lt lowBound, Nat.add_zero]
  rw [bitGroup, bitGroup, shift, Nat.shiftRight_add, dropLow]

theorem bitGroup_xor (width total left right k : Nat) :
    bitGroup width total (left ^^^ right) k =
      bitGroup width total left k ^^^ bitGroup width total right k := by
  apply Nat.eq_of_testBit_eq
  intro i
  simp only [testBit_bitGroup, Nat.testBit_xor]
  by_cases inside : i < width <;> simp [inside]

/-- A number vanishes exactly when all of its groups do. -/
theorem forall_bitGroup_eq_zero_iff (width count : Nat) {value : Nat} (widthPos : 0 < width)
    (bound : value < 2 ^ (width * count)) :
    (∀ k < count, bitGroup width (width * count) value k = 0) ↔ value = 0 := by
  constructor
  · intro groups
    apply Nat.eq_of_testBit_eq
    intro i
    rw [Nat.zero_testBit]
    by_cases inside : i < width * count
    · -- Bit `i` is bit `i % width` of the group that many places from the bottom.
      have quotient : i / width < count := Nat.div_lt_of_lt_mul inside
      have countPos : 0 < count := Nat.zero_lt_of_lt quotient
      have group : count - 1 - i / width < count :=
        (Nat.sub_le _ _).trans_lt (Nat.sub_lt countPos Nat.one_pos)
      have position :
          width * count - width * (count - 1 - i / width + 1) = width * (i / width) := by
        rw [show count - 1 - i / width + 1 = count - i / width by omega, Nat.mul_sub]
        exact Nat.sub_sub_self (Nat.mul_le_mul_left width quotient.le)
      have bit := testBit_bitGroup width (width * count) value (count - 1 - i / width) (i % width)
      rw [groups _ group, Nat.zero_testBit, position, Nat.div_add_mod] at bit
      simpa [Nat.mod_lt i widthPos] using bit.symm
    · exact Nat.testBit_lt_two_pow (lt_of_lt_of_le bound
        (Nat.pow_le_pow_right Nat.two_pos (Nat.le_of_not_lt inside)))
  · rintro rfl k _
    simp [bitGroup]

/-- A big-endian string lists the bytes of a value from the top. -/
theorem toBE_eq_map_range (width value : Nat) :
    toBE width value =
      (List.range width).map fun x => UInt8.ofNat (value >>> (8 * (width - x - 1))) := by
  induction width with
  | zero => rfl
  | succ width ih =>
      rw [toBE_succ, ih, List.range_succ_eq_map, List.map_cons, List.map_map]
      congr 1
      · rw [Nat.shiftRight_eq_div_pow, Nat.pow_mul]
        simp
      · apply List.map_congr_left
        intro x _
        simp only [Function.comp_apply]
        congr 3
        omega

/-- Exclusive or acts bytewise on big-endian strings. -/
theorem zipWith_xor_toBE (width left right : Nat) :
    List.zipWith (· ^^^ ·) (toBE width left) (toBE width right) = toBE width (left ^^^ right) := by
  simp only [toBE_eq_map_range, List.zipWith_map, List.zipWith_self]
  apply List.map_congr_left
  intro x _
  apply UInt8.toNat_inj.mp
  simp only [UInt8.toNat_xor, UInt8.toNat_ofNat', Nat.shiftRight_xor_distrib]
  exact (Nat.xor_mod_two_pow (n := 8)).symm

theorem toBE_eq_replicate_zero_iff {width value : Nat} (bound : value < 256 ^ width) :
    toBE width value = List.replicate width 0 ↔ value = 0 := by
  constructor
  · intro zeros
    have readBack := congrArg ofBE zeros
    rwa [ofBE_toBE, Nat.mod_eq_of_lt bound, ofBE_replicate_zero] at readBack
  · rintro rfl
    simp [toBE_eq_map_range, List.map_const']

end ZcashSoloPool.Bytes
