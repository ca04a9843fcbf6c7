import ZcashSoloPool.Equihash.ExpandArray
import ZcashSoloPool.Storage.Buffer
import Mathlib.Data.List.Infix

/-!
# The bit unpacker on its output buffer

`expandArray` as it works in memory: it stores byte after byte in the buffer of
its caller, and a `uint32_t` is only ever shifted by less than its width.  A
store outside the buffer and a shift by too much are no result here.  Neither
happens, whatever the input: the buffer receives what the unpacker of lists
writes.  A `size_t` is a natural number here, as no size wraps for a buffer that
fits in memory.
-/

namespace ZcashSoloPool.Equihash

open ZcashSoloPool.Bytes
open ZcashSoloPool.Storage

namespace InPlace

/-! ## The function -/

/-- Locals of the loop between two input bytes, and the output buffer. -/
structure Expansion where
  accBits : Nat
  accValue : Nat
  j : Nat
  out : List UInt8
  deriving Repr, DecidableEq

/-- `value >> amount` of a `uint32_t`, which is not defined from 32 on. -/
def shiftRight (value amount : Nat) : Option Nat :=
  if amount < 32 then some (value >>> amount) else none

/-- The byte stored at `out[j + x]`, for `x` past the padding. -/
def elementByte (bitLen bytePad accBits accValue x : Nat) : Option UInt8 := do
  let shifted ← shiftRight accValue (accBits + 8 * (outWidth bitLen bytePad - x - 1))
  let mask ← shiftRight (bitLenMask bitLen) (8 * (outWidth bitLen bytePad - x - 1))
  pure (UInt8.ofNat (shifted &&& (mask &&& 0xFF)))

/-- One iteration of the loop over the input bytes. -/
def expandByte (bitLen bytePad : Nat) (state : Expansion) (byte : UInt8) : Option Expansion :=
  let accValue := (state.accValue <<< 8) % 2 ^ 32 ||| byte.toNat
  let accBits := state.accBits + 8
  if bitLen ≤ accBits then do
    let padded ← storeLoop (fun _ => some 0) state.j 0 bytePad state.out
    let out ← storeLoop (elementByte bitLen bytePad (accBits - bitLen) accValue) state.j bytePad
      (outWidth bitLen bytePad - bytePad) padded
    pure {
      accBits := accBits - bitLen
      accValue := accValue
      j := state.j + outWidth bitLen bytePad
      out := out }
  else
    some { state with accBits, accValue }

/-- The loop, on a buffer with any contents. -/
def expandBytes (bitLen bytePad : Nat) (out input : List UInt8) : Option Expansion :=
  input.foldlM (expandByte bitLen bytePad) ⟨0, 0, 0, out⟩

/-- `expandArray`, with `none` where one of its assertions fails. -/
def expandArray (input out : List UInt8) (bitLen bytePad : Nat) : Option (List UInt8) :=
  if 8 ≤ bitLen ∧ 7 + bitLen ≤ 32 ∧
      out.length = 8 * outWidth bitLen bytePad * input.length / bitLen then
    (expandBytes bitLen bytePad out input).map Expansion.out
  else
    none

/-- The product in the assertion is a `size_t`: it does not wrap unless the
buffer has `2 ^ 59` bytes or more. -/
theorem sizes_fit {bitLen bytePad : Nat} {input out : List UInt8} (bitLenUpper : bitLen ≤ 25)
    (even : bitLen ∣ 8 * input.length)
    (size : out.length = 8 * outWidth bitLen bytePad * input.length / bitLen)
    (small : out.length < 2 ^ 59) : 8 * outWidth bitLen bytePad * input.length < 2 ^ 64 := by
  have divides : bitLen ∣ 8 * outWidth bitLen bytePad * input.length := by
    rw [Nat.mul_right_comm]
    exact even.mul_right _
  calc 8 * outWidth bitLen bytePad * input.length = bitLen * out.length := by
        rw [size, Nat.mul_div_cancel' divides]
    _ ≤ 25 * out.length := Nat.mul_le_mul_right _ bitLenUpper
    _ < 2 ^ 64 := by omega

/-! ## It writes what the unpacker of lists writes -/

theorem elementByte_eq {bitLen bytePad accBits accValue x : Nat} (accBitsSmall : accBits < 8)
    (bitLenUpper : bitLen ≤ 25) (lower : bytePad ≤ x) (upper : x < outWidth bitLen bytePad) :
    elementByte bitLen bytePad accBits accValue x =
      some (Equihash.elementByte bitLen bytePad accBits accValue x) := by
  simp only [outWidth] at upper
  have shift : accBits + 8 * (outWidth bitLen bytePad - x - 1) < 32 := by
    simp only [outWidth]
    omega
  have maskShift : 8 * (outWidth bitLen bytePad - x - 1) < 32 := by omega
  simp [elementByte, shiftRight, shift, maskShift, Equihash.elementByte]

/-- The first loop stores the padding. -/
theorem storeLoop_padding {offset : Nat} (bytePad : Nat) (front back : List UInt8)
    (place : front.length = offset) (room : bytePad ≤ back.length) :
    storeLoop (fun _ => some 0) offset 0 bytePad (front ++ back) =
      some ((front ++ List.replicate bytePad 0) ++ back.drop bytePad) := by
  have placed : front.length = offset + 0 := place
  rw [storeLoop_append front back placed room fun _ _ _ => rfl, List.map_const',
    List.length_range']

/-- The second loop stores the bytes of the group. -/
theorem storeLoop_element {bitLen bytePad accBits offset : Nat} (accValue : Nat)
    (accBitsSmall : accBits < 8) (bitLenUpper : bitLen ≤ 25) (front back : List UInt8)
    (place : front.length = offset + bytePad)
    (room : outWidth bitLen bytePad - bytePad ≤ back.length) :
    storeLoop (elementByte bitLen bytePad accBits accValue) offset bytePad
        (outWidth bitLen bytePad - bytePad) (front ++ back) =
      some ((front ++ (List.range' bytePad (outWidth bitLen bytePad - bytePad)).map
        (Equihash.elementByte bitLen bytePad accBits accValue)) ++
          back.drop (outWidth bitLen bytePad - bytePad)) :=
  storeLoop_append front back place room fun _ lower upper =>
    elementByte_eq accBitsSmall bitLenUpper lower (by omega)

/-- The buffer begins with what was written, and the rest of it is untouched. -/
structure Tracks (original : List UInt8) (written : Equihash.Expansion) (state : Expansion) :
    Prop where
  accBits : state.accBits = written.accBits
  accValue : state.accValue = written.accValue
  j : state.j = written.out.length
  out : state.out = written.out ++ original.drop written.out.length

theorem tracks_nil (original : List UInt8) : Tracks original ⟨0, 0, []⟩ ⟨0, 0, 0, original⟩ where
  accBits := rfl
  accValue := rfl
  j := rfl
  out := rfl

/-- One iteration keeps to the unpacker of lists, if the buffer has room for
what that writes. -/
theorem Tracks.step {bitLen bytePad : Nat} (bitLenUpper : bitLen ≤ 25) {original : List UInt8}
    {written : Equihash.Expansion} {state : Expansion} (tracks : Tracks original written state)
    (pending : written.accBits < bitLen) (byte : UInt8)
    (room : (Equihash.expandByte bitLen bytePad written byte).out.length ≤ original.length) :
    ∃ target, expandByte bitLen bytePad state byte = some target ∧
      Tracks original (Equihash.expandByte bitLen bytePad written byte) target := by
  rcases state with ⟨accBits, accValue, j, out⟩
  obtain ⟨rfl, rfl, rfl, rfl⟩ := tracks
  by_cases full : bitLen ≤ written.accBits + 8
  · -- First the padding and then the element replace what the buffer held there.
    have widths : bytePad + (outWidth bitLen bytePad - bytePad) = outWidth bitLen bytePad := by
      simp only [outWidth]
      omega
    simp only [Equihash.expandByte, full, if_true, List.length_append, List.length_replicate,
      List.length_map, List.length_range'] at room
    have padded := storeLoop_padding bytePad written.out (original.drop written.out.length) rfl
      (by rw [List.length_drop]; omega)
    have stored := storeLoop_element ((written.accValue <<< 8) % 2 ^ 32 ||| byte.toNat)
      (show written.accBits + 8 - bitLen < 8 by omega) bitLenUpper
      (written.out ++ List.replicate bytePad 0) ((original.drop written.out.length).drop bytePad)
      (by rw [List.length_append, List.length_replicate])
      (by rw [List.length_drop, List.length_drop]; omega)
    simp only [List.drop_drop, Nat.add_assoc, widths] at padded stored
    simp only [expandByte, Equihash.expandByte, full, if_true, padded, stored,
      Option.bind_eq_bind, Option.bind_some]
    refine ⟨_, rfl, rfl, rfl, ?_, ?_⟩
    · simp [widths]
    · simp [widths]
  · simp only [expandByte, Equihash.expandByte, full, if_false]
    exact ⟨_, rfl, rfl, rfl, rfl, rfl⟩

/-- What the unpacker of lists has written after `input` is its complete groups. -/
theorem length_written {bitLen : Nat} (bytePad : Nat) (bitLenLower : 8 ≤ bitLen)
    (bitLenUpper : bitLen ≤ 25) (input : List UInt8) :
    (input.foldl (Equihash.expandByte bitLen bytePad) ⟨0, 0, []⟩).out.length =
      8 * input.length / bitLen * outWidth bitLen bytePad := by
  rw [(expanded_foldl bytePad bitLenLower bitLenUpper input).out, length_elements]

/-- The whole loop keeps to the unpacker of lists. -/
theorem exists_tracks {bitLen bytePad : Nat} (bitLenLower : 8 ≤ bitLen) (bitLenUpper : bitLen ≤ 25)
    (original input : List UInt8)
    (room : 8 * input.length / bitLen * outWidth bitLen bytePad ≤ original.length) :
    ∃ state, expandBytes bitLen bytePad original input = some state ∧
      Tracks original (input.foldl (Equihash.expandByte bitLen bytePad) ⟨0, 0, []⟩) state := by
  induction input using List.reverseRecOn with
  | nil => exact ⟨_, rfl, tracks_nil original⟩
  | append_singleton before byte ih =>
      have shorter : 8 * before.length / bitLen ≤ 8 * (before ++ [byte]).length / bitLen :=
        Nat.div_le_div_right (by simp)
      obtain ⟨state, reached, tracks⟩ := ih ((Nat.mul_le_mul_right _ shorter).trans room)
      have expanded := expanded_foldl bytePad bitLenLower bitLenUpper before
      have pending := expanded.accBits.trans_lt (Nat.mod_lt _ (by omega))
      rw [← length_written bytePad bitLenLower bitLenUpper, List.foldl_concat] at room
      obtain ⟨target, stepped, tracked⟩ := tracks.step bitLenUpper pending byte room
      rw [expandBytes] at reached ⊢
      rw [List.foldl_concat, List.foldlM_append, reached]
      exact ⟨target, by simpa using stepped, tracked⟩

/-- The buffer begins with what the unpacker of lists returns, and the rest of
it is as before. -/
theorem expandArray_eq_map (input out : List UInt8) (bitLen bytePad : Nat) :
    expandArray input out bitLen bytePad =
      (Equihash.expandArray input out.length bitLen bytePad).map
        fun written => written ++ out.drop written.length := by
  unfold expandArray Equihash.expandArray
  split
  · next asserted =>
      obtain ⟨bitLenLower, bitLenUpper, size⟩ := asserted
      have room : 8 * input.length / bitLen * outWidth bitLen bytePad ≤ out.length := by
        rw [size, Nat.mul_comm, Nat.mul_right_comm, Nat.mul_comm (8 * input.length)]
        exact Nat.mul_div_le_mul_div_assoc _ _ _
      obtain ⟨state, reached, tracks⟩ := exists_tracks bitLenLower (by omega) out input room
      rw [reached, Option.map_some, Option.map_some, tracks.out]
  · rfl

/-! ## What it writes -/

/-- Between two input bytes, the low bits of the accumulator are the bits read
and not yet written, above them stand stale ones, and the next shift pushes out
none that is still to be written. -/
structure KeepsPending (bitLen bytePad : Nat) (before : List UInt8) (state : Expansion) :
    Prop where
  written : state.j = 8 * before.length / bitLen * outWidth bitLen bytePad
  accBits : state.accBits = 8 * before.length % bitLen
  pending : state.accValue % 2 ^ state.accBits = ofBE before % 2 ^ state.accBits
  room : state.accBits + 8 ≤ 32
  unmasked : state.accValue = ofBE before % 2 ^ 32

/-- The call fills the buffer with the padded groups of the input, and no bit
is lost on the way. -/
structure Exact (input out : List UInt8) (bitLen bytePad : Nat) : Prop where
  filled : expandArray input out bitLen bytePad = some
    ((List.range (8 * input.length / bitLen)).flatMap fun k =>
      List.replicate bytePad 0 ++
        toBE ((bitLen + 7) / 8) (bitGroup bitLen (8 * input.length) (ofBE input) k))
  length : ∀ written, expandArray input out bitLen bytePad = some written →
    written.length = out.length ∧
      out.length = 8 * input.length / bitLen * ((bitLen + 7) / 8 + bytePad)
  pending : ∀ before after, input = before ++ after →
    ∃ state, expandBytes bitLen bytePad out before = some state ∧
      KeepsPending bitLen bytePad before state
  sizes : out.length < 2 ^ 59 → 8 * outWidth bitLen bytePad * input.length < 2 ^ 64

theorem keepsPending_of_tracks {bitLen bytePad : Nat} (bitLenLower : 8 ≤ bitLen)
    (bitLenUpper : bitLen ≤ 25) {original before : List UInt8} {state : Expansion}
    (tracks : Tracks original (before.foldl (Equihash.expandByte bitLen bytePad) ⟨0, 0, []⟩)
      state) : KeepsPending bitLen bytePad before state := by
  have expanded := expanded_foldl bytePad bitLenLower bitLenUpper before
  have accBits := tracks.accBits.trans expanded.accBits
  have accValue := tracks.accValue.trans expanded.accValue
  have fewer : state.accBits < bitLen := by
    rw [accBits]
    exact Nat.mod_lt _ (by omega)
  refine ⟨?_, accBits, ?_, by omega, accValue⟩
  · rw [tracks.j, length_written bytePad bitLenLower bitLenUpper]
  · rw [accValue]
    exact Nat.mod_mod_of_dvd _ (Nat.pow_dvd_pow 2 (by omega))

/-- For every bit length from 8 to 25 and every padding, an input whose bits
split evenly into groups is unpacked exactly. -/
theorem exact_expandArray {bitLen : Nat} (bytePad : Nat) (input out : List UInt8)
    (bitLenLower : 8 ≤ bitLen) (bitLenUpper : bitLen ≤ 25) (even : bitLen ∣ 8 * input.length)
    (size : out.length = 8 * outWidth bitLen bytePad * input.length / bitLen) :
    Exact input out bitLen bytePad := by
  have sizes := sizes_fit bitLenUpper even size
  obtain ⟨count, total⟩ := even
  have bitLenPos : 0 < bitLen := by omega
  have groups : 8 * input.length / bitLen = count := by
    rw [total, Nat.mul_div_cancel_left _ bitLenPos]
  have whole : out.length = count * outWidth bitLen bytePad := by
    rw [size, Nat.mul_right_comm, total, Nat.mul_assoc, Nat.mul_div_cancel_left _ bitLenPos]
  have filled : expandArray input out bitLen bytePad =
      some (elements bitLen bytePad (8 * input.length) (ofBE input) count) := by
    rw [expandArray_eq_map, whole,
      expandArray_eq bitLen bytePad count input bitLenLower bitLenUpper total, ← total]
    simp [length_elements, whole]
  constructor
  · rw [filled, groups]
    rfl
  · intro written result
    rw [filled] at result
    cases result
    rw [length_elements, groups]
    exact ⟨whole.symm, whole⟩
  · rintro before after rfl
    have shorter : 8 * before.length / bitLen ≤ 8 * (before ++ after).length / bitLen :=
      Nat.div_le_div_right (by simp)
    rw [groups] at shorter
    obtain ⟨state, reached, tracks⟩ := exists_tracks bitLenLower bitLenUpper out before
      (whole ▸ Nat.mul_le_mul_right (outWidth bitLen bytePad) shorter)
    exact ⟨state, reached, keepsPending_of_tracks bitLenLower bitLenUpper tracks⟩
  · exact sizes

theorem exact_expandArray_ones :
    Exact (List.replicate 11 0xff) (List.replicate 32 0) 11 2 :=
  exact_expandArray 2 _ _ (by decide) (by decide) (by decide) (by decide)

/-- Eight groups of eleven ones, each behind two bytes of padding. -/
example : expandArray (List.replicate 11 0xff) (List.replicate 32 0) 11 2 =
    some (List.replicate 8 [0x00, 0x00, 0x07, 0xff]).flatten := by decide

end InPlace

end ZcashSoloPool.Equihash
