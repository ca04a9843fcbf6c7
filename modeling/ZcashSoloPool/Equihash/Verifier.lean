import ZcashSoloPool.Equihash.ExpandArray
import ZcashSoloPool.Equihash.Puzzle
import Mathlib.Tactic.NormNum

/-!
# The Equihash verifier

`verifyEH` of the native addon, the addon's entry point `Verify`, and the
wrapper `EquihashVerifier.verify` that the share validator calls.  BLAKE2b is a
parameter: the digest of a header and a hash number is 50 bytes, two 200-bit
leaf hashes.
-/

namespace ZcashSoloPool.Equihash

open ZcashSoloPool.Bytes

/-- `crypto_generichash_blake2b` personalised for Equihash(200,9), fed a
header and a hash number. -/
abbrev Blake2b :=
  List UInt8 → Nat → Vector UInt8 50

/-! ## The native code -/

/-- `isZero`. -/
def isZero (hash : List UInt8) : Bool :=
  hash.all fun byte => byte == 0

/-- `be32toh(indices[j])`, with `indices` as the bytes that were written over it. -/
def readIndex (indices : List UInt8) (j : Nat) : Nat :=
  ofBE ((indices.drop (4 * j)).take 4)

/-- One iteration of the loop over the indices. -/
def foldHash (blake2b : Blake2b) (hdr indices vHash : List UInt8) (j : Nat) :
    Option (List UInt8) := do
  let i := readIndex indices j
  let tmpHash := (blake2b hdr (i / 2)).toList
  let hash ← expandArray ((tmpHash.drop (i % 2 * 200 / 8)).take (200 / 8)) 30 20 0
  pure (List.zipWith (· ^^^ ·) vHash hash)

/-- `verifyEH` for `n = 200` and `k = 9`; `none` where an assertion of
`expandArray` stops the process. -/
def verifyEH (blake2b : Blake2b) (hdr soln : List UInt8) : Option Bool := do
  let indices ← expandArray soln 2048 21 1
  let vHash ← (List.range 512).foldlM (foldHash blake2b hdr indices) (List.replicate 30 0)
  pure (isZero vHash)

/-- `ZCASH_SOLUTION_PREFIX`. -/
def solutionPrefix : List UInt8 :=
  [0xFD, 0x40, 0x05]

/-- `Verify`: the entry point of the addon, on two buffers.  The thrown range
errors are the `error` results, and so is a failed assertion, which ends the
process. -/
def nativeVerify (blake2b : Blake2b) (header sol : List UInt8) : Except String Bool :=
  if header.length ≠ 140 then
    .error "Invalid header length (expected 140 bytes)"
  else
    let solRaw := if sol.length = 1344 + 3 ∧ sol.take 3 = solutionPrefix then sol.drop 3 else sol
    if solRaw.length ≠ 1344 then
      .error "Invalid solution length (expected 1344 bytes or 1347 with CompactSize prefix)"
    else
      match verifyEH blake2b header solRaw with
      | some ok => .ok ok
      | none => .error "Assertion failed"

/-! ## The wrapper -/

/-- `EquihashVerifier.verify` around the addon function `_verifyFn`: checks the
two lengths and turns a thrown error into `false`. -/
def verify (verifyFn : List UInt8 → List UInt8 → Except String Bool)
    (headerBuf solutionBuf : List UInt8) : Bool :=
  if headerBuf.length ≠ 140 then false
  else if solutionBuf.length ≠ 1344 then false
  else
    match verifyFn headerBuf solutionBuf with
    | .ok result => result
    | .error _ => false

/-- Whatever the addon does, only a 140-byte header and a 1344-byte solution
are accepted. -/
theorem length_of_verify {verifyFn : List UInt8 → List UInt8 → Except String Bool}
    {headerBuf solutionBuf : List UInt8} (accepted : verify verifyFn headerBuf solutionBuf = true) :
    headerBuf.length = 140 ∧ solutionBuf.length = 1344 := by
  unfold verify at accepted
  split at accepted
  · contradiction
  · next header =>
      split at accepted
      · contradiction
      · next solution => exact ⟨not_not.mp header, not_not.mp solution⟩

/-! ## The puzzle a header and a solution encode -/

/-- The `j`-th 21-bit index packed in a solution. -/
def solutionIndex (soln : List UInt8) (j : Nat) : Nat :=
  bitGroup 21 (21 * 512) (ofBE soln) j

/-- The 200-bit hash of an index: one half of the digest of its hash number. -/
def indexHash (blake2b : Blake2b) (hdr : List UInt8) (i : Nat) : Nat :=
  ofBE (((blake2b hdr (i / 2)).toList.drop (i % 2 * 25)).take 25)

/-- Hash at the `j`-th leaf of a solution. -/
def leafHash (blake2b : Blake2b) (hdr soln : List UInt8) (j : Nat) : Nat :=
  indexHash blake2b hdr (solutionIndex soln j)

/-- A valid Equihash(200,9) solution of a header. -/
def ValidSolution (blake2b : Blake2b) (hdr soln : List UInt8) : Prop :=
  IsSolution 200 9 (solutionIndex soln) (leafHash blake2b hdr soln)

/-! ## What the native code computes -/

/-- Element `j` of an unpacked array is the slice at its offset. -/
theorem slice_elements (bitLen bytePad total value : Nat) {count j : Nat} (bound : j < count) :
    ((elements bitLen bytePad total value count).drop (outWidth bitLen bytePad * j)).take
        (outWidth bitLen bytePad) =
      element bitLen bytePad (bitGroup bitLen total value j) := by
  induction count with
  | zero => omega
  | succ count ih =>
      have size := length_elements bitLen bytePad total value count
      rw [elements_succ]
      rcases Nat.lt_succ_iff_lt_or_eq.mp bound with earlier | rfl
      · have room : outWidth bitLen bytePad * j + outWidth bitLen bytePad ≤
            (elements bitLen bytePad total value count).length := by
          rw [size, Nat.mul_comm, ← Nat.succ_mul]
          exact Nat.mul_le_mul_right _ earlier
        rw [List.drop_append_of_le_length (by omega), List.take_append_of_le_length
          (by rw [List.length_drop]; omega), ih earlier]
      · have offset : outWidth bitLen bytePad * j =
            (elements bitLen bytePad total value j).length := by rw [size, Nat.mul_comm]
        rw [offset, List.drop_left]
        exact List.take_of_length_le (by simp)

/-- Exclusive or acts elementwise on unpacked hashes. -/
theorem zipWith_xor_elements (bitLen total left right count : Nat) :
    List.zipWith (· ^^^ ·) (elements bitLen 0 total left count)
        (elements bitLen 0 total right count) =
      elements bitLen 0 total (left ^^^ right) count := by
  induction count with
  | zero => rfl
  | succ count ih =>
      simp only [elements_succ]
      rw [List.zipWith_append (by simp [length_elements]), ih, bitGroup_xor]
      simp [element, zipWith_xor_toBE]

theorem isZero_append (left right : List UInt8) :
    isZero (left ++ right) = (isZero left && isZero right) := by
  simp [isZero]

theorem isZero_toBE_iff {width value : Nat} (bound : value < 256 ^ width) :
    isZero (toBE width value) = true ↔ value = 0 := by
  rw [← toBE_eq_replicate_zero_iff bound, List.eq_replicate_iff]
  simp [isZero]

/-- The unpacked hash is zero exactly when all of its groups are. -/
theorem isZero_elements_iff (total value count : Nat) :
    isZero (elements 20 0 total value count) = true ↔
      ∀ k < count, bitGroup 20 total value k = 0 := by
  induction count with
  | zero => simp [elements, isZero]
  | succ count ih =>
      have small : bitGroup 20 total value count < 256 ^ ((20 + 7) / 8) :=
        (bitGroup_lt 20 total value count).trans (by norm_num)
      rw [elements_succ, isZero_append, Bool.and_eq_true, ih, Nat.forall_lt_succ_right]
      simp only [element, List.replicate_zero, List.nil_append, isZero_toBE_iff small]

theorem indexHash_lt (blake2b : Blake2b) (hdr : List UInt8) (i : Nat) :
    indexHash blake2b hdr i < 2 ^ 200 := by
  refine (ofBE_lt _).trans_le ?_
  rw [show (2 : Nat) ^ 200 = 256 ^ 25 by norm_num]
  exact Nat.pow_le_pow_right (by norm_num) (by simp)

/-- Reading an unpacked index gives the packed index back. -/
theorem readIndex_elements {soln : List UInt8} {j : Nat} (bound : j < 512) :
    readIndex (elements 21 1 (21 * 512) (ofBE soln) 512) j = solutionIndex soln j := by
  have slice := slice_elements 21 1 (21 * 512) (ofBE soln) bound
  have small : solutionIndex soln j < 256 ^ 3 :=
    (bitGroup_lt 21 _ _ j).trans (by norm_num)
  have leadingZero : ofBE [0] = 0 := rfl
  rw [readIndex, show (4 : Nat) = outWidth 21 1 from rfl, slice, element, ofBE_append, ofBE_toBE]
  rw [show List.replicate 1 (0 : UInt8) = [0] from rfl, leadingZero, Nat.zero_mul, Nat.zero_add]
  exact Nat.mod_eq_of_lt small

/-- One iteration folds the hash of one leaf into the unpacked accumulator. -/
theorem foldHash_eq (blake2b : Blake2b) (hdr soln : List UInt8) (acc : Nat) {j : Nat}
    (bound : j < 512) :
    foldHash blake2b hdr (elements 21 1 (21 * 512) (ofBE soln) 512) (elements 20 0 200 acc 10) j =
      some (elements 20 0 200 (acc ^^^ leafHash blake2b hdr soln j) 10) := by
  have half : solutionIndex soln j % 2 * 200 / 8 = solutionIndex soln j % 2 * 25 := by omega
  have halfLength : (((blake2b hdr (solutionIndex soln j / 2)).toList.drop
      (solutionIndex soln j % 2 * 25)).take 25).length = 25 := by
    simp only [List.length_take, List.length_drop, Vector.length_toList]
    omega
  have unpacked := expandArray_eq 20 0 10
    (((blake2b hdr (solutionIndex soln j / 2)).toList.drop
      (solutionIndex soln j % 2 * 25)).take 25) (by norm_num) (by norm_num) (by rw [halfLength])
  rw [show 10 * outWidth 20 0 = 30 from rfl, show 20 * 10 = 200 from rfl] at unpacked
  simp only [foldHash, readIndex_elements bound, half, show 200 / 8 = 25 from rfl, unpacked]
  simp only [Option.bind_eq_bind, Option.bind_some, Option.pure_def, zipWith_xor_elements]
  rfl

/-- The whole loop folds the hashes of its leaves. -/
theorem foldlM_foldHash (blake2b : Blake2b) (hdr soln : List UInt8) (leaves : List Nat)
    (bound : ∀ j ∈ leaves, j < 512) (acc : Nat) :
    leaves.foldlM (foldHash blake2b hdr (elements 21 1 (21 * 512) (ofBE soln) 512))
        (elements 20 0 200 acc 10) =
      some (elements 20 0 200
        (leaves.foldl (fun acc leaf => acc ^^^ leafHash blake2b hdr soln leaf) acc) 10) := by
  induction leaves generalizing acc with
  | nil => rfl
  | cons leaf rest ih =>
      rw [List.foldlM_cons, foldHash_eq blake2b hdr soln acc (bound leaf List.mem_cons_self)]
      exact ih (fun j member => bound j (List.mem_cons_of_mem leaf member)) _

theorem xorBlock_leafHash_lt (blake2b : Blake2b) (hdr soln : List UInt8) (start count : Nat) :
    xorBlock (leafHash blake2b hdr soln) start count < 2 ^ 200 := by
  suffices bounded : ∀ (leaves : List Nat) (acc : Nat), acc < 2 ^ 200 →
      leaves.foldl (fun acc leaf => acc ^^^ leafHash blake2b hdr soln leaf) acc < 2 ^ 200 from
    bounded _ 0 (Nat.two_pow_pos 200)
  intro leaves
  induction leaves with
  | nil => exact fun acc small => small
  | cons leaf rest ih =>
      intro acc small
      exact ih _ (Nat.xor_lt_two_pow small (indexHash_lt blake2b hdr _))

/-- `verifyEH` accepts exactly when all 512 leaf hashes cancel.  This is the
only condition of the puzzle it looks at. -/
theorem verifyEH_eq (blake2b : Blake2b) (hdr soln : List UInt8) (length : soln.length = 1344) :
    verifyEH blake2b hdr soln =
      some (decide (xorBlock (leafHash blake2b hdr soln) 0 512 = 0)) := by
  have unpacked := expandArray_eq 21 1 512 soln (by norm_num) (by norm_num) (by rw [length])
  have start : List.replicate 30 (0 : UInt8) = elements 20 0 200 0 10 := by decide
  have folded := foldlM_foldHash blake2b hdr soln (List.range 512)
    (fun j member => List.mem_range.mp member) 0
  rw [List.range_eq_range'] at folded
  rw [show 512 * outWidth 21 1 = 2048 from rfl] at unpacked
  simp only [verifyEH, unpacked, start, Option.bind_eq_bind, Option.bind_some, folded,
    List.range_eq_range']
  rw [Option.pure_def, Option.some_inj, Bool.eq_iff_iff, decide_eq_true_iff, isZero_elements_iff]
  exact forall_bitGroup_eq_zero_iff 20 10 (by norm_num)
    (xorBlock_leafHash_lt blake2b hdr soln 0 512)

/-- On a header and a raw solution of the right sizes the addon and the wrapper
pass the decision of `verifyEH` on. -/
theorem nativeVerify_eq (blake2b : Blake2b) {header sol : List UInt8}
    (headerLength : header.length = 140) (solLength : sol.length = 1344) :
    nativeVerify blake2b header sol =
      .ok (decide (xorBlock (leafHash blake2b header sol) 0 512 = 0)) := by
  simp [nativeVerify, headerLength, solLength, verifyEH_eq blake2b header sol solLength]

theorem verify_nativeVerify_eq (blake2b : Blake2b) {header sol : List UInt8}
    (headerLength : header.length = 140) (solLength : sol.length = 1344) :
    verify (nativeVerify blake2b) header sol =
      decide (xorBlock (leafHash blake2b header sol) 0 512 = 0) := by
  simp [verify, nativeVerify_eq blake2b headerLength solLength, headerLength, solLength]

/-! ## Agreement with the puzzle -/

/-- Each of the three entry points answers `true` exactly on a valid solution. -/
structure AgreesWithPuzzle (blake2b : Blake2b) (header soln : List UInt8) : Prop where
  verify : verify (nativeVerify blake2b) header soln = true ↔ ValidSolution blake2b header soln
  nativeVerify :
    nativeVerify blake2b header soln = .ok true ↔ ValidSolution blake2b header soln
  verifyEH : verifyEH blake2b header soln = some true ↔ ValidSolution blake2b header soln

/-- The forged solutions: all 512 hashes cancel, but two indices are equal,
some subtree is out of order, or some block below the root does not collide. -/
def Forged (blake2b : Blake2b) (header soln : List UInt8) : Prop :=
  xorBlock (leafHash blake2b header soln) 0 512 = 0 ∧
    ¬(Distinct 9 (solutionIndex soln) ∧ Ordered 9 (solutionIndex soln) ∧
      ∀ r, 1 ≤ r → r < 9 → CollidesAt 200 9 (leafHash blake2b header soln) r)

theorem validSolution_iff_not_forged {blake2b : Blake2b} {header soln : List UInt8}
    (zero : xorBlock (leafHash blake2b header soln) 0 512 = 0) :
    ValidSolution blake2b header soln ↔ ¬Forged blake2b header soln := by
  rw [ValidSolution, isSolution_iff (n := 200) (k := 9) zero, Forged]
  simp [zero]

/-- The verifier agrees with the puzzle on every solution that is not forged,
and on no other. -/
theorem agreesWithPuzzle_iff_not_forged (blake2b : Blake2b) (header : Vector UInt8 140)
    (soln : Vector UInt8 1344) :
    AgreesWithPuzzle blake2b header.toList soln.toList ↔
      ¬Forged blake2b header.toList soln.toList := by
  have headerLength : header.toList.length = 140 := Vector.length_toList
  have solnLength : soln.toList.length = 1344 := Vector.length_toList
  have agrees : (xorBlock (leafHash blake2b header.toList soln.toList) 0 512 = 0 ↔
      ValidSolution blake2b header.toList soln.toList) ↔
      ¬Forged blake2b header.toList soln.toList := by
    by_cases zero : xorBlock (leafHash blake2b header.toList soln.toList) 0 512 = 0
    · rw [validSolution_iff_not_forged zero]
      simp [zero]
    · have notForged : ¬Forged blake2b header.toList soln.toList := fun forged => zero forged.1
      simp only [zero, false_iff, notForged, not_false_eq_true, iff_true]
      exact fun solution => zero solution.zero
  constructor
  · intro agreement
    have accepts := agreement.verifyEH
    rw [verifyEH_eq blake2b _ _ solnLength, Option.some_inj, decide_eq_true_iff] at accepts
    exact agrees.mp accepts
  · intro honest
    have accepts := agrees.mpr honest
    refine ⟨?_, ?_, ?_⟩
    · rwa [verify_nativeVerify_eq blake2b headerLength solnLength, decide_eq_true_iff]
    · rwa [nativeVerify_eq blake2b headerLength solnLength, Except.ok.injEq, decide_eq_true_iff]
    · rwa [verifyEH_eq blake2b _ _ solnLength, Option.some_inj, decide_eq_true_iff]

/-- Whatever the hash function, an all-zero solution names index zero 512
times, and its hashes cancel in pairs. -/
theorem forged_of_ofBE_eq_zero (blake2b : Blake2b) (header : List UInt8) {soln : List UInt8}
    (zero : ofBE soln = 0) : Forged blake2b header soln := by
  have indexZero : solutionIndex soln = fun _ => 0 := by
    funext j
    simp [solutionIndex, zero, bitGroup]
  have leafConst : leafHash blake2b header soln = fun _ => indexHash blake2b header 0 := by
    funext j
    simp [leafHash, indexZero]
  refine ⟨?_, fun conditions => ?_⟩
  · rw [leafConst]
    exact xorBlock_const _ 0 256
  · have equal := conditions.1 0 (by norm_num) 1 (by norm_num) (by rw [indexZero])
    omega

theorem not_agreesWithPuzzle_of_forged {blake2b : Blake2b} {header soln : List UInt8}
    (length : soln.length = 1344) (forged : Forged blake2b header soln) :
    ¬AgreesWithPuzzle blake2b header soln := by
  intro agreement
  have accepted : verifyEH blake2b header soln = some true := by
    rw [verifyEH_eq _ _ _ length, Option.some_inj, decide_eq_true_iff]
    exact forged.1
  exact (validSolution_iff_not_forged forged.1).mp (agreement.verifyEH.mp accepted) forged

/-- The verifier accepts 1344 zero bytes as a solution of the zero header. -/
theorem not_agreesWithPuzzle_zeros :
    ¬AgreesWithPuzzle (fun _ _ => Vector.replicate 50 0) (List.replicate 140 0)
      (List.replicate 1344 0) :=
  not_agreesWithPuzzle_of_forged List.length_replicate
    (forged_of_ofBE_eq_zero _ _ (ofBE_replicate_zero 1344))

end ZcashSoloPool.Equihash
