import Mathlib.Data.Nat.Bitwise
import Mathlib.Data.List.Basic

/-!
# The Generalised Birthday puzzle

An Equihash solution for parameters `n` and `k` is a list of `2 ^ k` indices
whose hashes cancel along a binary tree.  The puzzle is stated here over an
arbitrary assignment of indices and of `n`-bit digests to the leaves, without
reference to any encoding of a solution or to any hash function.
-/

namespace ZcashSoloPool.Equihash

/-- Exclusive or of the digests of `count` consecutive leaves. -/
def xorBlock (digest : Nat → Nat) (start count : Nat) : Nat :=
  (List.range' start count).foldl (fun acc leaf => acc ^^^ digest leaf) 0

/-- In every subtree the first index of the left half is smaller than the
first index of the right half. -/
def Ordered (k : Nat) (index : Nat → Nat) : Prop :=
  ∀ r < k, ∀ block < 2 ^ (k - (r + 1)),
    index (block * 2 ^ (r + 1)) < index (block * 2 ^ (r + 1) + 2 ^ r)

/-- All leaves carry different indices. -/
def Distinct (k : Nat) (index : Nat → Nat) : Prop :=
  ∀ i < 2 ^ k, ∀ j < 2 ^ k, index i = index j → i = j

/-- The digests of every aligned block of `2 ^ r` leaves cancel on their first
`r` groups of `n / (k + 1)` bits. -/
def CollidesAt (n k : Nat) (digest : Nat → Nat) (r : Nat) : Prop :=
  ∀ block < 2 ^ (k - r),
    xorBlock digest (block * 2 ^ r) (2 ^ r) >>> (n - n / (k + 1) * r) = 0

/-- A solution of the puzzle with parameters `n` and `k`. -/
structure IsSolution (n k : Nat) (index digest : Nat → Nat) : Prop where
  distinct : Distinct k index
  ordered : Ordered k index
  collides : ∀ r, 1 ≤ r → r ≤ k → CollidesAt n k digest r
  zero : xorBlock digest 0 (2 ^ k) = 0

/-- Once all digests cancel, only the levels below the root are left to check. -/
theorem isSolution_iff {n k : Nat} {index digest : Nat → Nat}
    (zero : xorBlock digest 0 (2 ^ k) = 0) :
    IsSolution n k index digest ↔
      Distinct k index ∧ Ordered k index ∧ ∀ r, 1 ≤ r → r < k → CollidesAt n k digest r := by
  constructor
  · intro solution
    exact ⟨solution.distinct, solution.ordered,
      fun r positive below => solution.collides r positive below.le⟩
  · rintro ⟨distinct, ordered, collides⟩
    refine ⟨distinct, ordered, fun r positive bound => ?_, zero⟩
    rcases bound.lt_or_eq with below | rfl
    · exact collides r positive below
    · intro block blockBound
      have root : block = 0 := by simpa using blockBound
      simp [root, zero]

/-- An even number of equal digests cancels. -/
theorem xorBlock_const (value start half : Nat) :
    xorBlock (fun _ => value) start (2 * half) = 0 := by
  induction half generalizing start with
  | zero => rfl
  | succ half ih =>
      have rest := ih (start + 1 + 1)
      rw [xorBlock] at rest ⊢
      rw [show 2 * (half + 1) = 2 * half + 1 + 1 by omega, List.range'_succ, List.range'_succ,
        List.foldl_cons, List.foldl_cons, Nat.zero_xor, Nat.xor_self]
      exact rest

end ZcashSoloPool.Equihash
