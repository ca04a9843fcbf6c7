import Mathlib.Data.Fintype.Basic

/-!
# Address blocks

A block holds the addresses that begin with the same bits.  Clearing the other
bits with a mask tells the same addresses apart.
-/

namespace ZcashSoloPool.Web

/-- The addresses that agree with a base in their leading bits. -/
structure Block (w : Nat) where
  base : BitVec w
  length : Fin (w + 1)
  deriving DecidableEq, Repr

namespace Block

variable {w : Nat}

/-- The address lies in the block. -/
def Contains (block : Block w) (address : BitVec w) : Prop :=
  address >>> (w - block.length) = block.base >>> (w - block.length)

instance (block : Block w) (address : BitVec w) : Decidable (block.Contains address) :=
  inferInstanceAs (Decidable (_ = _))

/-- The block of a single address. -/
def single (address : BitVec w) : Block w :=
  ⟨address, Fin.last w⟩

theorem contains_single_iff {base address : BitVec w} :
    (single base).Contains address ↔ address = base := by
  simp [Contains, single]

/-- The mask that keeps as many leading bits. -/
def mask (w length : Nat) : BitVec w :=
  BitVec.allOnes w <<< (w - length)

theorem mask_zero (w : Nat) : mask w 0 = 0 := by
  simp [mask]

theorem getLsbD_mask {length i : Nat} (inside : i < w) :
    (mask w length).getLsbD i = decide (w - length ≤ i) := by
  rw [mask, BitVec.getLsbD_shiftLeft, BitVec.getLsbD_allOnes, decide_eq_true inside,
    Bool.true_and, decide_eq_true (Nat.lt_of_le_of_lt (Nat.sub_le i _) inside), Bool.and_true,
    ← decide_not, decide_eq_decide]
  exact Nat.not_lt

/-- Two addresses have the same leading bits exactly if they are the same under
the mask. -/
theorem and_mask_eq_iff (left right : BitVec w) (length : Nat) :
    left &&& mask w length = right &&& mask w length ↔
      left >>> (w - length) = right >>> (w - length) := by
  constructor
  · intro masked
    apply BitVec.eq_of_getLsbD_eq
    intro i _
    rw [BitVec.getLsbD_ushiftRight, BitVec.getLsbD_ushiftRight]
    by_cases small : w - length + i < w
    · have bit := congrArg (BitVec.getLsbD · (w - length + i)) masked
      simpa [getLsbD_mask small] using bit
    · have high : w ≤ w - length + i := Nat.le_of_not_lt small
      rw [BitVec.getLsbD_of_ge _ _ high, BitVec.getLsbD_of_ge _ _ high]
  · intro shifted
    apply BitVec.eq_of_getLsbD_eq
    intro i inside
    rw [BitVec.getLsbD_and, BitVec.getLsbD_and, getLsbD_mask inside]
    by_cases kept : w - length ≤ i
    · have bit := congrArg (BitVec.getLsbD · (i - (w - length))) shifted
      have place : w - length + (i - (w - length)) = i := Nat.add_sub_cancel' kept
      simp only [BitVec.getLsbD_ushiftRight, place] at bit
      rw [bit]
    · rw [decide_eq_false kept, Bool.and_false, Bool.and_false]

end Block

end ZcashSoloPool.Web
