import ZcashSoloPool.Stratum.Messages

/-!
# The bits of a header

`mining.notify` always reverses the bytes of the bits that the node sends.
`normalizeCompactBitsLE`, which the check before the submission of a block
uses, guesses their order from which end looks like an exponent.  The two part
where both ends do.
-/

namespace ZcashSoloPool.Stratum

open ZcashSoloPool.Bytes
open ZcashSoloPool.JavaScript
open ZcashSoloPool.WorkManager

/-- A number that `normalizeCompactBitsLE` takes for an exponent. -/
def InExponentRange (byte : Nat) : Prop :=
  3 ≤ byte ∧ byte ≤ 32

instance (byte : Nat) : Decidable (InExponentRange byte) :=
  inferInstanceAs (Decidable (_ ∧ _))

/-- The canonical bits of a header are the reversed bytes of the bits of the
template and are announced for every job with these bits; making them canonical
once more changes nothing. -/
structure BitsAgree (bits : Text) : Prop where
  canonical : normalizeCompactBitsLE bits = reverseHex bits
  announced : ∀ job, job.nbits = .string bits →
    (sendJob job).bits = .string (normalizeCompactBitsLE bits)
  stable : normalizeCompactBitsLE (normalizeCompactBitsLE bits) = normalizeCompactBitsLE bits

/-- What is announced are the reversed bytes. -/
theorem sendJob_bits {job : Job} {bits : Text} (nbits : job.nbits = .string bits)
    (even : bits.length % 2 = 0) : (sendJob job).bits = .string (reverseHex bits) := by
  simp [sendJob, nbits, reverseHexBytes, even, Value.or, Value.truthy]

/-! ## The guess on four bytes -/

/-- The guess looks at the two end bytes only. -/
theorem normalizeCompactBitsLE_of_spells {bits : Text} {a b c d : UInt8}
    (spells : Spells bits [a, b, c, d]) :
    normalizeCompactBitsLE bits =
      if InExponentRange a.toNat ∧ ¬InExponentRange d.toNat then toHex [d, c, b, a]
      else toHex [a, b, c, d] := by
  have lower : toLowerCase bits = toHex [a, b, c, d] := spells
  have isHex : isHexText (toHex [a, b, c, d]) = true :=
    isHexText_iff.mpr ⟨toHex_ne_nil (List.cons_ne_nil _ _), (isHexBytes_toHex _).lower⟩
  have last : hexNumber ((toHex [a, b, c, d]).drop 6) = d.toNat := by
    rw [drop_toHex [a, b, c, d] 3]
    exact hexNumber_take_toHex d []
  have shape : ¬((toHex [a, b, c, d]).length ≠ 8 || !isHexText (toHex [a, b, c, d])) = true := by
    simp [isHex]
  have reversed : reverseHex (toHex [a, b, c, d]) = toHex [d, c, b, a] := reverseHex_toHex _
  rw [normalizeCompactBitsLE, lower]
  simp only [if_neg shape, last, hexNumber_take_toHex, reversed, ← Bool.decide_and,
    ← InExponentRange.eq_def, ← decide_not, decide_eq_true_eq]

/-- Eight digits spell four bytes, of which the text shows the two ends. -/
theorem exists_spells_four {bits : Text} (length : bits.length = 8) (hex : IsHexDigits bits) :
    ∃ a b c d : UInt8, Spells bits [a, b, c, d] ∧ hexNumber (bits.take 2) = a.toNat ∧
      hexNumber (bits.drop 6) = d.toNat := by
  have spells := spells_ofHex hex (by rw [length])
  have count := spells.length_eq
  obtain ⟨a, b, c, d, bytes⟩ : ∃ a b c d, ofHex bits = [a, b, c, d] :=
    List.length_eq_four.mp (by omega)
  rw [bytes] at spells
  have lower : toLowerCase bits = toHex [a, b, c, d] := spells
  refine ⟨a, b, c, d, spells, ?_, ?_⟩
  · rw [← hexNumber_toLowerCase, toLowerCase, List.map_take, ← toLowerCase, lower]
    exact hexNumber_take_toHex a [b, c, d]
  · rw [← hexNumber_toLowerCase, toLowerCase, List.map_drop, ← toLowerCase, lower,
      drop_toHex [a, b, c, d] 3]
    exact hexNumber_take_toHex d []

/-! ## When the two agree -/

/-- With an exponent in front, the announced bits and the canonical bits agree
exactly if the last byte is no exponent as well, or the bytes read the same in
both orders. -/
theorem bitsAgree_iff {bits : Text} (length : bits.length = 8) (hex : IsHexDigits bits)
    (exponent : InExponentRange (hexNumber (bits.take 2))) :
    BitsAgree bits ↔
      ¬InExponentRange (hexNumber (bits.drop 6)) ∨ (ofHex bits).reverse = ofHex bits := by
  obtain ⟨a, b, c, d, spells, firstEq, lastEq⟩ := exists_spells_four length hex
  have even : bits.length % 2 = 0 := by rw [length]
  have reversed : reverseHex bits = toHex [d, c, b, a] := by
    rw [reverseHex, spells.ofHex_eq]
    rfl
  rw [firstEq] at exponent
  rw [lastEq, spells.ofHex_eq]
  have guess := normalizeCompactBitsLE_of_spells spells
  constructor
  · intro agree
    by_cases both : InExponentRange d.toNat
    · right
      have canonical := agree.canonical
      rw [guess, if_neg (fun parts => parts.2 both), reversed] at canonical
      exact (toHex_injective canonical).symm
    · exact Or.inl both
  · intro condition
    have canonical : normalizeCompactBitsLE bits = reverseHex bits := by
      rw [guess, reversed]
      rcases condition with oneEnd | palindrome
      · rw [if_pos ⟨exponent, oneEnd⟩]
      · rw [← show [d, c, b, a] = [a, b, c, d] from palindrome, ite_self]
    refine ⟨canonical, ?_, ?_⟩
    · intro job nbits
      rw [sendJob_bits nbits even, canonical]
    · have again := normalizeCompactBitsLE_of_spells (spells_toHex [d, c, b, a])
      rw [canonical, reversed, again]
      rcases condition with oneEnd | palindrome
      · rw [if_neg (fun parts => oneEnd parts.1)]
      · rw [← show [d, c, b, a] = [a, b, c, d] from palindrome, ite_self]

/-- Bits with an exponent at one end only. -/
theorem bitsAgree_1d00ffff : BitsAgree "1d00ffff".toList :=
  (bitsAgree_iff (by decide) (by decide) (by decide)).mpr (Or.inl (by decide))

/-- Bits whose low byte could be an exponent. -/
theorem not_bitsAgree_1c01ff20 : ¬BitsAgree "1c01ff20".toList := by
  intro agree
  have := agree.canonical
  revert this
  decide

end ZcashSoloPool.Stratum
