import ZcashSoloPool.WorkManager.Candidates

/-!
# The two encodings of a solution

Miners submit a solution with its length in front or without.  The work manager
takes a text for prefixed when it begins with a length that counts the rest of
the text, so a bare solution is misread when its own first bytes happen to
count the others.
-/

namespace ZcashSoloPool.WorkManager

open ZcashSoloPool.Bytes
open ZcashSoloPool.JavaScript
open ZcashSoloPool.Wire

/-! ## Texts that count their own rest -/

/-- A delimited field is a length in any of its forms and the body it
counts. -/
theorem readDelimited_eq_some_iff {bytes body : List UInt8} :
    readDelimited bytes = some body ↔
      body.length ≤ maxSafeInteger ∧ readCompactSize bytes = some (body.length, body) := by
  unfold readDelimited
  cases readCompactSize bytes with
  | none => simp
  | some result =>
      rcases result with ⟨length, rest⟩
      dsimp only
      constructor
      · intro read
        split at read
        · next counted =>
            cases read
            exact ⟨counted.2 ▸ counted.1, by rw [counted.2]⟩
        · contradiction
      · rintro ⟨safe, read⟩
        cases read
        rw [if_pos ⟨safe, rfl⟩]

/-- The lengths that count the rest of a solution of 1344 bytes of which they
are themselves the first. -/
def ownLengths : List (List UInt8) :=
  [[0xfd, 0x3d, 0x05], [0xfe, 0x3b, 0x05, 0, 0], [0xff, 0x37, 0x05, 0, 0, 0, 0, 0, 0]]

/-- The first bytes of the solution look like a length of the others. -/
def LooksPrefixed (solution : List UInt8) : Prop :=
  ∃ length ∈ ownLengths, length <+: solution

/-- The payload of a marker is determined by the value and the width. -/
theorem payload_eq_toLE {payload : List UInt8} {width value : Nat}
    (length : payload.length = width) (denotes : ofLE payload = value) :
    payload = toLE width value := by
  rw [← denotes, ← length, toLE_ofLE]

theorem looksPrefixed_of_readDelimited {solution body : List UInt8}
    (length : solution.length = 1344) (read : readDelimited solution = some body) :
    LooksPrefixed solution := by
  rcases readDelimited_eq_some_iff.mp read with ⟨-, sized⟩
  obtain ⟨first, payload, rfl, width, counted⟩ := readCompactSize_eq_some sized
  rw [List.length_cons, List.length_append] at length
  unfold payloadWidth at width
  split at width
  · next small =>
      rw [if_pos small] at counted
      omega
  · next large =>
      rw [if_neg large] at counted
      split at width
      · next is253 =>
          have marker : first = 0xfd := UInt8.toNat_inj.mp is253
          have rest : ofLE payload = 1341 := by omega
          refine ⟨[0xfd, 0x3d, 0x05], by simp [ownLengths], body, ?_⟩
          rw [marker, payload_eq_toLE width rest]
          rfl
      · split at width
        · next is254 =>
            have marker : first = 0xfe := UInt8.toNat_inj.mp is254
            have rest : ofLE payload = 1339 := by omega
            refine ⟨[0xfe, 0x3b, 0x05, 0, 0], by simp [ownLengths], body, ?_⟩
            rw [marker, payload_eq_toLE width rest]
            rfl
        · next is255 =>
            have marker : first = 0xff := by
              apply UInt8.toNat_inj.mp
              have byte := first.toNat_lt
              have value : (0xff : UInt8).toNat = 255 := rfl
              omega
            have rest : ofLE payload = 1335 := by omega
            refine ⟨[0xff, 0x37, 0x05, 0, 0, 0, 0, 0, 0], by simp [ownLengths], body, ?_⟩
            rw [marker, payload_eq_toLE width rest]
            rfl

/-- A marker whose payload counts what follows is read as that length. -/
theorem readCompactSize_counted {first : UInt8} {payload body : List UInt8}
    (marker : ¬first.toNat < 253) (width : payload.length = payloadWidth first)
    (counts : ofLE payload = body.length) :
    readCompactSize (first :: payload ++ body) = some (body.length, body) := by
  rw [List.cons_append, readCompactSize_payload marker width, counts]

theorem readDelimited_of_looksPrefixed {solution : List UInt8} (length : solution.length = 1344)
    (looks : LooksPrefixed solution) :
    ∃ body, readDelimited solution = some body ∧ body.length < 1344 := by
  rcases looks with ⟨own, member, body, rfl⟩
  rw [List.length_append] at length
  have read : readCompactSize (own ++ body) = some (body.length, body) ∧ 0 < own.length := by
    simp only [ownLengths, List.mem_cons, List.not_mem_nil, or_false] at member
    rcases member with rfl | rfl | rfl
    · have counts : ofLE [0x3d, 0x05] = body.length :=
        (show ofLE [0x3d, 0x05] = 1341 by decide).trans (Nat.add_left_cancel length).symm
      exact ⟨readCompactSize_counted (by decide) rfl counts, by decide⟩
    · have counts : ofLE [0x3b, 0x05, 0, 0] = body.length :=
        (show ofLE [0x3b, 0x05, 0, 0] = 1339 by decide).trans (Nat.add_left_cancel length).symm
      exact ⟨readCompactSize_counted (by decide) rfl counts, by decide⟩
    · have counts : ofLE [0x37, 0x05, 0, 0, 0, 0, 0, 0] = body.length :=
        (show ofLE [0x37, 0x05, 0, 0, 0, 0, 0, 0] = 1335 by decide).trans
          (Nat.add_left_cancel length).symm
      exact ⟨readCompactSize_counted (by decide) rfl counts, by decide⟩
  refine ⟨body, readDelimited_eq_some_iff.mpr ⟨?_, read.1⟩, by omega⟩
  simp only [maxSafeInteger]
  omega

/-! ## What is made of a submitted solution -/

/-- Some field that the work manager makes of the submitted value has these raw
bytes. -/
def Yields (submitted : Value) (solution : List UInt8) : Prop :=
  ∃ solutionHex, normalizeHexField submitted false 60000 = some solutionHex ∧
    ∃ field ∈ normalizeSolutionFields solutionHex, extractRawSolutionBytes field = some solution

/-- Every field that the work manager makes of the submitted value can be
decoded. -/
def FieldsDecode (submitted : Value) : Prop :=
  ∀ solutionHex, normalizeHexField submitted false 60000 = some solutionHex →
    ∀ field ∈ normalizeSolutionFields solutionHex,
      ∃ bytes, extractRawSolutionBytes field = some bytes

theorem extractRawSolutionBytes_toHex (bytes : List UInt8) :
    extractRawSolutionBytes (toHex bytes) = readDelimited bytes := by
  rw [extractRawSolutionBytes, delimitedBody_toHex, Option.map_map]
  cases readDelimited bytes with
  | none => rfl
  | some body => simp

/-- What a submission yields is read from its forms. -/
theorem yields_iff {text : Text} {bytes solution : List UInt8} (spells : Spells text bytes)
    (nonempty : bytes ≠ []) (short : 2 * bytes.length ≤ 60000) :
    Yields (.string text) solution ↔
      ∃ form ∈ solutionForms bytes, readDelimited form = some solution := by
  have normalized := normalizeHexField_of_spells spells nonempty false 60000 (Or.inr short)
  unfold Yields
  rw [normalized]
  constructor
  · rintro ⟨_, ⟨⟩, field, member, extracted⟩
    obtain ⟨form, formMember, rfl⟩ := mem_normalizeSolutionFields.mp member
    rw [extractRawSolutionBytes_toHex] at extracted
    exact ⟨form, formMember, extracted⟩
  · rintro ⟨form, member, read⟩
    refine ⟨_, rfl, toHex form, mem_normalizeSolutionFields.mpr ⟨form, member, rfl⟩, ?_⟩
    rw [extractRawSolutionBytes_toHex, read]

/-- A form is the submission itself, where it is delimited, or a body with its
shortest length. -/
theorem exists_readDelimited_of_mem_solutionForms {bytes form : List UInt8}
    (safe : bytes.length ≤ maxSafeInteger) (member : form ∈ solutionForms bytes) :
    ∃ body, readDelimited form = some body := by
  unfold solutionForms at member
  split at member
  · next body read =>
      have bound := (readDelimited_eq_some_iff.mp read).1
      rcases List.mem_pair.mp member with rfl | rfl
      · exact ⟨body, read⟩
      · exact ⟨body, readDelimited_shortestField bound⟩
  · rw [List.mem_singleton.mp member]
    exact ⟨bytes, readDelimited_shortestField safe⟩

/-- Whatever is submitted, no field is made that cannot be decoded. -/
theorem fieldsDecode (submitted : Value) : FieldsDecode submitted := by
  intro solutionHex normalized field member
  obtain ⟨hex, -, short⟩ := normalizeHexField_eq_some normalized
  obtain ⟨bytes, rfl⟩ := exists_toHex_eq hex
  obtain ⟨form, formMember, rfl⟩ := mem_normalizeSolutionFields.mp member
  have limit := short (by decide)
  rw [length_toHex] at limit
  have safe : bytes.length ≤ maxSafeInteger := by
    simp only [maxSafeInteger]
    omega
  rw [extractRawSolutionBytes_toHex]
  exact exists_readDelimited_of_mem_solutionForms safe formMember

/-! ## The two encodings -/

/-- The solution is recovered from its digits, with the length in front and
without, and no submission at all makes a field that cannot be decoded. -/
structure Understood (solution : List UInt8) : Prop where
  raw : ∀ text, Spells text solution → Yields (.string text) solution
  prefixed : ∀ text, Spells text ([0xfd, 0x40, 0x05] ++ solution) →
    Yields (.string text) solution
  decode : ∀ submitted, FieldsDecode submitted

theorem shortestField_of_length {solution : List UInt8} (length : solution.length = 1344) :
    shortestField solution = [0xfd, 0x40, 0x05] ++ solution := by
  rw [shortestField, length]
  rfl

/-- With its length in front a solution is always understood. -/
theorem yields_of_prefixed {solution : List UInt8} (length : solution.length = 1344) {text : Text}
    (spells : Spells text ([0xfd, 0x40, 0x05] ++ solution)) : Yields (.string text) solution := by
  rw [← shortestField_of_length length] at spells
  have safe : solution.length ≤ maxSafeInteger := by
    rw [length]
    decide
  have read := readDelimited_shortestField safe
  have digits : 2 * (shortestField solution).length ≤ 60000 := by
    rw [shortestField_of_length length, List.length_append, length]
    decide
  apply (yields_iff spells (shortestField_ne_nil solution) digits).mpr
  refine ⟨shortestField solution, ?_, read⟩
  rw [solutionForms, read]
  exact List.mem_cons_self

/-- Without it a solution is understood unless it looks prefixed. -/
theorem yields_raw_iff {solution : List UInt8} (length : solution.length = 1344) {text : Text}
    (spells : Spells text solution) :
    Yields (.string text) solution ↔ ¬LooksPrefixed solution := by
  have nonempty : solution ≠ [] := List.ne_nil_of_length_eq_add_one length
  rw [yields_iff spells nonempty (by rw [length]; decide)]
  constructor
  · rintro ⟨form, member, read⟩ looks
    obtain ⟨body, own, shorter⟩ := readDelimited_of_looksPrefixed length looks
    rw [solutionForms, own] at member
    have same : body = solution := by
      rcases List.mem_pair.mp member with rfl | rfl
      · exact Option.some.inj (own.symm.trans read)
      · have bound := (readDelimited_eq_some_iff.mp own).1
        exact Option.some.inj ((readDelimited_shortestField bound).symm.trans read)
    rw [same] at shorter
    omega
  · intro bare
    have unread : readDelimited solution = none := by
      apply Option.eq_none_iff_forall_ne_some.mpr
      intro body read
      exact bare (looksPrefixed_of_readDelimited length read)
    have safe : solution.length ≤ maxSafeInteger := by
      rw [length]
      decide
    refine ⟨shortestField solution, ?_, readDelimited_shortestField safe⟩
    rw [solutionForms, unread]
    exact List.mem_singleton_self _

/-- Both encodings of a solution are understood exactly when its first bytes do
not count the others. -/
theorem understood_iff_not_looksPrefixed (solution : Vector UInt8 1344) :
    Understood solution.toList ↔ ¬LooksPrefixed solution.toList := by
  have length : solution.toList.length = 1344 := Vector.length_toList
  constructor
  · intro understood
    exact (yields_raw_iff length (spells_toHex _)).mp
      (understood.raw _ (spells_toHex _))
  · intro bare
    constructor
    · intro text spells
      exact (yields_raw_iff length spells).mpr bare
    · intro text spells
      exact yields_of_prefixed length spells
    · exact fieldsDecode

/-- A solution that begins with the length of its other 1341 bytes. -/
def ambiguousSolution : Vector UInt8 1344 :=
  (#v[0xfd, 0x3d, 0x05] : Vector UInt8 3) ++
    (Vector.replicate 1341 0 : Vector UInt8 1341)

theorem not_understood_ambiguousSolution : ¬Understood ambiguousSolution.toList := by
  have length : ambiguousSolution.toList.length = 1344 := Vector.length_toList
  have looks : LooksPrefixed ambiguousSolution.toList := by
    rw [ambiguousSolution, Vector.toList_append]
    exact ⟨[0xfd, 0x3d, 0x05], by simp [ownLengths], List.prefix_append _ _⟩
  intro understood
  exact (yields_raw_iff length (spells_toHex _)).mp (understood.raw _ (spells_toHex _)) looks

end ZcashSoloPool.WorkManager
