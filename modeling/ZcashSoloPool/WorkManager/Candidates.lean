import ZcashSoloPool.WorkManager.Encoding
import ZcashSoloPool.WorkManager.Template

/-!
# Candidates of a submission

Miners disagree on the layout of the nonce, on the byte order of the time and
of the bits, and on the length in front of the solution.  The work manager
tries the variants in turn; here are the lists of variants, in the order in
which they are tried, and what every variant looks like.
-/

namespace ZcashSoloPool.WorkManager

open ZcashSoloPool.Bytes
open ZcashSoloPool.JavaScript
open ZcashSoloPool.Wire

/-- Append a text that is not in the list yet. -/
def pushNew (out : List Text) (value : Text) : List Text :=
  if value ∈ out then out else out ++ [value]

/-- `[...new Set(_)]`. -/
def unique (values : List Text) : List Text :=
  values.foldl pushNew []

/-! ## Nonces -/

/-- The local `push` of `normalizeNonceCandidates`. -/
def pushNonce (candidates : List Text) (value : Text) : List Text :=
  if value.length ≠ 64 || !isHexText value then candidates else candidates ++ [value]

/-- The loop over the places at which `extra` may stand in the nonce, left
after eight pushes. -/
def insertExtra (nonceHex extra : Text) : List Nat → List Text → List Text
  | [], candidates => candidates
  | i :: rest, candidates =>
      let pushed := pushNonce candidates (nonceHex.take i ++ extra ++ nonceHex.drop i)
      if pushed.length ≥ 8 then pushed else insertExtra nonceHex extra rest pushed

/-- The values that the loop index `i` takes. -/
def insertPlaces (nonceHex : Text) : List Nat :=
  (List.range (nonceHex.length / 2 + 1)).map (2 * ·)

/-- The nonces with the client's part inserted, when the lengths fit. -/
def insertedNonces (nonceHex : Text) : Option Text → List Text
  | some extra =>
      if extra.length = 8 ∧ nonceHex.length + extra.length = 64 then
        insertExtra nonceHex extra (insertPlaces nonceHex) []
      else []
  | none => []

/-- `normalizeNonceCandidates`. -/
def normalizeNonceCandidates (nonceHex : Text) (extranonce1 : Value) : List Text :=
  if nonceHex.isEmpty || nonceHex.length % 2 != 0 || decide (nonceHex.length > 64) then []
  else if nonceHex.length = 64 then unique (pushNonce [] nonceHex)
  else
    let inserted := insertedNonces nonceHex (normalizeHexField extranonce1 false 8)
    if nonceHex.length ≥ 8 then
      unique (pushNonce (pushNonce inserted (padStart 64 nonceHex)) (padEnd 64 nonceHex))
    else unique inserted

/-! ## Times and bits -/

/-- The local `push` of `normalizeHeaderTimeCandidates` and of
`normalizeCompactBitsCandidates`. -/
def pushField (out : List Text) (value : Value) : List Text :=
  match normalizeHexField value false 8 with
  | some normalized => if normalized.length ≠ 8 then out else pushNew out normalized
  | none => out

/-- `normalizeHeaderTimeCandidates`.  The last push is of `_ntimeBE`, which no
job has. -/
def normalizeHeaderTimeCandidates (submittedNTime : Text) (job : Job) : List Text :=
  let pushed : List Value := [.string submittedNTime, .string (reverseHex submittedNTime),
    .string job.ntimeLE, .string job.ntime]
  let reversed : List Value :=
    if job.ntime.isEmpty then [] else [.string (reverseHex job.ntime)]
  (pushed ++ reversed ++ [Value.undefined]).foldl pushField []

/-- `normalizeCompactBitsCandidates`. -/
def normalizeCompactBitsCandidates (bitsHex : Value) : List Text :=
  match normalizeHexField bitsHex false 8 with
  | none => []
  | some raw =>
      if raw.length ≠ 8 then []
      else
        let normalizedLE := normalizeCompactBitsLE raw
        let pushed : List Value := [.string raw, .string (reverseHex raw)]
        let normalized : List Value :=
          if normalizedLE.length = 8 then
            [.string normalizedLE, .string (reverseHex normalizedLE)]
          else []
        (pushed ++ normalized).foldl pushField []

/-! ## Solution fields -/

/-- What follows the length in front of a field, when the length counts it
exactly. -/
def delimitedBody (field : Text) : Option Text := do
  let parsed ← parseCompactSize field
  let body := field.drop parsed.sizeHexChars
  if body.length = 2 * parsed.value then some body else none

/-- The local `push` of `normalizeSolutionFields`. -/
def pushText (out : List Text) (value : Text) : List Text :=
  if value.isEmpty then out else pushNew out value

/-- `normalizeSolutionFields`. -/
def normalizeSolutionFields (solutionHex : Text) : List Text :=
  match delimitedBody solutionHex with
  | some body => [solutionHex, compactSizeHex (body.length / 2) ++ body].foldl pushText []
  | none => [compactSizeHex (solutionHex.length / 2) ++ solutionHex].foldl pushText []

/-- `extractRawSolutionBytes`. -/
def extractRawSolutionBytes (solutionFieldHex : Text) : Option (List UInt8) :=
  (delimitedBody solutionFieldHex).map ofHex

/-- An element of `parsedSolutions`. -/
structure ParsedSolution where
  solutionFieldHex : Text
  solBuf : List UInt8
  deriving DecidableEq, Repr

/-- The loop that fills `parsedSolutions`. -/
def parseSolutions (solutionFields : List Text) : List ParsedSolution :=
  solutionFields.filterMap fun solutionFieldHex =>
    (extractRawSolutionBytes solutionFieldHex).map fun solRaw => ⟨solutionFieldHex, solRaw⟩

/-! ## Lists without repetition -/

theorem mem_pushNew {out : List Text} {value other : Text} :
    other ∈ pushNew out value ↔ other ∈ out ∨ other = value := by
  unfold pushNew
  split
  · next member =>
      constructor
      · exact Or.inl
      · rintro (earlier | rfl)
        · exact earlier
        · exact member
  · simp

theorem mem_foldl_pushNew {values out : List Text} {other : Text} :
    other ∈ values.foldl pushNew out ↔ other ∈ out ∨ other ∈ values := by
  induction values generalizing out with
  | nil => simp
  | cons value rest ih => rw [List.foldl_cons, ih, mem_pushNew, List.mem_cons, or_assoc]

@[simp]
theorem mem_unique {values : List Text} {value : Text} :
    value ∈ unique values ↔ value ∈ values := by
  simp [unique, mem_foldl_pushNew]

/-! ## What the nonces are -/

/-- Sixty-four lower-case digits. -/
structure IsNonce (nonce : Text) : Prop where
  lower : IsLowerHex nonce
  length : nonce.length = 64

theorem mem_pushNonce {candidates : List Text} {value other : Text} :
    other ∈ pushNonce candidates value ↔ other ∈ candidates ∨ (other = value ∧ IsNonce value) := by
  unfold pushNonce
  by_cases isNonce : IsNonce value
  · have nonempty : value ≠ [] := by
      rintro rfl
      exact absurd isNonce.length (by decide)
    have isHex := isHexText_iff.mpr ⟨nonempty, isNonce.lower⟩
    simp [isNonce.length, isHex, isNonce]
  · have notHex : (decide (value.length ≠ 64) || !isHexText value) = true := by
      by_contra passes
      simp only [Bool.or_eq_true, decide_eq_true_eq, Bool.not_eq_true', not_or, not_not,
        Bool.not_eq_false] at passes
      exact isNonce ⟨(isHexText_iff.mp passes.2).2, passes.1⟩
    rw [if_pos notHex]
    simp [isNonce]

theorem isNonce_of_mem_insertExtra {nonceHex extra : Text} {places : List Nat}
    {candidates : List Text} (earlier : ∀ nonce ∈ candidates, IsNonce nonce) :
    ∀ nonce ∈ insertExtra nonceHex extra places candidates, IsNonce nonce := by
  induction places generalizing candidates with
  | nil => exact earlier
  | cons i rest ih =>
      have pushed : ∀ nonce ∈ pushNonce candidates (nonceHex.take i ++ extra ++ nonceHex.drop i),
          IsNonce nonce := by
        intro nonce member
        rcases mem_pushNonce.mp member with old | ⟨rfl, isNonce⟩
        · exact earlier nonce old
        · exact isNonce
      rw [insertExtra]
      split
      · exact pushed
      · exact ih pushed

theorem isNonce_of_mem_insertedNonces {nonceHex : Text} {extra : Option Text} :
    ∀ nonce ∈ insertedNonces nonceHex extra, IsNonce nonce := by
  unfold insertedNonces
  split
  · split
    · exact isNonce_of_mem_insertExtra (by simp)
    · simp
  · simp

/-- Every nonce that is tried fills its place in the header. -/
theorem isNonce_of_mem_candidates {nonceHex : Text} {extranonce1 : Value} {nonce : Text}
    (member : nonce ∈ normalizeNonceCandidates nonceHex extranonce1) : IsNonce nonce := by
  unfold normalizeNonceCandidates at member
  split at member
  · simp at member
  · split at member
    · rw [mem_unique, mem_pushNonce] at member
      rcases member with none | ⟨rfl, isNonce⟩
      · simp at none
      · exact isNonce
    · split at member
      · rw [mem_unique, mem_pushNonce, mem_pushNonce] at member
        rcases member with (inserted | ⟨rfl, isNonce⟩) | ⟨rfl, isNonce⟩
        · exact isNonce_of_mem_insertedNonces nonce inserted
        · exact isNonce
        · exact isNonce
      · rw [mem_unique] at member
        exact isNonce_of_mem_insertedNonces nonce member

theorem subset_insertExtra {nonceHex extra : Text} {places : List Nat} {candidates : List Text} :
    candidates ⊆ insertExtra nonceHex extra places candidates := by
  induction places generalizing candidates with
  | nil => exact List.Subset.refl _
  | cons i rest ih =>
      intro nonce member
      have pushed : nonce ∈ pushNonce candidates (nonceHex.take i ++ extra ++ nonceHex.drop i) :=
        mem_pushNonce.mpr (Or.inl member)
      rw [insertExtra]
      split
      · exact pushed
      · exact ih pushed

/-- The nonce of a miner that appends its part to the assigned one is tried. -/
theorem append_mem_normalizeNonceCandidates {extra nonceHex : Text} (extraLower : IsLowerHex extra)
    (extraLength : extra.length = 8) (nonceLower : IsLowerHex nonceHex)
    (nonceLength : nonceHex.length = 56) :
    extra ++ nonceHex ∈ normalizeNonceCandidates nonceHex (.string extra) := by
  have extraNonempty : extra ≠ [] := by
    rintro rfl
    simp at extraLength
  have nonceNonempty : nonceHex.isEmpty = false := by
    rw [List.isEmpty_eq_false_iff]
    rintro rfl
    simp at nonceLength
  have isNonce : IsNonce (extra ++ nonceHex) :=
    ⟨isLowerHex_append.mpr ⟨extraLower, nonceLower⟩, by rw [List.length_append]; omega⟩
  have normalized := normalizeHexField_string ⟨extraLower, by omega⟩ extraNonempty false
    8 (Or.inr extraLength.le)
  have places : insertPlaces nonceHex = 0 :: (List.range' 1 28).map (2 * ·) := by
    rw [insertPlaces, nonceLength]
    decide
  have pushed : extra ++ nonceHex ∈
      pushNonce [] (nonceHex.take 0 ++ extra ++ nonceHex.drop 0) :=
    mem_pushNonce.mpr (Or.inr ⟨by simp, by simpa using isNonce⟩)
  have inserted : extra ++ nonceHex ∈ insertedNonces nonceHex (some extra) := by
    rw [insertedNonces, if_pos ⟨extraLength, by omega⟩, places, insertExtra]
    split
    · exact pushed
    · exact subset_insertExtra pushed
  have admitted : ¬(nonceHex.isEmpty || nonceHex.length % 2 != 0 ||
      decide (nonceHex.length > 64)) = true := by
    simp [nonceNonempty, nonceLength]
  rw [normalizeNonceCandidates, if_neg admitted, if_neg (by omega), if_pos (by omega), normalized,
    mem_unique]
  exact mem_pushNonce.mpr (Or.inl (mem_pushNonce.mpr (Or.inl inserted)))

/-! ## What the times and bits are -/

/-- Four bytes in lower-case digits. -/
structure IsWord (word : Text) : Prop where
  hex : IsHexBytes word
  length : word.length = 8

theorem mem_pushField {out : List Text} {value : Value} {word : Text} :
    word ∈ pushField out value ↔
      word ∈ out ∨ (normalizeHexField value false 8 = some word ∧ word.length = 8) := by
  unfold pushField
  cases normalized : normalizeHexField value false 8 with
  | none => simp
  | some field =>
      by_cases length : field.length = 8
      · simp only [length, ne_eq, not_true_eq_false, if_false, mem_pushNew, Option.some_inj]
        constructor
        · rintro (old | rfl)
          · exact Or.inl old
          · exact Or.inr ⟨rfl, length⟩
        · rintro (old | ⟨rfl, -⟩)
          · exact Or.inl old
          · exact Or.inr rfl
      · simp only [length, ne_eq, not_false_eq_true, if_true, Option.some_inj, iff_self_or]
        rintro ⟨rfl, same⟩
        exact absurd same length

theorem mem_foldl_pushField {values : List Value} {out : List Text} {word : Text} :
    word ∈ values.foldl pushField out ↔
      word ∈ out ∨ ∃ value ∈ values, normalizeHexField value false 8 = some word ∧
        word.length = 8 := by
  induction values generalizing out with
  | nil => simp
  | cons value rest ih =>
      rw [List.foldl_cons, ih, mem_pushField, List.exists_mem_cons_iff, or_assoc]

/-- Whatever is pushed is a word. -/
theorem isWord_of_mem_foldl {values : List Value} {word : Text}
    (member : word ∈ values.foldl pushField []) : IsWord word := by
  rcases mem_foldl_pushField.mp member with none | ⟨value, _, normalized, length⟩
  · simp at none
  · exact ⟨(normalizeHexField_eq_some normalized).1, length⟩

/-- A word that is among the pushed values is kept. -/
theorem IsWord.mem_foldl {word : Text} (isWord : IsWord word) {values : List Value}
    (member : Value.string word ∈ values) : word ∈ values.foldl pushField [] := by
  have nonempty : word ≠ [] := by
    rintro rfl
    exact absurd isWord.length (by decide)
  exact mem_foldl_pushField.mpr (Or.inr ⟨_, member,
    normalizeHexField_string isWord.hex nonempty false 8 (Or.inr isWord.length.le), isWord.length⟩)

theorem isWord_of_mem_timeCandidates {submittedNTime word : Text} {job : Job}
    (member : word ∈ normalizeHeaderTimeCandidates submittedNTime job) : IsWord word :=
  isWord_of_mem_foldl member

theorem isWord_of_mem_bitsCandidates {bitsHex : Value} {word : Text}
    (member : word ∈ normalizeCompactBitsCandidates bitsHex) : IsWord word := by
  unfold normalizeCompactBitsCandidates at member
  split at member
  · simp at member
  · split at member
    · simp at member
    · exact isWord_of_mem_foldl member

/-- The time as submitted is tried. -/
theorem IsWord.mem_timeCandidates {submittedNTime : Text} (isWord : IsWord submittedNTime)
    (job : Job) : submittedNTime ∈ normalizeHeaderTimeCandidates submittedNTime job :=
  isWord.mem_foldl (by simp)

/-- The bits of the template are tried in reversed byte order. -/
theorem mem_bitsCandidates {bits : Text} {bytes : List UInt8} (spells : Spells bits bytes)
    (length : bytes.length = 4) :
    toHex bytes.reverse ∈ normalizeCompactBitsCandidates (.string bits) := by
  have normalized := normalizeHexField_of_spells spells
    (List.ne_nil_of_length_eq_add_one length) false 8 (Or.inr (by omega))
  have isWord : IsWord (toHex bytes.reverse) :=
    ⟨isHexBytes_toHex _, by rw [length_toHex, List.length_reverse, length]⟩
  have digits : ¬(toHex bytes).length ≠ 8 := by
    rw [length_toHex, length]
    decide
  rw [normalizeCompactBitsCandidates, normalized]
  dsimp only
  rw [if_neg digits]
  exact isWord.mem_foldl (by simp)

/-! ## What the solution fields are -/

/-- The bytes behind a length that counts them exactly. -/
def readDelimited (bytes : List UInt8) : Option (List UInt8) :=
  match readCompactSize bytes with
  | some (length, body) =>
      if length ≤ maxSafeInteger ∧ body.length = length then some body else none
  | none => none

/-- The field of a body with the shortest length. -/
def shortestField (body : List UInt8) : List UInt8 :=
  compactSize body.length ++ body

theorem delimitedBody_toHex (bytes : List UInt8) :
    delimitedBody (toHex bytes) = (readDelimited bytes).map toHex := by
  unfold delimitedBody readDelimited
  rw [parseCompactSize_toHex]
  cases read : readCompactSize bytes with
  | none => rfl
  | some result =>
      rcases result with ⟨length, body⟩
      by_cases unsafeLength : length > maxSafeInteger
      · simp [unsafeLength, Nat.not_le_of_lt unsafeLength]
      · have suffix := readCompactSize_rest_sublist read
        have dropped : (toHex bytes).drop (2 * (bytes.length - body.length)) = toHex body := by
          rw [drop_toHex, ← List.suffix_iff_eq_drop.mp suffix]
        have same : (toHex body).length = 2 * length ↔ body.length = length := by
          rw [length_toHex]
          omega
        simp only [unsafeLength, if_false, Option.bind_eq_bind, Option.bind_some, dropped, same,
          Nat.not_lt.mp unsafeLength, true_and]
        split <;> rfl

theorem readDelimited_shortestField {body : List UInt8} (safe : body.length ≤ maxSafeInteger) :
    readDelimited (shortestField body) = some body := by
  have bound : body.length < 2 ^ 64 := by
    simp only [maxSafeInteger] at safe
    omega
  rw [readDelimited, shortestField, readCompactSize_compactSize bound]
  simp [safe]

theorem shortestField_ne_nil (body : List UInt8) : shortestField body ≠ [] := by
  have nonempty : compactSize body.length ≠ [] := by
    unfold compactSize
    split
    · simp
    · split
      · simp
      · split <;> simp
  simp [shortestField, nonempty]

theorem ne_nil_of_readDelimited {bytes body : List UInt8}
    (read : readDelimited bytes = some body) : bytes ≠ [] := by
  rintro rfl
  simp [readDelimited, readCompactSize] at read

/-- The forms in which a solution is tried: as submitted and with the shortest
length where it brings a length along, and otherwise with a length put in
front. -/
def solutionForms (bytes : List UInt8) : List (List UInt8) :=
  match readDelimited bytes with
  | some body => [bytes, shortestField body]
  | none => [shortestField bytes]

theorem ne_nil_of_mem_solutionForms {bytes field : List UInt8}
    (member : field ∈ solutionForms bytes) : field ≠ [] := by
  unfold solutionForms at member
  split at member
  · next read =>
      rcases List.mem_pair.mp member with rfl | rfl
      · exact ne_nil_of_readDelimited read
      · exact shortestField_ne_nil _
  · rw [List.mem_singleton.mp member]
    exact shortestField_ne_nil _

theorem mem_foldl_pushText {values out : List Text} {other : Text} :
    other ∈ values.foldl pushText out ↔ other ∈ out ∨ (other ∈ values ∧ other ≠ []) := by
  induction values generalizing out with
  | nil => simp
  | cons value rest ih =>
      have pushed : other ∈ pushText out value ↔ other ∈ out ∨ (other = value ∧ other ≠ []) := by
        unfold pushText
        split
        · next empty =>
            rw [List.isEmpty_iff] at empty
            subst empty
            simp
        · next nonempty =>
            rw [List.isEmpty_iff] at nonempty
            rw [mem_pushNew]
            refine or_congr_right ⟨fun same => ⟨same, ?_⟩, And.left⟩
            rw [same]
            exact nonempty
      rw [List.foldl_cons, ih, pushed, List.mem_cons, or_assoc, or_and_right]

/-- The solution fields are the texts of the forms. -/
theorem mem_normalizeSolutionFields {bytes : List UInt8} {text : Text} :
    text ∈ normalizeSolutionFields (toHex bytes) ↔
      ∃ field ∈ solutionForms bytes, text = toHex field := by
  have shortest : ∀ body, compactSizeHex ((toHex body).length / 2) ++ toHex body =
      toHex (shortestField body) := by
    intro body
    rw [length_toHex, Nat.mul_div_cancel_left _ (by decide), compactSizeHex_eq, shortestField,
      toHex_append]
  have nonempty : ∀ field ∈ solutionForms bytes, toHex field ≠ [] := by
    intro field member
    rw [← List.length_pos_iff, length_toHex]
    have := List.length_pos_iff.mpr (ne_nil_of_mem_solutionForms member)
    omega
  have forms : normalizeSolutionFields (toHex bytes) =
      ((solutionForms bytes).map toHex).foldl pushText [] := by
    unfold normalizeSolutionFields solutionForms
    rw [delimitedBody_toHex]
    cases readDelimited bytes with
    | none => simp only [Option.map_none, shortest, List.map_cons, List.map_nil]
    | some body => simp only [Option.map_some, shortest, List.map_cons, List.map_nil]
  rw [forms, mem_foldl_pushText]
  constructor
  · rintro (none | ⟨member, _⟩)
    · simp at none
    · obtain ⟨field, fieldMember, rfl⟩ := List.mem_map.mp member
      exact ⟨field, fieldMember, rfl⟩
  · rintro ⟨field, member, rfl⟩
    exact Or.inr ⟨List.mem_map.mpr ⟨field, member, rfl⟩, nonempty field member⟩

/-- Every parsed solution is a delimited field with its body. -/
theorem exists_of_mem_parseSolutions {fields : List Text}
    (hex : ∀ field ∈ fields, IsHexBytes field) {solution : ParsedSolution}
    (member : solution ∈ parseSolutions fields) :
    ∃ field, solution.solutionFieldHex = toHex field ∧ toHex field ∈ fields ∧
      readDelimited field = some solution.solBuf := by
  rcases List.mem_filterMap.mp member with ⟨text, textMember, parsed⟩
  obtain ⟨solRaw, extracted, rfl⟩ := Option.map_eq_some_iff.mp parsed
  obtain ⟨field, rfl⟩ := exists_toHex_eq (hex text textMember)
  refine ⟨field, rfl, textMember, ?_⟩
  rw [extractRawSolutionBytes, delimitedBody_toHex, Option.map_map] at extracted
  rcases Option.map_eq_some_iff.mp extracted with ⟨body, read, same⟩
  rw [read, ← same]
  simp

/-- A delimited field among the fields is parsed. -/
theorem mem_parseSolutions {fields : List Text} {field body : List UInt8}
    (member : toHex field ∈ fields) (read : readDelimited field = some body) :
    ⟨toHex field, body⟩ ∈ parseSolutions fields := by
  refine List.mem_filterMap.mpr ⟨toHex field, member, ?_⟩
  simp [extractRawSolutionBytes, delimitedBody_toHex, read]

end ZcashSoloPool.WorkManager
