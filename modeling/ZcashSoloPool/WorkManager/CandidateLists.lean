import ZcashSoloPool.WorkManager.ShareSearch
import ZcashSoloPool.Transition.Run
import Mathlib.Data.List.Perm.Subperm

/-!
# How many candidates there are

The lists of candidates hold no text twice, and they are short whatever was
submitted: ten nonces, four times for a job that was issued, two encodings of
the bits and two solution fields.
-/

namespace ZcashSoloPool.WorkManager

open ZcashSoloPool.Bytes
open ZcashSoloPool.JavaScript
open ZcashSoloPool.Transition

/-- No two of the texts are equal, and there are at most `count`. -/
structure Distinct (count : Nat) (texts : List Text) : Prop where
  nodup : texts.Nodup
  length : texts.length ≤ count

theorem distinct_nil (count : Nat) : Distinct count [] :=
  ⟨List.nodup_nil, Nat.zero_le count⟩

theorem Distinct.of_subset {count : Nat} {texts values : List Text} (nodup : texts.Nodup)
    (subset : texts ⊆ values) (length : values.length ≤ count) : Distinct count texts :=
  ⟨nodup, (nodup.subperm subset).length_le.trans length⟩

theorem nodup_pushNew {out : List Text} (nodup : out.Nodup) (value : Text) :
    (pushNew out value).Nodup := by
  unfold pushNew
  split
  · exact nodup
  · next fresh => simpa using nodup.concat fresh

/-! ## Nonces -/

theorem distinct_unique {values : List Text} {count : Nat} (length : values.length ≤ count) :
    Distinct count (unique values) := by
  refine Distinct.of_subset ?_ (fun value member => mem_unique.mp member) length
  exact foldl_invariant pushNew List.Nodup (fun _ value nodup => nodup_pushNew nodup value)
    List.nodup_nil values

theorem length_pushNonce_le (candidates : List Text) (value : Text) :
    (pushNonce candidates value).length ≤ candidates.length + 1 := by
  unfold pushNonce
  split <;> simp

/-- The loop ends as soon as it has pushed eight nonces. -/
theorem length_insertExtra_le {nonceHex extra : Text} {places : List Nat} {candidates : List Text}
    (few : candidates.length < 8) :
    (insertExtra nonceHex extra places candidates).length ≤ 8 := by
  induction places generalizing candidates with
  | nil => exact few.le
  | cons i rest ih =>
      have pushed := length_pushNonce_le candidates (nonceHex.take i ++ extra ++ nonceHex.drop i)
      rw [insertExtra]
      split
      · omega
      · next more => exact ih (Nat.lt_of_not_le more)

theorem length_insertedNonces_le (nonceHex : Text) (extra : Option Text) :
    (insertedNonces nonceHex extra).length ≤ 8 := by
  unfold insertedNonces
  split
  · split
    · exact length_insertExtra_le (by decide)
    · simp
  · simp

/-- Eight nonces with the client's part inserted, and two padded ones. -/
theorem distinct_nonceCandidates (nonceHex : Text) (extranonce1 : Value) :
    Distinct 10 (normalizeNonceCandidates nonceHex extranonce1) := by
  have inserted := length_insertedNonces_le nonceHex (normalizeHexField extranonce1 false 8)
  unfold normalizeNonceCandidates
  split
  · exact distinct_nil 10
  · split
    · exact distinct_unique ((length_pushNonce_le [] nonceHex).trans (by decide))
    · dsimp only
      split
      · have first := length_pushNonce_le
          (insertedNonces nonceHex (normalizeHexField extranonce1 false 8)) (padStart 64 nonceHex)
        have second := length_pushNonce_le (pushNonce
          (insertedNonces nonceHex (normalizeHexField extranonce1 false 8)) (padStart 64 nonceHex))
          (padEnd 64 nonceHex)
        exact distinct_unique (by omega)
      · exact distinct_unique (by omega)

/-! ## Times and bits -/

theorem nodup_pushField {out : List Text} (nodup : out.Nodup) (value : Value) :
    (pushField out value).Nodup := by
  unfold pushField
  split
  · split
    · exact nodup
    · exact nodup_pushNew nodup _
  · exact nodup

/-- Where every value is one of a few or no field, few words are pushed. -/
theorem distinct_foldl_pushField {values : List Value} (few : List Value)
    (listed : ∀ value ∈ values, value ∈ few ∨ normalizeHexField value false 8 = none) :
    Distinct few.length (values.foldl pushField []) := by
  have nodup := foldl_invariant pushField List.Nodup
    (fun _ value nodup => nodup_pushField nodup value) List.nodup_nil values
  refine Distinct.of_subset nodup (fun word member => ?_) (List.length_filterMap_le
    (fun value => normalizeHexField value false 8) few)
  rcases mem_foldl_pushField.mp member with none | ⟨value, valueMember, normalized, _⟩
  · simp at none
  · rcases listed value valueMember with inside | unread
    · exact List.mem_filterMap.mpr ⟨value, inside, normalized⟩
    · rw [unread] at normalized
      contradiction

/-- The time of an issued job is written in both byte orders. -/
theorem Issued.ntimeLE {deps : Externals} {job : Job} (issued : Issued deps job) :
    job.ntimeLE = reverseHex job.ntime := by
  rcases issued with ⟨_, _, _, _, built⟩
  obtain ⟨_, _, _, _, _, _, _, _, _, _, _, _, rfl⟩ := buildJob_eq_ok.mp built
  rfl

/-- The submitted time and the time of the job, in both byte orders. -/
theorem distinct_timeCandidates {deps : Externals} {job : Job} (issued : Issued deps job)
    (submittedNTime : Text) : Distinct 4 (normalizeHeaderTimeCandidates submittedNTime job) := by
  refine distinct_foldl_pushField [.string submittedNTime,
    .string (reverseHex submittedNTime), .string job.ntimeLE, .string job.ntime]
    fun value member => ?_
  rcases List.mem_append.mp member with pushed | missing
  · rcases List.mem_append.mp pushed with first | reversed
    · exact Or.inl first
    · split at reversed
      · simp at reversed
      · rw [List.mem_singleton.mp reversed, ← issued.ntimeLE]
        exact Or.inl (by simp)
  · rw [List.mem_singleton.mp missing]
    exact Or.inr rfl

/-- The bits are left as they are or reversed. -/
theorem normalizeCompactBitsLE_cases {raw : Text} (lower : IsLowerHex raw) :
    normalizeCompactBitsLE raw = raw ∨ normalizeCompactBitsLE raw = reverseHex raw := by
  unfold normalizeCompactBitsLE
  rw [toLowerCase_of_isLowerHex lower]
  dsimp only
  split
  · exact Or.inl rfl
  · split
    · exact Or.inr rfl
    · exact Or.inl rfl

theorem reverseHex_reverseHex {text : Text} (hex : IsHexBytes text) :
    reverseHex (reverseHex text) = text := by
  obtain ⟨bytes, rfl⟩ := exists_toHex_eq hex
  rw [reverseHex_toHex, reverseHex_toHex, List.reverse_reverse]

/-- The bits of the template in both byte orders. -/
theorem distinct_bitsCandidates (bitsHex : Value) :
    Distinct 2 (normalizeCompactBitsCandidates bitsHex) := by
  unfold normalizeCompactBitsCandidates
  split
  · exact distinct_nil 2
  · next raw normalized =>
      have hex := (normalizeHexField_eq_some normalized).1
      have cases := normalizeCompactBitsLE_cases hex.lower
      split
      · exact distinct_nil 2
      · refine distinct_foldl_pushField [.string raw, .string (reverseHex raw)]
          fun value member => Or.inl ?_
        rcases List.mem_append.mp member with pushed | more
        · exact pushed
        · split at more
          · rcases cases with same | reversed
            · rwa [same] at more
            · rw [reversed, reverseHex_reverseHex hex] at more
              rcases List.mem_pair.mp more with rfl | rfl
              · simp
              · simp
          · simp at more

/-! ## Solution fields -/

theorem distinct_foldl_pushText {values : List Text} {count : Nat}
    (length : values.length ≤ count) : Distinct count (values.foldl pushText []) := by
  have nodup := foldl_invariant pushText List.Nodup (fun out value nodup => by
    unfold pushText
    split
    · exact nodup
    · exact nodup_pushNew nodup value) List.nodup_nil values
  refine Distinct.of_subset nodup (fun text member => ?_) length
  rcases mem_foldl_pushText.mp member with none | ⟨listed, _⟩
  · simp at none
  · exact listed

/-- The field as submitted and with the shortest length in front. -/
theorem distinct_solutionFields (solutionHex : Text) :
    Distinct 2 (normalizeSolutionFields solutionHex) := by
  unfold normalizeSolutionFields
  split
  · exact distinct_foldl_pushText (by simp)
  · exact distinct_foldl_pushText (by simp)

theorem length_parseSolutions_le (solutionFields : List Text) :
    (parseSolutions solutionFields).length ≤ solutionFields.length :=
  List.length_filterMap_le _ _

/-! ## All candidates -/

theorem ShareContext.length_candidates (ctx : ShareContext) :
    ctx.candidates.length = ctx.headerNonces.length * (ctx.nTimeHeaderCandidates.length *
      ctx.bitsHeaderCandidates.length) * ctx.parsedSolutions.length := by
  simp [ShareContext.candidates, ShareContext.headers, List.length_flatMap]

/-- A context that reached the search for an issued job has at most 160
candidates. -/
theorem Prepared.length_candidates_le {deps : Externals} {manager : WorkManager}
    {submission : Submission} {now : Nat} {ctx : ShareContext}
    (prepared : Prepared manager submission now ctx) (issued : Issued deps ctx.job) :
    ctx.candidates.length ≤ 160 := by
  rcases prepared.nTime with ⟨nTimeBE, _, times⟩
  rcases prepared.nonce with ⟨nonceHex, _, nonces⟩
  rcases prepared.solution with ⟨solutionHex, _, solutions⟩
  have nonceCount := (distinct_nonceCandidates nonceHex
    (.string submission.client.extranonce1)).length
  have timeCount := (distinct_timeCandidates issued nTimeBE).length
  have bitsCount := (distinct_bitsCandidates ctx.job.nbits).length
  have solutionCount := (length_parseSolutions_le _).trans
    (distinct_solutionFields solutionHex).length
  rw [← nonces] at nonceCount
  rw [← times] at timeCount
  rw [← prepared.bits] at bitsCount
  rw [← solutions] at solutionCount
  rw [ctx.length_candidates]
  calc _ ≤ 10 * (4 * 2) * 2 := Nat.mul_le_mul
        (Nat.mul_le_mul nonceCount (Nat.mul_le_mul timeCount bitsCount)) solutionCount
    _ = 160 := rfl

end ZcashSoloPool.WorkManager
