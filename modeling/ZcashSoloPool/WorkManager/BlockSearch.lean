import ZcashSoloPool.WorkManager.ConsensusHash

/-!
# Blocks among the candidates

A candidate that meets the network target is a block.  The search ends on the
first candidate that meets any target, so a share may stand before a block.
-/

namespace ZcashSoloPool.WorkManager

open ZcashSoloPool.Bytes
open ZcashSoloPool.JavaScript

/-- The verifier accepts the candidate and its hash meets the network target. -/
structure Candidate.IsBlock (deps : Externals) (ctx : ShareContext) (candidate : Candidate) :
    Prop where
  verified : candidate.Verified deps
  meets : candidate.hashValue deps ≤ ctx.netTargetBI

theorem Candidate.IsBlock.isHit {deps : Externals} {ctx : ShareContext} {candidate : Candidate}
    (isBlock : candidate.IsBlock deps ctx) : candidate.IsHit deps ctx where
  verified := isBlock.verified
  meets := by
    have meets := isBlock.meets
    simp [meetsTarget, meets]

/-- The submission is accepted as a block and its block text is there. -/
def FindsBlock (deps : Externals) (manager : WorkManager) (submission : Submission) (now : Nat) :
    Prop :=
  ∃ share blockHex, validateShare deps manager submission now = .ok (.valid share) ∧
    share.isBlock = true ∧ share.blockHex = some blockHex

/-- When one of the candidates is a block, the submission is a block. -/
def NoBlockLost (deps : Externals) (manager : WorkManager) (submission : Submission) (now : Nat) :
    Prop :=
  ∀ ctx, prepare manager submission now = .ok ctx →
    (∃ candidate ∈ ctx.candidates, candidate.IsBlock deps ctx) →
      FindsBlock deps manager submission now

/-- Among the candidates a share that is not a block stands before every
block, and there is a block. -/
def ShareContext.HidesBlock (deps : Externals) (ctx : ShareContext) : Prop :=
  ∃ before share after, ctx.candidates = before ++ share :: after ∧
    (∀ earlier ∈ before, ¬earlier.IsBlock deps ctx) ∧
    share.IsHit deps ctx ∧ ¬share.IsBlock deps ctx ∧ ∃ block ∈ after, block.IsBlock deps ctx

/-- A block is hidden exactly when there is one and the first hit is none. -/
theorem hidesBlock_iff {deps : Externals} {ctx : ShareContext} {first : Candidate}
    (firstHit : ctx.FirstHit deps first) :
    ctx.HidesBlock deps ↔
      ¬first.IsBlock deps ctx ∧ ∃ block ∈ ctx.candidates, block.IsBlock deps ctx := by
  constructor
  · rintro ⟨before, share, after, split, noBlock, isHit, notBlock, block, member, isBlock⟩
    refine ⟨fun firstIsBlock => ?_, block, by simp [split, member], isBlock⟩
    rcases firstHit.first with ⟨front, back, firstSplit, misses⟩
    rcases Search.eq_or_mem_of_append_cons_eq (split.symm.trans firstSplit) with
      rfl | early | early
    · exact notBlock firstIsBlock
    · exact misses share early isHit
    · exact noBlock first early firstIsBlock
  · rintro ⟨notBlock, block, member, isBlock⟩
    rcases firstHit.first with ⟨before, after, split, misses⟩
    refine ⟨before, first, after, split, fun earlier earlierMember earlierIsBlock => ?_,
      firstHit.isHit, notBlock, block, ?_, isBlock⟩
    · exact misses earlier earlierMember earlierIsBlock.isHit
    · rw [split] at member
      rcases List.mem_append.mp member with early | later
      · exact absurd isBlock.isHit (misses block early)
      · rcases List.mem_cons.mp later with rfl | late
        · exact absurd isBlock notBlock
        · exact late

/-- A submission is accepted as a block exactly when its first hit is one. -/
theorem findsBlock_iff {deps : Externals} {manager : WorkManager} {submission : Submission}
    {now : Nat} {ctx : ShareContext} (prepared : Prepared manager submission now ctx)
    (issued : Issued deps ctx.job) {first : Candidate} (firstHit : ctx.FirstHit deps first) :
    FindsBlock deps manager submission now ↔ first.IsBlock deps ctx := by
  rcases validateShare_of_issued prepared issued firstHit with ⟨share, result, accepted⟩
  rcases acceptShare_eq_valid accepted with ⟨hashed, hash, block, blockHex⟩
  have hashValue : hexNumber share.hash = first.hashValue deps := by
    rw [hash, hashed]
    rfl
  constructor
  · rintro ⟨other, _, otherResult, isBlock, _⟩
    rw [result] at otherResult
    cases otherResult
    rw [block, hashValue] at isBlock
    exact ⟨firstHit.isHit.verified, of_decide_eq_true isBlock⟩
  · intro isBlock
    have found : share.isBlock = true := by
      rw [block, hashValue]
      exact decide_eq_true isBlock.meets
    rw [found, if_pos rfl] at blockHex
    rcases blockHex with ⟨text, _, textEq⟩
    exact ⟨share, text, result, found, textEq⟩

theorem noBlockLost_iff_of_issued {deps : Externals} {manager : WorkManager}
    (issued : ∀ {id job}, manager.jobs.get? id = some job → Issued deps job)
    (submission : Submission) (now : Nat) :
    NoBlockLost deps manager submission now ↔
      ∀ ctx, prepare manager submission now = .ok ctx → ¬ctx.HidesBlock deps := by
  refine forall_congr' fun ctx => forall_congr' fun ready => ?_
  have prepared := prepare_eq_ok_iff.mp ready
  rcases Option.bind_eq_some_iff.mp prepared.job with ⟨id, _, found⟩
  constructor
  · intro finds hidden
    have present : ∃ block ∈ ctx.candidates, block.IsBlock deps ctx := by
      rcases hidden with ⟨before, share, after, split, _, _, _, block, member, isBlock⟩
      exact ⟨block, by simp [split, member], isBlock⟩
    rcases present with ⟨block, member, isBlock⟩
    rcases exists_firstHit member isBlock.isHit with ⟨first, firstHit⟩
    exact ((hidesBlock_iff firstHit).mp hidden).1
      ((findsBlock_iff prepared (issued found) firstHit).mp (finds ⟨block, member, isBlock⟩))
  · rintro visible ⟨block, member, isBlock⟩
    rcases exists_firstHit member isBlock.isHit with ⟨first, firstHit⟩
    refine (findsBlock_iff prepared (issued found) firstHit).mpr ?_
    by_contra notBlock
    exact visible ((hidesBlock_iff firstHit).mpr ⟨notBlock, block, member, isBlock⟩)

/-- After any calls, no submission loses a block exactly when no share stands
before its blocks. -/
theorem noBlockLost_iff_not_hidesBlock (deps : Externals) (walletAddress poolTarget : Text)
    (calls : List ManagerCall) (submission : Submission) (now : Nat) :
    let manager := (History.after deps walletAddress poolTarget calls).manager
    NoBlockLost deps manager submission now ↔
      ∀ ctx, prepare manager submission now = .ok ctx → ¬ctx.HidesBlock deps :=
  noBlockLost_iff_of_issued (History.issued_after deps walletAddress poolTarget calls)
    submission now

/-! ## A share before a block -/

/-- The target of half of all hashes. -/
def halfTarget : Text :=
  '7' :: List.replicate 63 'f'

/-- The last candidate: the bits in header order and the shortest length. -/
def blockCandidate : Candidate where
  headerBuf := (overlongContext halfTarget).header (List.replicate 64 '0') (List.replicate 8 '0')
    "ffff071f".toList
  solution := ⟨toHex (consensusField zeroSolution), zeroSolution⟩

theorem isBlock_blockCandidate :
    blockCandidate.IsBlock packagesExample (overlongContext halfTarget) where
  verified := by
    have prepared := prepared_overlongContext halfTarget (by decide) (by decide)
    exact verified_zeroSolution (prepared.wellShaped.length_header (List.mem_singleton_self _)
      (List.mem_singleton_self _) (List.mem_cons_of_mem _ (List.mem_singleton_self _)))
  meets := by decide +kernel

theorem misses_overlongCandidate : ¬(overlongCandidate halfTarget).hashValue packagesExample ≤
    (overlongContext halfTarget).netTargetBI := by
  decide +kernel

theorem not_isBlock_overlongCandidate :
    ¬(overlongCandidate halfTarget).IsBlock packagesExample (overlongContext halfTarget) :=
  fun isBlock => misses_overlongCandidate isBlock.meets

/-- The longer form of the length meets the share target, and the block with
the shortest form is not looked at. -/
theorem not_noBlockLost_overlong :
    ¬NoBlockLost packagesExample (managerExample halfTarget) overlongSubmission 0 := by
  have lower : IsLowerHex halfTarget := by decide
  have nonempty : halfTarget ≠ [] := List.cons_ne_nil _ _
  have prepared := prepared_overlongContext _ lower nonempty
  have issued : Issued packagesExample (jobExample halfTarget) :=
    ⟨_, _, _, _, buildJob_jobExample halfTarget⟩
  have firstHit := firstHit_overlongCandidate lower nonempty
  have member : blockCandidate ∈ (overlongContext halfTarget).candidates :=
    mem_candidates.mpr ⟨mem_headers.mpr ⟨_, List.mem_singleton_self _, _, List.mem_singleton_self _,
      _, List.mem_cons_of_mem _ (List.mem_singleton_self _), rfl⟩,
      List.mem_cons_of_mem _ (List.mem_singleton_self _)⟩
  intro noneLost
  have finds := noneLost _ (prepare_eq_ok_iff.mpr prepared) ⟨_, member, isBlock_blockCandidate⟩
  exact not_isBlock_overlongCandidate ((findsBlock_iff prepared issued firstHit).mp finds)

end ZcashSoloPool.WorkManager
