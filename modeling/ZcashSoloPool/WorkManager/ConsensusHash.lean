import ZcashSoloPool.WorkManager.ShareSearch
import ZcashSoloPool.WorkManager.JobTable
import ZcashSoloPool.WorkManager.Payout

/-!
# The hash a share is judged on

A block commits to its solution behind the shortest length.  A submitter may
write the length in a longer form; the search tries that form first, and its
hash is another one.
-/

namespace ZcashSoloPool.WorkManager

open ZcashSoloPool.Bytes
open ZcashSoloPool.JavaScript
open ZcashSoloPool.Wire

/-- A solution as a block holds it: behind the shortest form of 1344. -/
def consensusField (solution : List UInt8) : List UInt8 :=
  [0xfd, 0x40, 0x05] ++ solution

theorem shortestField_eq {solution : List UInt8} (length : solution.length = 1344) :
    shortestField solution = consensusField solution := by
  rw [shortestField, length, consensusField]
  rfl

/-- The hash that was compared is that of a verified header and solution as a
block holds them, and so is the front of the block text. -/
def JudgedOnConsensusHash (deps : Externals) (share : AcceptedShare) : Prop :=
  ∃ header solution, Equihash.verify deps.verifyFn header solution = true ∧
    share.hashed = header ++ consensusField solution ∧
    share.hash = hashText deps share.hashed ∧
    ∀ blockHex, share.blockHex = some blockHex →
      toHex (header ++ consensusField solution) <+: blockHex

/-- The length in front of the candidate's solution is longer than it needs to
be. -/
def Candidate.Overlong (candidate : Candidate) : Prop :=
  candidate.solution.solutionFieldHex ≠ toHex (shortestField candidate.solution.solBuf)

/-- Before every other candidate that passes the verifier and meets a target
stands one whose length is longer than it needs to be. -/
def OverlongFirst (deps : Externals) (ctx : ShareContext) : Prop :=
  ∃ candidate, ctx.FirstHit deps candidate ∧ candidate.Overlong

/-- A share is accepted on the first hit, with its block text. -/
theorem validateShare_of_issued {deps : Externals} {manager : WorkManager}
    {submission : Submission} {now : Nat} {ctx : ShareContext}
    (prepared : Prepared manager submission now ctx) (issued : Issued deps ctx.job)
    {candidate : Candidate} (firstHit : ctx.FirstHit deps candidate) :
    ∃ share, validateShare deps manager submission now = .ok (.valid share) ∧
      acceptShare deps ctx candidate.headerBuf candidate.solution.solutionFieldHex =
        .ok (.valid share) := by
  rcases issued.exists_txs with ⟨txs, txsEq, _⟩
  obtain ⟨share, accepted⟩ := exists_acceptShare_eq_valid deps ctx candidate.headerBuf
    candidate.solution.solutionFieldHex ⟨_, assemble_eq txsEq _ _⟩
  exact ⟨share, by rw [validateShare_of_firstHit prepared firstHit, accepted], accepted⟩

/-- A share accepted on a candidate is judged on the consensus hash exactly
when the candidate has the shortest length. -/
theorem judgedOnConsensusHash_iff_not_overlong {deps : Externals} {manager : WorkManager}
    {submission : Submission} {now : Nat} {ctx : ShareContext}
    (prepared : Prepared manager submission now ctx) (issued : Issued deps ctx.job)
    {candidate : Candidate} (firstHit : ctx.FirstHit deps candidate) {share : AcceptedShare}
    (accepted : acceptShare deps ctx candidate.headerBuf candidate.solution.solutionFieldHex =
      .ok (.valid share)) :
    JudgedOnConsensusHash deps share ↔ ¬candidate.Overlong := by
  rcases acceptShare_eq_valid accepted with ⟨hashed, hash, _, block⟩
  rcases prepared.exists_field firstHit.mem with ⟨field, fieldEq, read⟩
  rcases Equihash.length_of_verify firstHit.isHit.verified with ⟨headerLength, solutionLength⟩
  rw [fieldEq, ofHex_toHex] at hashed
  constructor
  · rintro ⟨header, solution, verified, otherHashed, _⟩ overlong
    rcases Equihash.length_of_verify verified with ⟨otherHeader, otherSolution⟩
    obtain ⟨_, sameField⟩ := List.append_inj (hashed.symm.trans otherHashed)
      (headerLength.trans otherHeader.symm)
    have safe : solution.length ≤ maxSafeInteger := by
      rw [otherSolution]
      decide
    rw [sameField, ← shortestField_eq otherSolution, readDelimited_shortestField safe] at read
    have sameSolution := Option.some.inj read
    apply overlong
    rw [fieldEq, sameField, ← sameSolution, shortestField_eq otherSolution]
  · intro shortest
    have fieldText := not_not.mp shortest
    rw [fieldEq] at fieldText
    have sameField : field = consensusField candidate.solution.solBuf := by
      rw [← shortestField_eq solutionLength, ← ofHex_toHex field, fieldText, ofHex_toHex]
    refine ⟨candidate.headerBuf, candidate.solution.solBuf, firstHit.isHit.verified,
      by rw [hashed, sameField], hash, fun blockHex blockEq => ?_⟩
    cases isBlock : share.isBlock with
    | false =>
        rw [isBlock, if_neg (by decide), blockEq] at block
        contradiction
    | true =>
        rw [isBlock, if_pos rfl] at block
        rcases block with ⟨text, assembled, textEq⟩
        rcases issued.exists_txs with ⟨txs, txsEq, _⟩
        rw [assemble_eq txsEq, fieldEq, sameField] at assembled
        rw [blockEq] at textEq
        cases textEq
        cases assembled
        rw [toHex_append]
        exact ⟨compactSizeHex (1 + txs.length) ++ ctx.job.coinbaseTx ++
          (txs.map fun t => t.data.joinText).flatten, by simp only [List.append_assoc]⟩

/-- Every accepted share is judged on the consensus hash, exactly when no
candidate with a longer length comes first. -/
theorem judged_iff_of_issued {deps : Externals} {manager : WorkManager}
    (issued : ∀ {id job}, manager.jobs.get? id = some job → Issued deps job)
    (submission : Submission) (now : Nat) :
    (∀ share, validateShare deps manager submission now = .ok (.valid share) →
        JudgedOnConsensusHash deps share) ↔
      ∀ ctx, prepare manager submission now = .ok ctx → ¬OverlongFirst deps ctx := by
  constructor
  · rintro judged ctx ready ⟨candidate, firstHit, overlong⟩
    have prepared := prepare_eq_ok_iff.mp ready
    rcases Option.bind_eq_some_iff.mp prepared.job with ⟨id, _, found⟩
    rcases validateShare_of_issued prepared (issued found) firstHit with ⟨share, result, accepted⟩
    exact (judgedOnConsensusHash_iff_not_overlong prepared (issued found) firstHit accepted).mp
      (judged share result) overlong
  · intro noneFirst share result
    rcases validateShare_eq_valid_iff.mp result with ⟨ctx, prepared, candidate, firstHit, accepted⟩
    rcases Option.bind_eq_some_iff.mp prepared.job with ⟨id, _, found⟩
    exact (judgedOnConsensusHash_iff_not_overlong prepared (issued found) firstHit
      accepted).mpr fun overlong =>
        noneFirst ctx (prepare_eq_ok_iff.mpr prepared) ⟨candidate, firstHit, overlong⟩

/-- After any calls, the shares accepted of a submission are judged on the
consensus hash exactly when no candidate with a longer length comes first. -/
theorem judgedOnConsensusHash_iff (deps : Externals) (walletAddress poolTarget : Text)
    (calls : List ManagerCall) (submission : Submission) (now : Nat) :
    let manager := (History.after deps walletAddress poolTarget calls).manager
    (∀ share, validateShare deps manager submission now = .ok (.valid share) →
        JudgedOnConsensusHash deps share) ↔
      ∀ ctx, prepare manager submission now = .ok ctx → ¬OverlongFirst deps ctx :=
  judged_iff_of_issued (History.issued_after deps walletAddress poolTarget calls) submission now

/-! ## One job and a length in the longer form -/

/-- One clean job around the coinbase that pays the wallet. -/
def jobExample (target : Text) : Job :=
  jobRecord (templateExample ⟨2, by decide⟩ target payingCoinbase) (hexText 1) true
    (toHex payingCoinbase) (List.replicate 64 '0') (List.replicate 64 '0') (List.replicate 64 '0')

/-- The calls that issue it. -/
def callsExample (target : Text) : List ManagerCall :=
  [.generateJob true (.ok (some (templateExample ⟨2, by decide⟩ target payingCoinbase)))]

/-- The work manager with that job and the easiest target for shares. -/
def managerExample (target : Text) : WorkManager :=
  (History.after packagesExample walletExample easiestTarget (callsExample target)).manager

/-- Behind the length 1344 in the form of five bytes. -/
def overlongField (solution : List UInt8) : List UInt8 :=
  [0xfe, 0x40, 0x05, 0, 0] ++ solution

/-- Zero bytes pass the native verifier. -/
def zeroSolution : List UInt8 :=
  List.replicate 1344 0

/-- The nonce zero with that field. -/
def overlongSubmission : Submission where
  client := ⟨[], none, none, 0⟩
  jobId := some (hexText 1)
  nTime := some (List.replicate 8 '0')
  nonce := some (List.replicate 64 '0')
  solution := some (toHex (overlongField zeroSolution))

/-- What the checks make of it. -/
def overlongContext (target : Text) : ShareContext where
  job := jobExample target
  headerNonces := [List.replicate 64 '0']
  nTimeHeaderCandidates := [List.replicate 8 '0']
  bitsHeaderCandidates := ["1f07ffff".toList, "ffff071f".toList]
  parsedSolutions := [⟨toHex (overlongField zeroSolution), zeroSolution⟩,
    ⟨toHex (consensusField zeroSolution), zeroSolution⟩]
  netTargetBI := hexNumber target
  poolTargetBI := hexNumber easiestTarget
  graceTargetBI := none

theorem buildJob_jobExample (target : Text) :
    buildJob packagesExample walletExample (hexText 1) true
      (some (templateExample ⟨2, by decide⟩ target payingCoinbase)) = .ok (jobExample target) := by
  obtain ⟨coinbaseTx, coinbase⟩ := (accepted_payingCoinbase ⟨2, by decide⟩ target
    (.initial walletExample easiestTarget) rfl).coinbase
  have text := (getCoinbaseFromTemplate_eq_ok.mp coinbase).2.1
  rw [coinbaseText_templateExample _ _ _ (by decide) (by decide)] at text
  cases text
  exact buildJob_eq_ok.mpr ⟨_, _, [], _, _, _, rfl, coinbase, rfl, rfl, rfl, rfl, rfl⟩

theorem managerExample_eq (target : Text) :
    managerExample target =
      issueJob { WorkManager.initial walletExample easiestTarget with jobCounter := 1 }
        (jobExample target) := by
  have issued : generateJob packagesExample (.initial walletExample easiestTarget) true
      (.ok (some (templateExample ⟨2, by decide⟩ target payingCoinbase))) =
        (issueJob { WorkManager.initial walletExample easiestTarget with jobCounter := 1 }
          (jobExample target), .ok (jobExample target)) :=
    generateJob_eq_ok.mpr ⟨buildJob_jobExample target, rfl⟩
  simp only [managerExample, callsExample, History.after, List.foldl_cons, List.foldl_nil,
    History.perform, History.initial, issued, History.record]

theorem parseSolutions_overlongField :
    parseSolutions (normalizeSolutionFields (toHex (overlongField zeroSolution))) =
      [⟨toHex (overlongField zeroSolution), zeroSolution⟩,
        ⟨toHex (consensusField zeroSolution), zeroSolution⟩] := by
  decide +kernel

theorem timeCandidates_jobExample (target : Text) :
    normalizeHeaderTimeCandidates (List.replicate 8 '0') (jobExample target) =
      [List.replicate 8 '0'] := by
  have whatever : normalizeHeaderTimeCandidates (List.replicate 8 '0') (jobExample []) =
      [List.replicate 8 '0'] := by decide +kernel
  exact whatever

theorem get?_managerExample (target : Text) :
    (managerExample target).jobs.get? (jobExample target).jobId = some (jobExample target) := by
  have fresh : (WorkManager.initial walletExample easiestTarget).jobs.get?
      (jobExample target).jobId = none := rfl
  rw [managerExample_eq]
  exact get?_issueJob_self fresh

theorem clientTarget_managerExample (target : Text) {client : Client}
    (unset : client.shareTarget = none) :
    bigIntOfHex (clientTargetHex (managerExample target) client) =
      some (hexNumber easiestTarget) := by
  have easiest : IsLowerHex easiestTarget := by decide
  rw [managerExample_eq, clientTargetHex, unset]
  exact bigIntOfHex_of_isLowerHex easiest (List.cons_ne_nil _ _)

theorem prepared_overlongContext (target : Text) (lower : IsLowerHex target)
    (nonempty : target ≠ []) :
    Prepared (managerExample target) overlongSubmission 0 (overlongContext target) where
  job := by
    rw [show overlongSubmission.jobId = some (jobExample target).jobId from rfl, Option.bind_some]
    exact get?_managerExample target
  current := by
    rw [managerExample_eq]
    change decide ((jobExample target).height ≠ (jobExample target).height) = false
    simp
  nTime := ⟨List.replicate 8 '0', by decide, (timeCandidates_jobExample target).symm⟩
  nonce := ⟨List.replicate 64 '0', by decide, rfl⟩
  bits := rfl
  solution := by
    have length : (toHex (overlongField zeroSolution)).length = 2698 := by
      rw [length_toHex, overlongField, List.length_append, zeroSolution, List.length_replicate]
      rfl
    refine ⟨_, ?_, parseSolutions_overlongField.symm⟩
    exact normalizeHexField_string (isHexBytes_toHex _)
      (List.ne_nil_of_length_pos (by omega)) false 60000 (Or.inr (by omega))
  netTarget := bigIntOfHex_of_isLowerHex lower nonempty
  poolTarget := clientTarget_managerExample target rfl
  graceTarget := rfl
  someNonce := List.cons_ne_nil _ _
  someTime := List.cons_ne_nil _ _
  someBits := List.cons_ne_nil _ _
  someSolution := List.cons_ne_nil _ _

theorem verified_zeroSolution {header : List UInt8} (length : header.length = 140) :
    Equihash.verify packagesExample.verifyFn header zeroSolution = true := by
  have forged := Equihash.forged_of_ofBE_eq_zero (fun _ _ => Vector.replicate 50 0) header
    (ofBE_replicate_zero 1344)
  exact (Equihash.verify_nativeVerify_eq _ length List.length_replicate).trans
    (decide_eq_true forged.1)

/-- Every hash meets the easiest target. -/
theorem hexNumber_hashText_le (deps : Externals) (hashed : List UInt8) :
    hexNumber (hashText deps hashed) ≤ hexNumber easiestTarget := by
  have bound := ofBE_lt (deps.doubleHash hashed).reverse
  have easiest : hexNumber easiestTarget = 256 ^ 32 - 1 := by decide +kernel
  rw [List.length_reverse, Externals.length_doubleHash] at bound
  rw [hashText, hexNumber_toHex, easiest]
  omega

/-- The first candidate: the bits as the template spells them and the length as
it was submitted. -/
def overlongCandidate (target : Text) : Candidate where
  headerBuf := (overlongContext target).header (List.replicate 64 '0') (List.replicate 8 '0')
    "1f07ffff".toList
  solution := ⟨toHex (overlongField zeroSolution), zeroSolution⟩

theorem firstHit_overlongCandidate {target : Text} (lower : IsLowerHex target)
    (nonempty : target ≠ []) :
    (overlongContext target).FirstHit packagesExample (overlongCandidate target) where
  isHit := by
    have length := (prepared_overlongContext _ lower nonempty).wellShaped.length_header
      (List.mem_singleton_self _) (List.mem_singleton_self _) List.mem_cons_self
    refine ⟨verified_zeroSolution length, ?_⟩
    have meets := hexNumber_hashText_le packagesExample (overlongCandidate target).hashed
    exact Bool.or_eq_true_iff.mpr (Or.inl (Bool.or_eq_true_iff.mpr (Or.inl (decide_eq_true meets))))
  first := ⟨[], _, rfl, fun _ earlier => absurd earlier List.not_mem_nil⟩

/-- A solution behind the longer form of its length is accepted with a hash of
its own. -/
theorem not_judgedOnConsensusHash_overlong :
    ¬∀ share, validateShare packagesExample (managerExample easiestTarget) overlongSubmission 0 =
        .ok (.valid share) → JudgedOnConsensusHash packagesExample share := by
  have lower : IsLowerHex easiestTarget := by decide
  have nonempty : easiestTarget ≠ [] := List.cons_ne_nil _ _
  intro judged
  have overlong : (overlongCandidate easiestTarget).Overlong := by
    intro same
    have length : zeroSolution.length = 1344 := List.length_replicate
    have bytes : overlongField zeroSolution = consensusField zeroSolution := by
      rw [← shortestField_eq length, ← ofHex_toHex (overlongField zeroSolution),
        ← ofHex_toHex (shortestField zeroSolution)]
      exact congrArg ofHex same
    exact absurd (List.cons.inj bytes).1 (by decide)
  have prepared := prepared_overlongContext _ lower nonempty
  have issued : Issued packagesExample (jobExample easiestTarget) :=
    ⟨_, _, _, _, buildJob_jobExample easiestTarget⟩
  have firstHit := firstHit_overlongCandidate lower nonempty
  rcases validateShare_of_issued prepared issued firstHit with ⟨share, result, accepted⟩
  exact (judgedOnConsensusHash_iff_not_overlong prepared issued firstHit accepted).mp
    (judged share result) overlong

end ZcashSoloPool.WorkManager
