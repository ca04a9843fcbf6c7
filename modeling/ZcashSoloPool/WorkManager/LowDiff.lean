import ZcashSoloPool.WorkManager.ShareSearch

/-!
# Rejections for a low difficulty

The search remembers the best candidate that passed the verifier.  Where no
candidate meets a target, a submission with such a candidate is rejected for
its low difficulty.
-/

namespace ZcashSoloPool.WorkManager

open ZcashSoloPool.Bytes
open ZcashSoloPool.JavaScript
open ZcashSoloPool.Search

/-- A candidate has passed the verifier. -/
def Tried (state : SearchState) : Prop :=
  state.bestTried.isSome = true

theorem isSome_betterTried (bestTried : Option BestTried) (hashBE : Text) (hashBI : Nat) :
    (betterTried bestTried hashBE hashBI).isSome = true := by
  unfold betterTried
  split
  · split <;> rfl
  · rfl

theorem tried_write (text : Text) (offset : Nat) (state : SearchState) (tried : Tried state) :
    Tried (state.write text offset) :=
  tried

/-- The innermost body remembers a candidate that passes the verifier. -/
theorem marks_trySolution (deps : Externals) (ctx : ShareContext) (header : List UInt8)
    (solution : ParsedSolution) :
    Marks (HoldsHeader header) Tried (Candidate.Verified deps ⟨header, solution⟩)
      fun state => trySolution deps ctx state solution := by
  intro state target holds goesOn marked
  rw [show header = state.headerBuf from holds.symm] at marked
  unfold trySolution at goesOn
  dsimp only at goesOn
  split at goesOn
  · next refused =>
      cases goesOn
      apply marked.resolve_right
      intro verified
      rw [show Equihash.verify deps.verifyFn state.headerBuf solution.solBuf = true from verified]
        at refused
      contradiction
  · split at goesOn
    · contradiction
    · cases goesOn
      exact isSome_betterTried _ _ _

/-- One of the solutions passes the verifier behind the header. -/
def VerifiedBehind (deps : Externals) (ctx : ShareContext) (header : List UInt8) : Prop :=
  ∃ solution ∈ ctx.parsedSolutions, Candidate.Verified deps ⟨header, solution⟩

/-- The loop over the solutions remembers one that passes the verifier. -/
theorem marks_solutions (deps : Externals) (ctx : ShareContext) (header : List UInt8) :
    Marks (HoldsHeader header) Tried (VerifiedBehind deps ctx header)
      fun state => ctx.parsedSolutions.foldlM (trySolution deps ctx) state := by
  have loop := Marks.foldlM (trySolution deps ctx)
    (fun solution (_ : solution ∈ ctx.parsedSolutions) =>
      exits_trySolution deps ctx header solution)
    (fun solution _ => marks_trySolution deps ctx header solution)
  exact loop

theorem marks_tryBits (deps : Externals) (ctx : ShareContext) (headerNonce : Text)
    {nTimeHeader : Text} (timeWord : IsWord nTimeHeader) {bitsHeader : Text}
    (bitsWord : IsWord bitsHeader) :
    Marks (HoldsTime ctx headerNonce nTimeHeader) Tried
      (VerifiedBehind deps ctx (ctx.header headerNonce nTimeHeader bitsHeader))
      fun state => tryBits deps ctx state bitsHeader :=
  (marks_solutions deps ctx (ctx.header headerNonce nTimeHeader bitsHeader)).comp
    (fun state => state.write bitsHeader 104)
    (fun _ (holds : HoldsTime ctx headerNonce nTimeHeader _) => holds.write timeWord bitsWord)
    (tried_write bitsHeader 104)

theorem marks_tryTime (deps : Externals) {ctx : ShareContext} (shaped : ctx.WellShaped)
    (headerNonce : Text) {nTimeHeader : Text} (timeWord : IsWord nTimeHeader) :
    Marks (HoldsNonce ctx headerNonce) Tried
      (∃ bitsHeader ∈ ctx.bitsHeaderCandidates,
        VerifiedBehind deps ctx (ctx.header headerNonce nTimeHeader bitsHeader))
      fun state => tryTime deps ctx state nTimeHeader := by
  have loop := Marks.foldlM (tryBits deps ctx)
    (fun bitsHeader (member : bitsHeader ∈ ctx.bitsHeaderCandidates) =>
      exits_tryBits deps ctx headerNonce timeWord (shaped.bits bitsHeader member))
    (fun bitsHeader (member : bitsHeader ∈ ctx.bitsHeaderCandidates) =>
      marks_tryBits deps ctx headerNonce timeWord (shaped.bits bitsHeader member))
  exact loop.comp (fun state => state.write nTimeHeader 100)
    (fun state (holds : HoldsNonce ctx headerNonce state) => holds.write timeWord)
    (tried_write nTimeHeader 100)

theorem marks_tryNonce (deps : Externals) {ctx : ShareContext} (shaped : ctx.WellShaped)
    {headerNonce : Text} (isNonce : IsNonce headerNonce) :
    Marks (HoldsFixed ctx) Tried
      (∃ nTimeHeader ∈ ctx.nTimeHeaderCandidates, ∃ bitsHeader ∈ ctx.bitsHeaderCandidates,
        VerifiedBehind deps ctx (ctx.header headerNonce nTimeHeader bitsHeader))
      fun state => tryNonce deps ctx state headerNonce := by
  have loop := Marks.foldlM (tryTime deps ctx)
    (fun nTimeHeader (member : nTimeHeader ∈ ctx.nTimeHeaderCandidates) =>
      exits_tryTime deps shaped headerNonce (shaped.times nTimeHeader member))
    (fun nTimeHeader (member : nTimeHeader ∈ ctx.nTimeHeaderCandidates) =>
      marks_tryTime deps shaped headerNonce (shaped.times nTimeHeader member))
  exact loop.comp (fun state => state.write headerNonce 108)
    (fun state (holds : HoldsFixed ctx state) => holds.write isNonce)
    (tried_write headerNonce 108)

/-- The nested loops remember a candidate that passes the verifier. -/
theorem marks_search (deps : Externals) {ctx : ShareContext} (shaped : ctx.WellShaped) :
    Marks (HoldsFixed ctx) Tried (∃ headerBuf ∈ ctx.headers, VerifiedBehind deps ctx headerBuf)
      fun state => ctx.headerNonces.foldlM (tryNonce deps ctx) state := by
  have loop := Marks.foldlM (tryNonce deps ctx)
    (fun headerNonce (member : headerNonce ∈ ctx.headerNonces) =>
      exits_tryNonce deps shaped (shaped.nonces headerNonce member))
    (fun headerNonce (member : headerNonce ∈ ctx.headerNonces) =>
      marks_tryNonce deps shaped (shaped.nonces headerNonce member))
  intro state target holds goesOn marked
  apply loop state target holds goesOn
  apply marked.imp_right
  rintro ⟨headerBuf, member, verified⟩
  obtain ⟨headerNonce, nonceMember, nTimeHeader, timeMember, bitsHeader, bitsMember, rfl⟩ :=
    mem_headers.mp member
  exact ⟨headerNonce, nonceMember, nTimeHeader, timeMember, bitsHeader, bitsMember, verified⟩

/-- Without a hit, a candidate that passes the verifier is what the search ends
with. -/
theorem validateShare_eq_lowDiff {deps : Externals} {manager : WorkManager}
    {submission : Submission} {now : Nat} {ctx : ShareContext}
    (prepared : Prepared manager submission now ctx)
    (missed : ∀ candidate ∈ ctx.candidates, ¬candidate.IsHit deps ctx) {candidate : Candidate}
    (member : candidate ∈ ctx.candidates) (verified : candidate.Verified deps) :
    validateShare deps manager submission now = .ok (.invalid "Low Diff") := by
  have ended := search_eq deps prepared.wellShaped
  have none : ctx.candidates.findSome? (Candidate.outcome deps ctx) = none :=
    List.findSome?_eq_none_iff.mpr fun candidate member =>
      outcome_eq_none_iff.mpr (missed candidate member)
  rw [none] at ended
  rcases ended with ⟨state, goesOn⟩
  obtain ⟨headerMember, solutionMember⟩ := mem_candidates.mp member
  have tried : Tried state := by
    apply marks_search deps prepared.wellShaped _ state (holdsFixed_initial ctx) goesOn
    exact Or.inr ⟨candidate.headerBuf, headerMember, candidate.solution, solutionMember, verified⟩
  rw [validateShare, prepare_eq_ok_iff.mpr prepared]
  dsimp only
  rw [goesOn]
  dsimp only
  rw [show state.bestTried.isSome = true from tried, if_pos rfl]

/-- A submission with a hit is not rejected: it is accepted, or its block cannot
be assembled. -/
theorem validateShare_ne_invalid {deps : Externals} {manager : WorkManager}
    {submission : Submission} {now : Nat} {ctx : ShareContext}
    (prepared : Prepared manager submission now ctx) {candidate : Candidate}
    (member : candidate ∈ ctx.candidates) (isHit : candidate.IsHit deps ctx) (error : String) :
    validateShare deps manager submission now ≠ .ok (.invalid error) := by
  obtain ⟨first, firstHit⟩ := exists_firstHit member isHit
  rw [validateShare_of_firstHit prepared firstHit]
  exact acceptShare_ne_invalid error

end ZcashSoloPool.WorkManager
