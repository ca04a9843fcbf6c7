import ZcashSoloPool.WorkManager.CandidateLists
import ZcashSoloPool.WorkManager.JobTable
import ZcashSoloPool.Search.Recorded

/-!
# How often the verifier is called

`validateShare` once more, with a record of its calls of the verifier.  Each
call is one of the candidates, with a header of its own in the shared buffer,
and no candidate is passed over before the search ends.  So a submission costs
no more calls than it has candidates.
-/

namespace ZcashSoloPool.WorkManager

open ZcashSoloPool.Bytes
open ZcashSoloPool.JavaScript
open ZcashSoloPool.Effects
open ZcashSoloPool.Search

/-! ## The recorded function -/

/-- The arguments of a call of the verifier. -/
structure VerifierCall where
  headerBuf : List UInt8
  solBuf : List UInt8
  deriving DecidableEq, Repr

/-- A part of the function that records its calls of the verifier. -/
abbrev Recording :=
  EStateM Halt (List VerifierCall)

namespace Recorded

/-- `this.verifier.verify(headerBuf, solBuf)`. -/
def verify (deps : Externals) (headerBuf solBuf : List UInt8) : Recording Bool := do
  modify fun calls => calls ++ [⟨headerBuf, solBuf⟩]
  pure (Equihash.verify deps.verifyFn headerBuf solBuf)

/-- The body of the innermost loop. -/
def trySolution (deps : Externals) (ctx : ShareContext) (state : SearchState)
    (solution : ParsedSolution) : Recording SearchState := do
  let verified ← verify deps state.headerBuf solution.solBuf
  if !verified then pure state
  else
    let hashBE := hashText deps (state.headerBuf ++ ofHex solution.solutionFieldHex)
    let hashBI := hexNumber hashBE
    if meetsTarget ctx hashBI then
      throw (acceptShare deps ctx state.headerBuf solution.solutionFieldHex)
    else pure { state with bestTried := betterTried state.bestTried hashBE hashBI }

/-- The body of the loop over the bits. -/
def tryBits (deps : Externals) (ctx : ShareContext) (state : SearchState) (bitsHeader : Text) :
    Recording SearchState :=
  ctx.parsedSolutions.foldlM (trySolution deps ctx) (state.write bitsHeader 104)

/-- The body of the loop over the times. -/
def tryTime (deps : Externals) (ctx : ShareContext) (state : SearchState) (nTimeHeader : Text) :
    Recording SearchState :=
  ctx.bitsHeaderCandidates.foldlM (tryBits deps ctx) (state.write nTimeHeader 100)

/-- The body of the loop over the nonces. -/
def tryNonce (deps : Externals) (ctx : ShareContext) (state : SearchState) (headerNonce : Text) :
    Recording SearchState :=
  ctx.nTimeHeaderCandidates.foldlM (tryTime deps ctx) (state.write headerNonce 108)

/-- The nested loops. -/
def search (deps : Externals) (ctx : ShareContext) : Recording SearchState :=
  ctx.headerNonces.foldlM (tryNonce deps ctx) ⟨initialHeader ctx.job, none⟩

/-- `validateShare` with its calls of the verifier. -/
def validateShare (deps : Externals) (manager : WorkManager) (submission : Submission) (now : Nat) :
    Halt × List VerifierCall :=
  match prepare manager submission now with
  | .error halt => (halt, [])
  | .ok ctx =>
      match search deps ctx [] with
      | .error halt calls => (halt, calls)
      | .ok state calls =>
          (.ok (.invalid (if state.bestTried.isSome then "Low Diff" else "Invalid solution")),
            calls)

end Recorded

/-- The calls of the verifier that `validateShare` makes, in order. -/
def verifierCalls (deps : Externals) (manager : WorkManager) (submission : Submission)
    (now : Nat) : List VerifierCall :=
  (Recorded.validateShare deps manager submission now).2

/-! ## The record of the loops -/

/-- The call that tries a candidate. -/
def Candidate.call (candidate : Candidate) : VerifierCall :=
  ⟨candidate.headerBuf, candidate.solution.solBuf⟩

/-- The calls for the header in the buffer. -/
def ShareContext.callsBehind (ctx : ShareContext) (header : List UInt8) : List VerifierCall :=
  ctx.parsedSolutions.flatMap fun solution => [⟨header, solution.solBuf⟩]

/-- The innermost body makes one call. -/
theorem notes_trySolution (deps : Externals) (ctx : ShareContext) (header : List UInt8)
    (solution : ParsedSolution) :
    Notes (HoldsHeader header) [⟨header, solution.solBuf⟩]
      (fun state => trySolution deps ctx state solution)
      fun state => Recorded.trySolution deps ctx state solution := by
  intro state record holds
  rw [show header = state.headerBuf from holds.symm]
  refine ⟨[⟨state.headerBuf, solution.solBuf⟩], List.prefix_rfl, ?_⟩
  have called : Recorded.verify deps state.headerBuf solution.solBuf record =
      .ok (Equihash.verify deps.verifyFn state.headerBuf solution.solBuf)
        (record ++ [⟨state.headerBuf, solution.solBuf⟩]) := rfl
  dsimp only [trySolution, Recorded.trySolution]
  rw [bind_ok called]
  cases Equihash.verify deps.verifyFn state.headerBuf solution.solBuf with
  | false => exact ⟨rfl, rfl⟩
  | true =>
      cases meetsTarget ctx
          (hexNumber (hashText deps (state.headerBuf ++ ofHex solution.solutionFieldHex))) with
      | true => rfl
      | false => exact ⟨rfl, rfl⟩

theorem notes_solutions (deps : Externals) (ctx : ShareContext) (header : List UInt8) :
    Notes (HoldsHeader header) (ctx.callsBehind header)
      (fun state => ctx.parsedSolutions.foldlM (trySolution deps ctx) state)
      fun state => ctx.parsedSolutions.foldlM (Recorded.trySolution deps ctx) state :=
  Notes.foldlM (trySolution deps ctx) (Recorded.trySolution deps ctx)
    (fun solution _ => exits_trySolution deps ctx header solution)
    (fun solution _ => notes_trySolution deps ctx header solution)

theorem notes_tryBits (deps : Externals) (ctx : ShareContext) (headerNonce : Text)
    {nTimeHeader : Text} (timeWord : IsWord nTimeHeader) {bitsHeader : Text}
    (bitsWord : IsWord bitsHeader) :
    Notes (HoldsTime ctx headerNonce nTimeHeader)
      (ctx.callsBehind (ctx.header headerNonce nTimeHeader bitsHeader))
      (fun state => tryBits deps ctx state bitsHeader)
      fun state => Recorded.tryBits deps ctx state bitsHeader :=
  (notes_solutions deps ctx (ctx.header headerNonce nTimeHeader bitsHeader)).comp
    (fun state => state.write bitsHeader 104)
    fun _ (holds : HoldsTime ctx headerNonce nTimeHeader _) => holds.write timeWord bitsWord

theorem notes_tryTime (deps : Externals) {ctx : ShareContext} (shaped : ctx.WellShaped)
    (headerNonce : Text) {nTimeHeader : Text} (timeWord : IsWord nTimeHeader) :
    Notes (HoldsNonce ctx headerNonce)
      (ctx.bitsHeaderCandidates.flatMap fun bitsHeader =>
        ctx.callsBehind (ctx.header headerNonce nTimeHeader bitsHeader))
      (fun state => tryTime deps ctx state nTimeHeader)
      fun state => Recorded.tryTime deps ctx state nTimeHeader := by
  have loop := Notes.foldlM (tryBits deps ctx) (Recorded.tryBits deps ctx)
    (fun bitsHeader (member : bitsHeader ∈ ctx.bitsHeaderCandidates) =>
      exits_tryBits deps ctx headerNonce timeWord (shaped.bits bitsHeader member))
    (fun bitsHeader (member : bitsHeader ∈ ctx.bitsHeaderCandidates) =>
      notes_tryBits deps ctx headerNonce timeWord (shaped.bits bitsHeader member))
  exact loop.comp (fun state => state.write nTimeHeader 100)
    fun state (holds : HoldsNonce ctx headerNonce state) => holds.write timeWord

theorem notes_tryNonce (deps : Externals) {ctx : ShareContext} (shaped : ctx.WellShaped)
    {headerNonce : Text} (isNonce : IsNonce headerNonce) :
    Notes (HoldsFixed ctx)
      (ctx.nTimeHeaderCandidates.flatMap fun nTimeHeader =>
        ctx.bitsHeaderCandidates.flatMap fun bitsHeader =>
          ctx.callsBehind (ctx.header headerNonce nTimeHeader bitsHeader))
      (fun state => tryNonce deps ctx state headerNonce)
      fun state => Recorded.tryNonce deps ctx state headerNonce := by
  have loop := Notes.foldlM (tryTime deps ctx) (Recorded.tryTime deps ctx)
    (fun nTimeHeader (member : nTimeHeader ∈ ctx.nTimeHeaderCandidates) =>
      exits_tryTime deps shaped headerNonce (shaped.times nTimeHeader member))
    (fun nTimeHeader (member : nTimeHeader ∈ ctx.nTimeHeaderCandidates) =>
      notes_tryTime deps shaped headerNonce (shaped.times nTimeHeader member))
  exact loop.comp (fun state => state.write headerNonce 108)
    fun state (holds : HoldsFixed ctx state) => holds.write isNonce

/-- The plan of the nested loops, as the flat list of candidates. -/
theorem calls_candidates (ctx : ShareContext) :
    (ctx.headerNonces.flatMap fun headerNonce =>
      ctx.nTimeHeaderCandidates.flatMap fun nTimeHeader =>
        ctx.bitsHeaderCandidates.flatMap fun bitsHeader =>
          ctx.callsBehind (ctx.header headerNonce nTimeHeader bitsHeader)) =
      ctx.candidates.map Candidate.call := by
  simp only [ShareContext.candidates, ShareContext.headers, ShareContext.callsBehind,
    ← List.map_eq_flatMap, List.map_flatMap, List.flatMap_assoc, List.flatMap_map, List.map_map]
  rfl

/-- The nested loops try the candidates in order, up to the first hit. -/
theorem notes_search (deps : Externals) {ctx : ShareContext} (shaped : ctx.WellShaped) :
    Notes (HoldsFixed ctx) (ctx.candidates.map Candidate.call)
      (fun state => ctx.headerNonces.foldlM (tryNonce deps ctx) state)
      fun state => ctx.headerNonces.foldlM (Recorded.tryNonce deps ctx) state := by
  rw [← calls_candidates]
  exact Notes.foldlM (tryNonce deps ctx) (Recorded.tryNonce deps ctx)
    (fun headerNonce member => exits_tryNonce deps shaped (shaped.nonces headerNonce member))
    (fun headerNonce member => notes_tryNonce deps shaped (shaped.nonces headerNonce member))

/-- The recorded function ends as `validateShare`.  It makes no call, or it
reached the search and its calls are the first of the candidates. -/
theorem recorded_validateShare (deps : Externals) (manager : WorkManager) (submission : Submission)
    (now : Nat) :
    (Recorded.validateShare deps manager submission now).1 =
        validateShare deps manager submission now ∧
      (verifierCalls deps manager submission now = [] ∨
        ∃ ctx, Prepared manager submission now ctx ∧
          verifierCalls deps manager submission now <+: ctx.candidates.map Candidate.call) := by
  unfold verifierCalls Recorded.validateShare validateShare
  cases checked : prepare manager submission now with
  | error halt => exact ⟨rfl, Or.inl rfl⟩
  | ok ctx =>
      have prepared := prepare_eq_ok_iff.mp checked
      obtain ⟨noted, isPrefix, ended⟩ := notes_search deps prepared.wellShaped
        ⟨initialHeader ctx.job, none⟩ [] (holdsFixed_initial ctx)
      have plain : search deps ctx =
          ctx.headerNonces.foldlM (tryNonce deps ctx) ⟨initialHeader ctx.job, none⟩ := rfl
      have recorded : Recorded.search deps ctx = ctx.headerNonces.foldlM
          (Recorded.tryNonce deps ctx) ⟨initialHeader ctx.job, none⟩ := rfl
      dsimp only at ended ⊢
      rw [← plain, ← recorded, List.nil_append] at ended
      cases outcome : search deps ctx with
      | error halt =>
          rw [outcome] at ended
          rw [ended]
          exact ⟨rfl, Or.inr ⟨ctx, prepared, isPrefix⟩⟩
      | ok state =>
          rw [outcome] at ended
          rw [ended.1]
          exact ⟨rfl, Or.inr ⟨ctx, prepared, isPrefix⟩⟩

/-! ## The bound -/

/-- The call passes a header whose bytes from 100 on are a time, bits and a
nonce of the submission's candidates, and one of its solutions. -/
def TriesCandidate (manager : WorkManager) (submission : Submission) (now : Nat)
    (call : VerifierCall) : Prop :=
  ∃ ctx, Prepared manager submission now ctx ∧
    ∃ headerNonce ∈ ctx.headerNonces, ∃ nTimeHeader ∈ ctx.nTimeHeaderCandidates,
      ∃ bitsHeader ∈ ctx.bitsHeaderCandidates, ∃ solution ∈ ctx.parsedSolutions,
        call.headerBuf = (initialHeader ctx.job).take 100 ++ ofHex nTimeHeader ++
          ofHex bitsHeader ++ ofHex headerNonce ∧ call.solBuf = solution.solBuf

/-- What a submission can cost, for a work manager with these jobs. -/
structure BoundedWork (deps : Externals) (manager : WorkManager) : Prop where
  /-- The record does not change what the function returns. -/
  result : ∀ submission now, (Recorded.validateShare deps manager submission now).1 =
    validateShare deps manager submission now
  calls : ∀ submission now, (verifierCalls deps manager submission now).length ≤ 160
  tries : ∀ submission now, ∀ call ∈ verifierCalls deps manager submission now,
    TriesCandidate manager submission now call ∧ call.headerBuf.length = 140
  nonces : ∀ nonceHex extranonce1, Distinct 10 (normalizeNonceCandidates nonceHex extranonce1)
  times : ∀ nTime id job, manager.jobs.get? id = some job →
    Distinct 4 (normalizeHeaderTimeCandidates nTime job)
  bits : ∀ bitsHex, Distinct 2 (normalizeCompactBitsCandidates bitsHex)
  solutions : ∀ solutionHex, Distinct 2 (normalizeSolutionFields solutionHex)
  nonceBytes : ∀ nonceHex extranonce1, ∀ nonce ∈ normalizeNonceCandidates nonceHex extranonce1,
    IsHexBytes nonce ∧ (ofHex nonce).length = 32
  timeBytes : ∀ nTime job, ∀ time ∈ normalizeHeaderTimeCandidates nTime job,
    IsHexBytes time ∧ (ofHex time).length = 4
  bitsBytes : ∀ bitsHex, ∀ bits ∈ normalizeCompactBitsCandidates bitsHex,
    IsHexBytes bits ∧ (ofHex bits).length = 4

/-- Where every job was issued, there are no more calls than candidates. -/
theorem length_verifierCalls_le {deps : Externals} {manager : WorkManager}
    (issued : ∀ id job, manager.jobs.get? id = some job → Issued deps job)
    (submission : Submission) (now : Nat) :
    (verifierCalls deps manager submission now).length ≤ 160 := by
  rcases (recorded_validateShare deps manager submission now).2 with none | ⟨ctx, prepared, first⟩
  · rw [none]
    exact Nat.zero_le _
  · obtain ⟨id, _, found⟩ := Option.bind_eq_some_iff.mp prepared.job
    calc (verifierCalls deps manager submission now).length
        ≤ (ctx.candidates.map Candidate.call).length := first.length_le
      _ = ctx.candidates.length := List.length_map _
      _ ≤ 160 := prepared.length_candidates_le (issued id ctx.job found)

theorem triesCandidate_of_mem {deps : Externals} {manager : WorkManager} {submission : Submission}
    {now : Nat} {call : VerifierCall} (member : call ∈ verifierCalls deps manager submission now) :
    TriesCandidate manager submission now call ∧ call.headerBuf.length = 140 := by
  rcases (recorded_validateShare deps manager submission now).2 with none | ⟨ctx, prepared, first⟩
  · rw [none] at member
    contradiction
  · obtain ⟨candidate, candidateMember, rfl⟩ := List.mem_map.mp (first.subset member)
    obtain ⟨headerMember, solutionMember⟩ := mem_candidates.mp candidateMember
    obtain ⟨headerNonce, nonceMember, nTimeHeader, timeMember, bitsHeader, bitsMember, same⟩ :=
      mem_headers.mp headerMember
    refine ⟨⟨ctx, prepared, headerNonce, nonceMember, nTimeHeader, timeMember, bitsHeader,
      bitsMember, candidate.solution, solutionMember, same.symm, rfl⟩, ?_⟩
    rw [Candidate.call, ← same]
    exact prepared.wellShaped.length_header nonceMember timeMember bitsMember

/-- In every history of the work manager, whatever is submitted. -/
theorem boundedWork_after (deps : Externals) (walletAddress poolTarget : Text)
    (calls : List ManagerCall) :
    BoundedWork deps (History.after deps walletAddress poolTarget calls).manager where
  result submission now := (recorded_validateShare deps _ submission now).1
  calls submission now := length_verifierCalls_le
    (fun _ _ found => History.issued_after deps walletAddress poolTarget calls found) submission now
  tries _ _ _ member := triesCandidate_of_mem member
  nonces := distinct_nonceCandidates
  times nTime _ _ found := distinct_timeCandidates
    (History.issued_after deps walletAddress poolTarget calls found) nTime
  bits := distinct_bitsCandidates
  solutions := distinct_solutionFields
  nonceBytes _ _ _ member := by
    have isNonce := isNonce_of_mem_candidates member
    exact ⟨⟨isNonce.lower, by rw [isNonce.length]⟩, isNonce.length_ofHex⟩
  timeBytes _ _ _ member := by
    have isWord := isWord_of_mem_timeCandidates member
    exact ⟨isWord.hex, isWord.length_ofHex⟩
  bitsBytes _ _ member := by
    have isWord := isWord_of_mem_bitsCandidates member
    exact ⟨isWord.hex, isWord.length_ofHex⟩

end ZcashSoloPool.WorkManager
