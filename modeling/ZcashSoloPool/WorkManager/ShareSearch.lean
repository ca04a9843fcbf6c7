import ZcashSoloPool.WorkManager.ValidateShare
import ZcashSoloPool.Search.FirstHit

/-!
# The candidate search as a first hit

The nested loops of `validateShare` with their shared header buffer look for
the first hit of one flat list of candidates, each with a header of its own.
What the function returns is read off that list.
-/

namespace ZcashSoloPool.WorkManager

open ZcashSoloPool.Bytes
open ZcashSoloPool.JavaScript
open ZcashSoloPool.Search

/-! ## The flat list of candidates -/

/-- The first hundred bytes of every header. -/
def ShareContext.fixed (ctx : ShareContext) : List UInt8 :=
  (initialHeader ctx.job).take 100

/-- The header of a time, bits and a nonce. -/
def ShareContext.header (ctx : ShareContext) (headerNonce nTimeHeader bitsHeader : Text) :
    List UInt8 :=
  ctx.fixed ++ ofHex nTimeHeader ++ ofHex bitsHeader ++ ofHex headerNonce

/-- The headers in the order in which they are tried. -/
def ShareContext.headers (ctx : ShareContext) : List (List UInt8) :=
  ctx.headerNonces.flatMap fun headerNonce =>
    ctx.nTimeHeaderCandidates.flatMap fun nTimeHeader =>
      ctx.bitsHeaderCandidates.map fun bitsHeader => ctx.header headerNonce nTimeHeader bitsHeader

/-- A header and a solution field to be tried with it. -/
structure Candidate where
  headerBuf : List UInt8
  solution : ParsedSolution
  deriving DecidableEq, Repr

/-- All candidates in the order in which they are tried. -/
def ShareContext.candidates (ctx : ShareContext) : List Candidate :=
  ctx.headers.flatMap fun headerBuf => ctx.parsedSolutions.map fun solution => ⟨headerBuf, solution⟩

/-- The bytes whose hash is compared with the targets. -/
def Candidate.hashed (candidate : Candidate) : List UInt8 :=
  candidate.headerBuf ++ ofHex candidate.solution.solutionFieldHex

/-- The number that is compared with the targets. -/
def Candidate.hashValue (deps : Externals) (candidate : Candidate) : Nat :=
  hexNumber (hashText deps candidate.hashed)

/-- The verifier accepts the candidate. -/
def Candidate.Verified (deps : Externals) (candidate : Candidate) : Prop :=
  Equihash.verify deps.verifyFn candidate.headerBuf candidate.solution.solBuf = true

instance (deps : Externals) (candidate : Candidate) : Decidable (candidate.Verified deps) :=
  inferInstanceAs (Decidable (_ = true))

/-- The verifier accepts the candidate and its hash meets a target. -/
structure Candidate.IsHit (deps : Externals) (ctx : ShareContext) (candidate : Candidate) :
    Prop where
  verified : candidate.Verified deps
  meets : meetsTarget ctx (candidate.hashValue deps) = true

instance (deps : Externals) (ctx : ShareContext) (candidate : Candidate) :
    Decidable (candidate.IsHit deps ctx) :=
  decidable_of_iff
    (candidate.Verified deps ∧ meetsTarget ctx (candidate.hashValue deps) = true)
    ⟨fun h => ⟨h.1, h.2⟩, fun h => ⟨h.verified, h.meets⟩⟩

/-- How the function ends on a candidate, if it does. -/
def Candidate.outcome (deps : Externals) (ctx : ShareContext) (candidate : Candidate) :
    Option Halt :=
  if candidate.IsHit deps ctx then
    some (acceptShare deps ctx candidate.headerBuf candidate.solution.solutionFieldHex)
  else none

/-- A job that `generateJob` has built. -/
def Issued (deps : Externals) (job : Job) : Prop :=
  ∃ walletAddress jobId cleanJobs reply, buildJob deps walletAddress jobId cleanJobs reply = .ok job

/-! ## The header buffer -/

/-- Copying onto a part of the same length replaces that part. -/
theorem copyInto_middle (source front old back : List UInt8) (offset : Nat)
    (start : front.length = offset) (width : source.length = old.length) :
    copyInto source (front ++ old ++ back) offset = front ++ source ++ back := by
  subst start
  have room : source.length ≤ (front ++ old ++ back).length - front.length := by
    simp only [List.length_append]
    omega
  have rest : (front ++ old ++ back).drop (front.length + source.length) = back := by
    rw [width, ← List.length_append, List.drop_left]
  rw [copyInto, List.take_of_length_le room, rest, List.append_assoc front old back,
    List.take_left]

theorem length_initialHeader (job : Job) : (initialHeader job).length = 140 := by
  simp only [initialHeader, copyInto, List.length_append, List.length_take, List.length_drop,
    List.length_replicate]
  omega

@[simp]
theorem ShareContext.length_fixed (ctx : ShareContext) : ctx.fixed.length = 100 := by
  rw [ShareContext.fixed, List.length_take, length_initialHeader]
  rfl

/-- The candidates of a context fill their places in the header. -/
structure ShareContext.WellShaped (ctx : ShareContext) : Prop where
  nonces : ∀ nonce ∈ ctx.headerNonces, IsNonce nonce
  times : ∀ time ∈ ctx.nTimeHeaderCandidates, IsWord time
  bits : ∀ bits ∈ ctx.bitsHeaderCandidates, IsWord bits

theorem IsNonce.length_ofHex {nonce : Text} (isNonce : IsNonce nonce) :
    (ofHex nonce).length = 32 := by
  rw [Bytes.length_ofHex ⟨isNonce.lower, by rw [isNonce.length]⟩, isNonce.length]

theorem IsWord.length_ofHex {word : Text} (isWord : IsWord word) : (ofHex word).length = 4 := by
  rw [Bytes.length_ofHex isWord.hex, isWord.length]

/-- Every header has the length that the verifier wants. -/
theorem ShareContext.WellShaped.length_header {ctx : ShareContext} (shaped : ctx.WellShaped)
    {headerNonce nTimeHeader bitsHeader : Text} (nonceMember : headerNonce ∈ ctx.headerNonces)
    (timeMember : nTimeHeader ∈ ctx.nTimeHeaderCandidates)
    (bitsMember : bitsHeader ∈ ctx.bitsHeaderCandidates) :
    (ctx.header headerNonce nTimeHeader bitsHeader).length = 140 := by
  simp [ShareContext.header, (shaped.nonces _ nonceMember).length_ofHex,
    (shaped.times _ timeMember).length_ofHex, (shaped.bits _ bitsMember).length_ofHex]

/-- The buffer holds the fixed bytes, some time, some bits and some nonce. -/
def HoldsFixed (ctx : ShareContext) (state : SearchState) : Prop :=
  ∃ time bits nonce : List UInt8, time.length = 4 ∧ bits.length = 4 ∧ nonce.length = 32 ∧
    state.headerBuf = ctx.fixed ++ time ++ bits ++ nonce

/-- The buffer holds this nonce. -/
def HoldsNonce (ctx : ShareContext) (headerNonce : Text) (state : SearchState) : Prop :=
  ∃ time bits : List UInt8, time.length = 4 ∧ bits.length = 4 ∧
    state.headerBuf = ctx.fixed ++ time ++ bits ++ ofHex headerNonce

/-- The buffer holds this nonce and this time. -/
def HoldsTime (ctx : ShareContext) (headerNonce nTimeHeader : Text) (state : SearchState) : Prop :=
  ∃ bits : List UInt8, bits.length = 4 ∧
    state.headerBuf = ctx.fixed ++ ofHex nTimeHeader ++ bits ++ ofHex headerNonce

/-- The buffer is this header. -/
def HoldsHeader (header : List UInt8) (state : SearchState) : Prop :=
  state.headerBuf = header

theorem holdsFixed_initial (ctx : ShareContext) :
    HoldsFixed ctx ⟨initialHeader ctx.job, none⟩ := by
  have length := length_initialHeader ctx.job
  refine ⟨((initialHeader ctx.job).drop 100).take 4, ((initialHeader ctx.job).drop 104).take 4,
    (initialHeader ctx.job).drop 108, by simp [length], by simp [length], by simp [length], ?_⟩
  change initialHeader ctx.job = _
  rw [ShareContext.fixed, ← List.take_add, ← List.take_add, List.take_append_drop]

theorem HoldsFixed.write {ctx : ShareContext} {state : SearchState} (holds : HoldsFixed ctx state)
    {headerNonce : Text} (isNonce : IsNonce headerNonce) :
    HoldsNonce ctx headerNonce (state.write headerNonce 108) := by
  rcases holds with ⟨time, bits, nonce, timeLength, bitsLength, nonceLength, buffer⟩
  refine ⟨time, bits, timeLength, bitsLength, ?_⟩
  have written := copyInto_middle (ofHex headerNonce) (ctx.fixed ++ time ++ bits) nonce [] 108
    (by simp [timeLength, bitsLength]) (by rw [isNonce.length_ofHex, nonceLength])
  simpa [SearchState.write, buffer] using written

theorem HoldsNonce.write {ctx : ShareContext} {headerNonce : Text} {state : SearchState}
    (holds : HoldsNonce ctx headerNonce state) {nTimeHeader : Text} (isWord : IsWord nTimeHeader) :
    HoldsTime ctx headerNonce nTimeHeader (state.write nTimeHeader 100) := by
  rcases holds with ⟨time, bits, timeLength, bitsLength, buffer⟩
  refine ⟨bits, bitsLength, ?_⟩
  have written := copyInto_middle (ofHex nTimeHeader) ctx.fixed time
    (bits ++ ofHex headerNonce) 100 (by simp) (by rw [isWord.length_ofHex, timeLength])
  simpa [SearchState.write, buffer] using written

theorem HoldsTime.write {ctx : ShareContext} {headerNonce nTimeHeader : Text} {state : SearchState}
    (holds : HoldsTime ctx headerNonce nTimeHeader state) (timeWord : IsWord nTimeHeader)
    {bitsHeader : Text} (isWord : IsWord bitsHeader) :
    HoldsHeader (ctx.header headerNonce nTimeHeader bitsHeader) (state.write bitsHeader 104) := by
  rcases holds with ⟨bits, bitsLength, buffer⟩
  have written := copyInto_middle (ofHex bitsHeader) (ctx.fixed ++ ofHex nTimeHeader) bits
    (ofHex headerNonce) 104 (by simp [timeWord.length_ofHex])
    (by rw [isWord.length_ofHex, bitsLength])
  simpa [HoldsHeader, ShareContext.header, SearchState.write, buffer] using written

theorem HoldsHeader.holdsTime {ctx : ShareContext} {headerNonce nTimeHeader bitsHeader : Text}
    (isWord : IsWord bitsHeader) {state : SearchState}
    (holds : HoldsHeader (ctx.header headerNonce nTimeHeader bitsHeader) state) :
    HoldsTime ctx headerNonce nTimeHeader state :=
  ⟨ofHex bitsHeader, isWord.length_ofHex, holds⟩

theorem HoldsTime.holdsNonce {ctx : ShareContext} {headerNonce nTimeHeader : Text}
    (isWord : IsWord nTimeHeader) {state : SearchState}
    (holds : HoldsTime ctx headerNonce nTimeHeader state) : HoldsNonce ctx headerNonce state := by
  rcases holds with ⟨bits, bitsLength, buffer⟩
  exact ⟨ofHex nTimeHeader, bits, isWord.length_ofHex, bitsLength, buffer⟩

theorem HoldsNonce.holdsFixed {ctx : ShareContext} {headerNonce : Text}
    (isNonce : IsNonce headerNonce) {state : SearchState}
    (holds : HoldsNonce ctx headerNonce state) : HoldsFixed ctx state := by
  rcases holds with ⟨time, bits, timeLength, bitsLength, buffer⟩
  exact ⟨time, bits, ofHex headerNonce, timeLength, bitsLength, isNonce.length_ofHex, buffer⟩

/-! ## The loops -/

/-- The innermost body leaves exactly on a hit of the header in the buffer. -/
theorem exits_trySolution (deps : Externals) (ctx : ShareContext) (header : List UInt8)
    (solution : ParsedSolution) :
    Exits (HoldsHeader header) (HoldsHeader header) (Candidate.outcome deps ctx ⟨header, solution⟩)
      fun state => trySolution deps ctx state solution := by
  unfold Candidate.outcome
  split
  · next isHit =>
      refine Exits.leaves fun state holds => ?_
      have verified : Equihash.verify deps.verifyFn state.headerBuf solution.solBuf = true := by
        rw [show state.headerBuf = header from holds]
        exact isHit.verified
      have meets : meetsTarget ctx (hexNumber (hashText deps
          (state.headerBuf ++ ofHex solution.solutionFieldHex))) = true := by
        rw [show state.headerBuf = header from holds]
        exact isHit.meets
      simp only [trySolution, verified, Bool.not_true, Bool.false_eq_true, if_false, meets, if_true]
      rw [show state.headerBuf = header from holds]
  · next noHit =>
      refine Exits.continues fun state holds => ?_
      have buffer : state.headerBuf = header := holds
      unfold trySolution
      rw [buffer]
      split
      · exact ⟨state, rfl, holds⟩
      · next accepted =>
          have verified : Candidate.Verified deps ⟨header, solution⟩ := by
            simpa [Candidate.Verified] using accepted
          dsimp only
          split
          · next meets => exact absurd ⟨verified, meets⟩ noHit
          · exact ⟨_, rfl, rfl⟩

/-- The loop over the solutions leaves at the first hit of its header. -/
theorem exits_solutions (deps : Externals) (ctx : ShareContext) (header : List UInt8) :
    Exits (HoldsHeader header) (HoldsHeader header)
      (ctx.parsedSolutions.findSome? fun solution => Candidate.outcome deps ctx ⟨header, solution⟩)
      fun state => ctx.parsedSolutions.foldlM (trySolution deps ctx) state :=
  Exits.foldlM (trySolution deps ctx) fun solution _ => exits_trySolution deps ctx header solution

theorem exits_tryBits (deps : Externals) (ctx : ShareContext) (headerNonce : Text)
    {nTimeHeader : Text} (timeWord : IsWord nTimeHeader) {bitsHeader : Text}
    (bitsWord : IsWord bitsHeader) :
    Exits (HoldsTime ctx headerNonce nTimeHeader) (HoldsTime ctx headerNonce nTimeHeader)
      (ctx.parsedSolutions.findSome? fun solution =>
        Candidate.outcome deps ctx ⟨ctx.header headerNonce nTimeHeader bitsHeader, solution⟩)
      fun state => tryBits deps ctx state bitsHeader := by
  have loop := exits_solutions deps ctx (ctx.header headerNonce nTimeHeader bitsHeader)
  have weaker := loop.mono (fun _ holds => holds) (fun _ holds => holds.holdsTime bitsWord)
  exact weaker.comp (fun state => state.write bitsHeader 104)
    fun state (holds : HoldsTime ctx headerNonce nTimeHeader state) => holds.write timeWord bitsWord

theorem exits_tryTime (deps : Externals) {ctx : ShareContext} (shaped : ctx.WellShaped)
    (headerNonce : Text) {nTimeHeader : Text} (timeWord : IsWord nTimeHeader) :
    Exits (HoldsNonce ctx headerNonce) (HoldsNonce ctx headerNonce)
      (ctx.bitsHeaderCandidates.findSome? fun bitsHeader => ctx.parsedSolutions.findSome?
        fun solution =>
          Candidate.outcome deps ctx ⟨ctx.header headerNonce nTimeHeader bitsHeader, solution⟩)
      fun state => tryTime deps ctx state nTimeHeader := by
  have loop := Exits.foldlM (tryBits deps ctx)
    fun bitsHeader (member : bitsHeader ∈ ctx.bitsHeaderCandidates) =>
      exits_tryBits deps ctx headerNonce timeWord (shaped.bits bitsHeader member)
  have weaker := loop.mono (fun _ holds => holds) (fun _ holds => holds.holdsNonce timeWord)
  exact weaker.comp (fun state => state.write nTimeHeader 100)
    fun state (holds : HoldsNonce ctx headerNonce state) => holds.write timeWord

theorem exits_tryNonce (deps : Externals) {ctx : ShareContext} (shaped : ctx.WellShaped)
    {headerNonce : Text} (isNonce : IsNonce headerNonce) :
    Exits (HoldsFixed ctx) (HoldsFixed ctx)
      (ctx.nTimeHeaderCandidates.findSome? fun nTimeHeader =>
        ctx.bitsHeaderCandidates.findSome? fun bitsHeader => ctx.parsedSolutions.findSome?
          fun solution =>
            Candidate.outcome deps ctx ⟨ctx.header headerNonce nTimeHeader bitsHeader, solution⟩)
      fun state => tryNonce deps ctx state headerNonce := by
  have loop := Exits.foldlM (tryTime deps ctx)
    fun nTimeHeader (member : nTimeHeader ∈ ctx.nTimeHeaderCandidates) =>
      exits_tryTime deps shaped headerNonce (shaped.times nTimeHeader member)
  have weaker := loop.mono (fun _ holds => holds) (fun _ holds => holds.holdsFixed isNonce)
  exact weaker.comp (fun state => state.write headerNonce 108)
    fun state (holds : HoldsFixed ctx state) => holds.write isNonce

/-- The first hit of the flat list is found loop by loop. -/
theorem findSome?_candidates (ctx : ShareContext) (outcome : Candidate → Option Halt) :
    ctx.candidates.findSome? outcome =
      ctx.headerNonces.findSome? fun headerNonce =>
        ctx.nTimeHeaderCandidates.findSome? fun nTimeHeader =>
          ctx.bitsHeaderCandidates.findSome? fun bitsHeader => ctx.parsedSolutions.findSome?
            fun solution => outcome ⟨ctx.header headerNonce nTimeHeader bitsHeader, solution⟩ := by
  simp only [ShareContext.candidates, ShareContext.headers, findSome?_flatMap, List.findSome?_map,
    Function.comp_def]

/-- The search leaves at the first hit of the flat list. -/
theorem exits_search (deps : Externals) {ctx : ShareContext} (shaped : ctx.WellShaped) :
    Exits (HoldsFixed ctx) (HoldsFixed ctx) (ctx.candidates.findSome? (Candidate.outcome deps ctx))
      fun state => ctx.headerNonces.foldlM (tryNonce deps ctx) state := by
  rw [findSome?_candidates]
  exact Exits.foldlM (tryNonce deps ctx) fun headerNonce member =>
    exits_tryNonce deps shaped (shaped.nonces headerNonce member)

/-- The nested loops end as the first hit of the flat list says. -/
theorem search_eq (deps : Externals) {ctx : ShareContext} (shaped : ctx.WellShaped) :
    match ctx.candidates.findSome? (Candidate.outcome deps ctx) with
    | some halt => search deps ctx = .error halt
    | none => ∃ state, search deps ctx = .ok state := by
  have exits := exits_search deps shaped ⟨initialHeader ctx.job, none⟩ (holdsFixed_initial ctx)
  unfold search
  cases outcome : ctx.candidates.findSome? (Candidate.outcome deps ctx) with
  | some halt =>
      rw [outcome] at exits
      exact exits
  | none =>
      rw [outcome] at exits
      rcases exits with ⟨state, goesOn, _⟩
      exact ⟨state, goesOn⟩

/-! ## The checks -/

theorem orReject_eq_ok {α : Type} {error : String} {value? : Option α} {value : α} :
    orReject error value? = .ok value ↔ value? = some value := by
  cases value? <;> simp [orReject]

theorem parseBigInt_eq_ok {text : Text} {value : Nat} :
    parseBigInt text = .ok value ↔ bigIntOfHex text = some value := by
  unfold parseBigInt
  cases bigIntOfHex text <;> simp

theorem orReject_eq_error {α : Type} {error : String} {value? : Option α} {halt : Halt} :
    orReject error value? = .error halt ↔ value? = none ∧ halt = .ok (.invalid error) := by
  cases value? <;> simp [orReject, eq_comm]

theorem parseBigInt_eq_error {text : Text} {halt : Halt} (ended : parseBigInt text = .error halt) :
    ∃ message, halt = .error message := by
  unfold parseBigInt at ended
  split at ended
  · contradiction
  · cases ended
    exact ⟨_, rfl⟩

/-- What holds of a context that reached the search. -/
structure Prepared (manager : WorkManager) (submission : Submission) (now : Nat)
    (ctx : ShareContext) : Prop where
  job : submission.jobId.bind manager.jobs.get? = some ctx.job
  current : isStale manager ctx.job = false
  nTime : ∃ nTimeBE, normalizeNTime submission.nTime = some nTimeBE ∧
    ctx.nTimeHeaderCandidates = normalizeHeaderTimeCandidates nTimeBE ctx.job
  nonce : ∃ nonceHex, normalizeHexField (.ofText? submission.nonce) true 128 = some nonceHex ∧
    ctx.headerNonces = normalizeNonceCandidates nonceHex (.string submission.client.extranonce1)
  bits : ctx.bitsHeaderCandidates = normalizeCompactBitsCandidates ctx.job.nbits
  solution : ∃ solutionHex,
    normalizeHexField (.ofText? submission.solution) false 60000 = some solutionHex ∧
      ctx.parsedSolutions = parseSolutions (normalizeSolutionFields solutionHex)
  netTarget : bigIntOfHex ctx.job.target.toText = some ctx.netTargetBI
  poolTarget : bigIntOfHex (clientTargetHex manager submission.client) = some ctx.poolTargetBI
  graceTarget : ctx.graceTargetBI = graceTarget submission.client ctx.poolTargetBI now
  someNonce : ctx.headerNonces ≠ []
  someTime : ctx.nTimeHeaderCandidates ≠ []
  someBits : ctx.bitsHeaderCandidates ≠ []
  someSolution : ctx.parsedSolutions ≠ []

/-- The search is reached exactly when every check passes. -/
theorem prepare_eq_ok_iff {manager : WorkManager} {submission : Submission} {now : Nat}
    {ctx : ShareContext} :
    prepare manager submission now = .ok ctx ↔ Prepared manager submission now ctx := by
  constructor
  · intro prepared
    unfold prepare at prepared
    rcases bind_eq_ok.mp prepared with ⟨job, jobEq, checked⟩
    split at checked
    · contradiction
    · next fresh =>
        rcases bind_eq_ok.mp checked with ⟨nTimeBE, nTimeEq, checked⟩
        rcases bind_eq_ok.mp checked with ⟨nonceHex, nonceEq, checked⟩
        rcases bind_eq_ok.mp checked with ⟨solutionHex, solutionEq, checked⟩
        dsimp only at checked
        split at checked
        · contradiction
        · next layout =>
            rcases bind_eq_ok.mp checked with ⟨netTargetBI, netTargetEq, checked⟩
            rcases bind_eq_ok.mp checked with ⟨poolTargetBI, poolTargetEq, checked⟩
            split at checked
            · contradiction
            · next parsed =>
                cases checked
                simp only [Bool.or_eq_true, List.isEmpty_iff, not_or] at layout parsed
                exact {
                  job := orReject_eq_ok.mp jobEq
                  current := by simpa using fresh
                  nTime := ⟨nTimeBE, orReject_eq_ok.mp nTimeEq, rfl⟩
                  nonce := ⟨nonceHex, orReject_eq_ok.mp nonceEq, rfl⟩
                  bits := rfl
                  solution := ⟨solutionHex, orReject_eq_ok.mp solutionEq, rfl⟩
                  netTarget := parseBigInt_eq_ok.mp netTargetEq
                  poolTarget := parseBigInt_eq_ok.mp poolTargetEq
                  graceTarget := rfl
                  someNonce := layout.1.1.1
                  someTime := layout.1.1.2
                  someBits := layout.1.2
                  someSolution := parsed }
  · intro prepared
    rcases prepared.nTime with ⟨nTimeBE, nTimeEq, times⟩
    rcases prepared.nonce with ⟨nonceHex, nonceEq, nonces⟩
    rcases prepared.solution with ⟨solutionHex, solutionEq, solutions⟩
    have someField : normalizeSolutionFields solutionHex ≠ [] := by
      intro none
      exact prepared.someSolution (by rw [solutions, none]; rfl)
    have layout : ((normalizeNonceCandidates nonceHex
        (.string submission.client.extranonce1)).isEmpty ||
        (normalizeHeaderTimeCandidates nTimeBE ctx.job).isEmpty ||
        (normalizeCompactBitsCandidates ctx.job.nbits).isEmpty ||
        (normalizeSolutionFields solutionHex).isEmpty) = false := by
      rw [← nonces, ← times, ← prepared.bits]
      simp [prepared.someNonce, prepared.someTime, prepared.someBits, someField]
    have parsed : (parseSolutions (normalizeSolutionFields solutionHex)).isEmpty = false := by
      rw [← solutions]
      simp [prepared.someSolution]
    refine bind_eq_ok.mpr ⟨ctx.job, orReject_eq_ok.mpr prepared.job, ?_⟩
    rw [prepared.current]
    refine bind_eq_ok.mpr ⟨nTimeBE, orReject_eq_ok.mpr nTimeEq, ?_⟩
    refine bind_eq_ok.mpr ⟨nonceHex, orReject_eq_ok.mpr nonceEq, ?_⟩
    refine bind_eq_ok.mpr ⟨solutionHex, orReject_eq_ok.mpr solutionEq, ?_⟩
    dsimp only
    rw [layout]
    refine bind_eq_ok.mpr ⟨ctx.netTargetBI, parseBigInt_eq_ok.mpr prepared.netTarget, ?_⟩
    refine bind_eq_ok.mpr ⟨ctx.poolTargetBI, parseBigInt_eq_ok.mpr prepared.poolTarget, ?_⟩
    rw [parsed, ← times, ← nonces, ← prepared.bits, ← solutions, ← prepared.graceTarget]
    rfl

/-- The candidates of a context that reached the search fill their places. -/
theorem Prepared.wellShaped {manager : WorkManager} {submission : Submission} {now : Nat}
    {ctx : ShareContext} (prepared : Prepared manager submission now ctx) : ctx.WellShaped where
  nonces := by
    rcases prepared.nonce with ⟨_, _, nonces⟩
    rw [nonces]
    exact fun nonce member => isNonce_of_mem_candidates member
  times := by
    rcases prepared.nTime with ⟨_, _, times⟩
    rw [times]
    exact fun time member => isWord_of_mem_timeCandidates member
  bits := by
    rw [prepared.bits]
    exact fun bits member => isWord_of_mem_bitsCandidates member

/-- A step that does not end the function with an accepted share. -/
def Refuses {α : Type} (step : Except Halt α) : Prop :=
  ∀ share, step ≠ .error (.ok (.valid share))

/-- How the checks end the function: with a rejection, for what they found, or
with the error of a conversion. -/
inductive Refusal (manager : WorkManager) (submission : Submission) : Halt → Prop where
  | expired (unknown : submission.jobId.bind manager.jobs.get? = none) :
      Refusal manager submission (.ok (.invalid "Job Expired"))
  | stale {job : Job} (found : submission.jobId.bind manager.jobs.get? = some job)
      (old : isStale manager job = true) :
      Refusal manager submission (.ok (.invalid "Stale Job"))
  | nTime (unread : normalizeNTime submission.nTime = none) :
      Refusal manager submission (.ok (.invalid "Invalid nTime size"))
  | nonce {job : Job} {nTimeBE : Text}
      (found : submission.jobId.bind manager.jobs.get? = some job)
      (fresh : isStale manager job = false)
      (timed : normalizeNTime submission.nTime = some nTimeBE)
      (unread : normalizeHexField (.ofText? submission.nonce) true 128 = none) :
      Refusal manager submission (.ok (.invalid "Nonce is not valid hex"))
  | solution {job : Job} {nTimeBE : Text}
      (found : submission.jobId.bind manager.jobs.get? = some job)
      (fresh : isStale manager job = false)
      (timed : normalizeNTime submission.nTime = some nTimeBE)
      (unread : normalizeHexField (.ofText? submission.solution) false 60000 = none) :
      Refusal manager submission (.ok (.invalid "Solution is not valid hex"))
  | layout : Refusal manager submission (.ok (.invalid "Invalid nonce/solution layout"))
  | undecoded : Refusal manager submission (.ok (.invalid "Invalid solution"))
  | threw (message : String) : Refusal manager submission (.error message)

/-- The checks in their order. -/
theorem refusal_of_prepare {manager : WorkManager} {submission : Submission} {now : Nat}
    {halt : Halt} (ended : prepare manager submission now = .error halt) :
    Refusal manager submission halt := by
  unfold prepare at ended
  rcases bind_eq_error.mp ended with unknown | ⟨job, jobEq, ended⟩
  · obtain ⟨none, rfl⟩ := orReject_eq_error.mp unknown
    exact .expired none
  have found := orReject_eq_ok.mp jobEq
  split at ended
  · next old =>
      cases ended
      exact .stale found old
  next notOld =>
  have fresh := Bool.eq_false_iff.mpr notOld
  rcases bind_eq_error.mp ended with untimed | ⟨nTimeBE, timeEq, ended⟩
  · obtain ⟨none, rfl⟩ := orReject_eq_error.mp untimed
    exact .nTime none
  have timed := orReject_eq_ok.mp timeEq
  rcases bind_eq_error.mp ended with noNonce | ⟨nonceHex, _, ended⟩
  · obtain ⟨none, rfl⟩ := orReject_eq_error.mp noNonce
    exact .nonce found fresh timed none
  rcases bind_eq_error.mp ended with noSolution | ⟨solutionHex, _, ended⟩
  · obtain ⟨none, rfl⟩ := orReject_eq_error.mp noSolution
    exact .solution found fresh timed none
  dsimp only at ended
  split at ended
  · cases ended
    exact .layout
  rcases bind_eq_error.mp ended with noTarget | ⟨netTargetBI, _, ended⟩
  · obtain ⟨message, rfl⟩ := parseBigInt_eq_error noTarget
    exact .threw message
  rcases bind_eq_error.mp ended with noTarget | ⟨poolTargetBI, _, ended⟩
  · obtain ⟨message, rfl⟩ := parseBigInt_eq_error noTarget
    exact .threw message
  split at ended
  · cases ended
    exact .undecoded
  · cases ended

/-- A check that fails throws or rejects. -/
theorem refuses_prepare (manager : WorkManager) (submission : Submission) (now : Nat) :
    Refuses (prepare manager submission now) := by
  intro share ended
  cases refusal_of_prepare ended

/-- A candidate is one of the headers with one of the parsed solutions. -/
theorem mem_candidates {ctx : ShareContext} {candidate : Candidate} :
    candidate ∈ ctx.candidates ↔
      candidate.headerBuf ∈ ctx.headers ∧ candidate.solution ∈ ctx.parsedSolutions := by
  simp only [ShareContext.candidates, List.mem_flatMap, List.mem_map]
  constructor
  · rintro ⟨headerBuf, headerMember, solution, solutionMember, rfl⟩
    exact ⟨headerMember, solutionMember⟩
  · rintro ⟨headerMember, solutionMember⟩
    exact ⟨_, headerMember, _, solutionMember, rfl⟩

theorem mem_headers {ctx : ShareContext} {headerBuf : List UInt8} :
    headerBuf ∈ ctx.headers ↔ ∃ headerNonce ∈ ctx.headerNonces,
      ∃ nTimeHeader ∈ ctx.nTimeHeaderCandidates, ∃ bitsHeader ∈ ctx.bitsHeaderCandidates,
        ctx.header headerNonce nTimeHeader bitsHeader = headerBuf := by
  simp only [ShareContext.headers, List.mem_flatMap, List.mem_map]

/-- The solution field of a candidate spells a length and the bytes that are
verified. -/
theorem Prepared.exists_field {manager : WorkManager} {submission : Submission} {now : Nat}
    {ctx : ShareContext} (prepared : Prepared manager submission now ctx) {candidate : Candidate}
    (member : candidate ∈ ctx.candidates) :
    ∃ field, candidate.solution.solutionFieldHex = toHex field ∧
      readDelimited field = some candidate.solution.solBuf := by
  rcases prepared.solution with ⟨solutionHex, normalized, solutions⟩
  have solutionMember := (mem_candidates.mp member).2
  obtain ⟨bytes, rfl⟩ := exists_toHex_eq (normalizeHexField_eq_some normalized).1
  rw [solutions] at solutionMember
  obtain ⟨field, fieldEq, _, read⟩ := exists_of_mem_parseSolutions (fun text textMember => by
    obtain ⟨form, _, rfl⟩ := mem_normalizeSolutionFields.mp textMember
    exact isHexBytes_toHex form) solutionMember
  exact ⟨field, fieldEq, read⟩

/-! ## The result -/

/-- The first candidate on which the function ends. -/
structure ShareContext.FirstHit (deps : Externals) (ctx : ShareContext) (candidate : Candidate) :
    Prop where
  isHit : candidate.IsHit deps ctx
  first : ∃ before after, ctx.candidates = before ++ candidate :: after ∧
    ∀ earlier ∈ before, ¬earlier.IsHit deps ctx

theorem outcome_eq_none_iff {deps : Externals} {ctx : ShareContext} {candidate : Candidate} :
    candidate.outcome deps ctx = none ↔ ¬candidate.IsHit deps ctx := by
  simp [Candidate.outcome]

theorem findSome?_outcome_eq_some_iff {deps : Externals} {ctx : ShareContext} {halt : Halt} :
    ctx.candidates.findSome? (Candidate.outcome deps ctx) = some halt ↔
      ∃ candidate, ctx.FirstHit deps candidate ∧
        halt = acceptShare deps ctx candidate.headerBuf candidate.solution.solutionFieldHex := by
  rw [List.findSome?_eq_some_iff]
  constructor
  · rintro ⟨before, candidate, after, split, outcome, misses⟩
    by_cases isHit : candidate.IsHit deps ctx
    · rw [Candidate.outcome, if_pos isHit] at outcome
      exact ⟨candidate, ⟨isHit, before, after, split, fun earlier member =>
        outcome_eq_none_iff.mp (misses earlier member)⟩, (Option.some.inj outcome).symm⟩
    · rw [outcome_eq_none_iff.mpr isHit] at outcome
      contradiction
  · rintro ⟨candidate, ⟨isHit, before, after, split, misses⟩, rfl⟩
    exact ⟨before, candidate, after, split, by rw [Candidate.outcome, if_pos isHit],
      fun earlier member => outcome_eq_none_iff.mpr (misses earlier member)⟩

/-- Where there is a hit there is a first one. -/
theorem exists_firstHit {deps : Externals} {ctx : ShareContext} {candidate : Candidate}
    (member : candidate ∈ ctx.candidates) (isHit : candidate.IsHit deps ctx) :
    ∃ first, ctx.FirstHit deps first := by
  cases found : ctx.candidates.findSome? (Candidate.outcome deps ctx) with
  | none =>
      have missed := List.findSome?_eq_none_iff.mp found candidate member
      exact absurd isHit (outcome_eq_none_iff.mp missed)
  | some halt =>
      rcases findSome?_outcome_eq_some_iff.mp found with ⟨first, firstHit, _⟩
      exact ⟨first, firstHit⟩

theorem ShareContext.FirstHit.mem {deps : Externals} {ctx : ShareContext} {candidate : Candidate}
    (firstHit : ctx.FirstHit deps candidate) : candidate ∈ ctx.candidates := by
  rcases firstHit.first with ⟨before, after, split, _⟩
  rw [split]
  simp

/-- There is at most one first hit. -/
theorem ShareContext.FirstHit.unique {deps : Externals} {ctx : ShareContext}
    {candidate other : Candidate} (firstHit : ctx.FirstHit deps candidate)
    (otherHit : ctx.FirstHit deps other) : candidate = other := by
  rcases firstHit.first with ⟨before, after, split, misses⟩
  rcases otherHit.first with ⟨before', after', split', misses'⟩
  rcases Search.eq_or_mem_of_append_cons_eq (split.symm.trans split') with same | early | early
  · exact same
  · exact absurd firstHit.isHit (misses' candidate early)
  · exact absurd otherHit.isHit (misses other early)

/-- After the checks the function ends on the first hit. -/
theorem validateShare_of_firstHit {deps : Externals} {manager : WorkManager}
    {submission : Submission} {now : Nat} {ctx : ShareContext}
    (prepared : Prepared manager submission now ctx) {candidate : Candidate}
    (firstHit : ctx.FirstHit deps candidate) :
    validateShare deps manager submission now =
      acceptShare deps ctx candidate.headerBuf candidate.solution.solutionFieldHex := by
  have found := findSome?_outcome_eq_some_iff.mpr ⟨candidate, firstHit, rfl⟩
  have ended := search_eq deps prepared.wellShaped
  rw [found] at ended
  rw [validateShare, prepare_eq_ok_iff.mpr prepared]
  simp only [ended]

/-- A candidate that meets a target is no reason to reject. -/
theorem acceptShare_ne_invalid {deps : Externals} {ctx : ShareContext} {headerBuf : List UInt8}
    {solutionFieldHex : Text} (error : String) :
    acceptShare deps ctx headerBuf solutionFieldHex ≠ .ok (.invalid error) := by
  intro rejected
  rcases bind_eq_ok.mp rejected with ⟨blockHex, _, result⟩
  cases result

/-- The function ends in a check, on the first hit, or with a rejection after the
last candidate. -/
theorem validateShare_cases (deps : Externals) (manager : WorkManager) (submission : Submission)
    (now : Nat) :
    prepare manager submission now = .error (validateShare deps manager submission now) ∨
      ∃ ctx, Prepared manager submission now ctx ∧
        ((∃ candidate, ctx.FirstHit deps candidate ∧
            validateShare deps manager submission now =
              acceptShare deps ctx candidate.headerBuf candidate.solution.solutionFieldHex) ∨
          ∃ error ∈ ["Low Diff", "Invalid solution"],
            validateShare deps manager submission now = .ok (.invalid error)) := by
  cases ready : prepare manager submission now with
  | error halt => exact Or.inl (by rw [validateShare, ready])
  | ok ctx =>
      have prepared := prepare_eq_ok_iff.mp ready
      have ended := search_eq deps prepared.wellShaped
      refine Or.inr ⟨ctx, prepared, ?_⟩
      cases found : ctx.candidates.findSome? (Candidate.outcome deps ctx) with
      | some halt =>
          obtain ⟨candidate, firstHit, _⟩ := findSome?_outcome_eq_some_iff.mp found
          exact Or.inl ⟨candidate, firstHit, validateShare_of_firstHit prepared firstHit⟩
      | none =>
          rw [found] at ended
          obtain ⟨state, goesOn⟩ := ended
          refine Or.inr ⟨if state.bestTried.isSome then "Low Diff" else "Invalid solution", ?_, ?_⟩
          · split <;> simp
          · rw [validateShare, ready]
            dsimp only
            rw [goesOn]

/-- A share is accepted exactly when the checks pass and the first hit is
accepted. -/
theorem validateShare_eq_valid_iff {deps : Externals} {manager : WorkManager}
    {submission : Submission} {now : Nat} {share : AcceptedShare} :
    validateShare deps manager submission now = .ok (.valid share) ↔
      ∃ ctx, Prepared manager submission now ctx ∧ ∃ candidate, ctx.FirstHit deps candidate ∧
        acceptShare deps ctx candidate.headerBuf candidate.solution.solutionFieldHex =
          .ok (.valid share) := by
  constructor
  · intro accepted
    rcases validateShare_cases deps manager submission now with
      refused | ⟨ctx, prepared, ⟨candidate, firstHit, ended⟩ | ⟨error, _, ended⟩⟩
    · rw [accepted] at refused
      exact absurd refused (refuses_prepare manager submission now share)
    · exact ⟨ctx, prepared, candidate, firstHit, ended.symm.trans accepted⟩
    · cases ended.symm.trans accepted
  · rintro ⟨ctx, prepared, candidate, firstHit, accepted⟩
    rw [validateShare_of_firstHit prepared firstHit, accepted]

/-- The transactions of a job are all there. -/
theorem Issued.exists_txs {deps : Externals} {job : Job} (issued : Issued deps job) :
    ∃ txs : List TemplateTx, job.template.txs = .ok (txs.map some) ∧ txs.length < 2 ^ 32 ∧
      ∀ tx ∈ txs, isHash64 tx.hashText = true := by
  rcases issued with ⟨_, _, _, _, built⟩
  obtain ⟨template, _, listed, _, _, _, _, _, txsEq, merkle, _, _, rfl⟩ := buildJob_eq_ok.mp built
  rcases calculateFullMerkleRoot_eq_ok.mp merkle with ⟨_, _, txHashes, txHashesEq, _⟩
  have present : ∀ t ∈ listed, ∃ tx, t = some tx ∧ isHash64 tx.hashText = true := fun t member =>
    txLeaf_isOk_iff.mp (mapM_isOk_iff.mp ⟨txHashes, txHashesEq⟩ t member)
  have all : listed = (listed.filterMap id).map some := by
    clear txsEq merkle txHashesEq
    induction listed with
    | nil => rfl
    | cons t rest ih =>
        obtain ⟨tx, rfl, _⟩ := present t List.mem_cons_self
        rw [List.filterMap_cons_some (by rfl), List.map_cons,
          ← ih fun other member => present other (List.mem_cons_of_mem _ member)]
  refine ⟨listed.filterMap id, ?_, ?_, fun tx member => ?_⟩
  · rw [← all]
    exact txsEq
  · have count : (listed.filterMap id).length = listed.length := by
      conv_rhs => rw [all]
      simp
    rw [count]
    unfold BlockTemplate.txs at txsEq
    split at txsEq
    · next transactions _ =>
        cases txsEq
        exact transactions.short
    · contradiction
  · rcases List.mem_filterMap.mp member with ⟨t, tMember, same⟩
    obtain ⟨tx', rfl, hash⟩ := present t tMember
    cases same
    exact hash

theorem mapM_txData (txs : List TemplateTx) :
    (txs.map some).mapM txData = .ok (txs.map fun t => t.data.joinText) := by
  induction txs with
  | nil => rfl
  | cons tx rest ih =>
      rw [List.map_cons, List.mapM_cons, ih]
      rfl

/-- The block text of an issued job. -/
theorem assemble_eq {job : Job} {txs : List TemplateTx}
    (txsEq : job.template.txs = .ok (txs.map some)) (powHeaderHex solutionFieldHex : Text) :
    assemble job powHeaderHex solutionFieldHex =
      .ok (powHeaderHex ++ solutionFieldHex ++ compactSizeHex (1 + txs.length) ++ job.coinbaseTx ++
        (txs.map fun t => t.data.joinText).flatten) := by
  refine bind_eq_ok.mpr ⟨_, txsEq, bind_eq_ok.mpr ⟨_, mapM_txData txs, ?_⟩⟩
  rw [List.length_map]
  rfl

theorem blockText_eq_ok {job : Job} {isBlock : Bool} {powHeaderHex solutionFieldHex : Text}
    {blockHex : Option Text} :
    blockText job isBlock powHeaderHex solutionFieldHex = .ok blockHex ↔
      if isBlock then
        ∃ text, assemble job powHeaderHex solutionFieldHex = .ok text ∧ blockHex = some text
      else blockHex = none := by
  unfold blockText
  cases isBlock with
  | false =>
      simp only [Bool.false_eq_true, if_false, Except.ok.injEq]
      exact eq_comm
  | true =>
      simp only [if_true]
      cases assemble job powHeaderHex solutionFieldHex with
      | error message => simp [Except.map]
      | ok text => simp [Except.map, eq_comm]

/-- What an accepted candidate is reported as. -/
theorem acceptShare_eq_valid {deps : Externals} {ctx : ShareContext} {headerBuf : List UInt8}
    {solutionFieldHex : Text} {share : AcceptedShare}
    (accepted : acceptShare deps ctx headerBuf solutionFieldHex = .ok (.valid share)) :
    share.hashed = headerBuf ++ ofHex solutionFieldHex ∧
      share.hash = hashText deps share.hashed ∧
      share.isBlock = decide (hexNumber share.hash ≤ ctx.netTargetBI) ∧
      if share.isBlock then
        ∃ text, assemble ctx.job (toHex headerBuf) solutionFieldHex = .ok text ∧
          share.blockHex = some text
      else share.blockHex = none := by
  rcases bind_eq_ok.mp accepted with ⟨blockHex, assembled, result⟩
  cases result
  exact ⟨rfl, rfl, rfl, blockText_eq_ok.mp assembled⟩

theorem jobNbits_of_acceptShare {deps : Externals} {ctx : ShareContext} {headerBuf : List UInt8}
    {solutionFieldHex : Text} {share : AcceptedShare}
    (accepted : acceptShare deps ctx headerBuf solutionFieldHex = .ok (.valid share)) :
    share.jobNbits = ctx.job.nbits := by
  rcases bind_eq_ok.mp accepted with ⟨blockHex, _, result⟩
  cases result
  rfl

/-- The quality compares the hash with the target it is scored against. -/
theorem shareQuality_of_acceptShare {deps : Externals} {ctx : ShareContext} {headerBuf : List UInt8}
    {solutionFieldHex : Text} {share : AcceptedShare}
    (accepted : acceptShare deps ctx headerBuf solutionFieldHex = .ok (.valid share)) :
    share.shareQuality = ratioToDecimalString (effectiveTarget ctx (hexNumber share.hash))
      (hexNumber share.hash) 6 := by
  rcases bind_eq_ok.mp accepted with ⟨blockHex, _, result⟩
  cases result
  rfl

/-- A share that is no block is within the target that its quality refers
to. -/
theorem le_effectiveTarget {ctx : ShareContext} {hash : Nat} (meets : meetsTarget ctx hash = true)
    (missed : ¬hash ≤ ctx.netTargetBI) : hash ≤ effectiveTarget ctx hash := by
  rw [effectiveTarget]
  split
  · next direct => exact direct.resolve_right missed
  · next indirect =>
      rw [not_or] at indirect
      rw [meetsTarget, decide_eq_false indirect.1, decide_eq_false indirect.2, Bool.or_self,
        Bool.false_or] at meets
      cases grace : ctx.graceTargetBI with
      | none =>
          rw [grace] at meets
          contradiction
      | some graceTargetBI =>
          rw [grace] at meets
          have within := of_decide_eq_true meets
          dsimp only
          rw [if_pos within]
          exact within

/-- A candidate is accepted where its block can be assembled. -/
theorem exists_acceptShare_eq_valid (deps : Externals) (ctx : ShareContext) (headerBuf : List UInt8)
    (solutionFieldHex : Text)
    (assembles : ∃ text, assemble ctx.job (toHex headerBuf) solutionFieldHex = .ok text) :
    ∃ share, acceptShare deps ctx headerBuf solutionFieldHex = .ok (.valid share) := by
  rcases assembles with ⟨text, assembled⟩
  have hasBlockText : ∀ isBlock, ∃ blockHex,
      blockText ctx.job isBlock (toHex headerBuf) solutionFieldHex = .ok blockHex := by
    intro isBlock
    cases isBlock with
    | false => exact ⟨none, rfl⟩
    | true => exact ⟨some text, blockText_eq_ok.mpr ⟨text, assembled, rfl⟩⟩
  obtain ⟨blockHex, blockEq⟩ := hasBlockText
    (decide (hexNumber (hashText deps (headerBuf ++ ofHex solutionFieldHex)) ≤ ctx.netTargetBI))
  exact ⟨_, bind_eq_ok.mpr ⟨blockHex, blockEq, rfl⟩⟩

end ZcashSoloPool.WorkManager
