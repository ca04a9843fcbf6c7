import ZcashSoloPool.Stratum.Messages
import ZcashSoloPool.WorkManager.AssembledBlock

/-!
# Honest work

A miner that follows ZIP 301 builds its header from the message it was sent,
with the nonce that it was assigned in front of its own.  What it submits is
one of the candidates of the search, so the server accepts it.
-/

namespace ZcashSoloPool.Stratum

open ZcashSoloPool.Bytes
open ZcashSoloPool.JavaScript
open ZcashSoloPool.WorkManager

/-- The members of a template that reach a header, as the node documents
them. -/
structure Documented (template : BlockTemplate) : Prop where
  hashes : template.HasHashes
  reserved : ∃ text, template.reserved = .string text ∧ isHash64 text = true
  bits : ∃ text bytes, template.bits = .string text ∧ Spells text bytes ∧ bytes.length = 4
  target : ∃ netTarget, bigIntOfHex template.target.toText = some netTarget

/-- The nonce of a connection: the assigned part, then the miner's. -/
def fullNonce (clientId : Nat) (nonce2 : List UInt8) : List UInt8 :=
  ofHex (extranonce1 clientId) ++ nonce2

theorem isLowerHex_extranonce1 (clientId : Nat) : IsLowerHex (extranonce1 clientId) :=
  isLowerHex_padStart (isLowerHex_hexText clientId) 8

/-- Numbers below `2 ^ 32` have at most eight digits. -/
theorem length_extranonce1 {clientId : Nat} (small : clientId < 2 ^ 32) :
    (extranonce1 clientId).length = 8 := by
  have digits : (hexText clientId).length ≤ 8 :=
    (Nat.length_toDigits_le_iff (by decide) (by decide)).mpr small
  rw [extranonce1, length_padStart]
  omega

/-- The message for a job spells the fields of its headers. -/
theorem header_sendJob (ctx : ShareContext) {fields : HeaderFields} (spelled : fields.Of ctx.job)
    (reservedLength : fields.reserved.length = 32) {bits : Text} {bitsBytes : List UInt8}
    (bitsEq : ctx.job.nbits = .string bits) (bitsSpelled : Spells bits bitsBytes)
    (time nonce : List UInt8) :
    (sendJob ctx.job).header time nonce = ctx.fixed ++ time ++ bitsBytes.reverse ++ nonce := by
  have spell : ∀ {bytes : List UInt8} {width : Nat}, bytes.length = width + 1 → ∀ other,
      (Value.string (toHex bytes)).or other = .string (toHex bytes) := fun length other =>
    Value.or_of_ne_nil (toHex_ne_nil (List.ne_nil_of_length_eq_add_one length)) other
  have even : ¬bits.length % 2 ≠ 0 := by
    rw [bitsSpelled.length_eq]
    omega
  have bitsLE : Value.undefined.or (reverseHexBytes (.string bits)) =
      .string (toHex bitsBytes.reverse) := by
    rw [reverseHexBytes, if_neg even, reverseHex, bitsSpelled.ofHex_eq]
    rfl
  have reserved : (fields.reserved ++ List.replicate 100 0).take 32 = fields.reserved := by
    rw [← reservedLength, List.take_left]
  simp only [Notify.header, sendJob, spelled.version, spelled.prevhash, spelled.merkleRoot,
    spelled.reserved, spell fields.versionLength, spell fields.prevhashLength,
    spell fields.merkleRootLength, spell reservedLength, bitsEq, bitsLE, Value.toText_string,
    ofHex_toHex, spelled.fixed_eq, reserved]

/-- A share that a miner of the connection has found for the job by ZIP 301. -/
structure HonestShare (deps : Externals) (manager : WorkManager) (connection : Connection)
    (job : Job) where
  clientId : Nat
  small : clientId < 2 ^ 32
  assigned : connection.client.extranonce1 = extranonce1 clientId
  time : Vector UInt8 4
  nonce2 : Vector UInt8 28
  solution : Vector UInt8 1344
  target : Nat
  clientTarget : bigIntOfHex (clientTargetHex manager connection.client) = some target
  verified : Equihash.verify deps.verifyFn
    ((sendJob job).header time.toList (fullNonce clientId nonce2.toList)) solution.toList = true
  meets : hexNumber (hashText deps
    ((sendJob job).header time.toList (fullNonce clientId nonce2.toList) ++
      consensusField solution.toList)) ≤ target

namespace HonestShare

variable {deps : Externals} {manager : WorkManager} {connection : Connection} {job : Job}

/-- The submission that the server reads. -/
def submission (honest : HonestShare deps manager connection job) : Submission where
  client := connection.client
  jobId := some job.jobId
  nTime := some (toHex honest.time.toList)
  nonce := some (toHex honest.nonce2.toList)
  solution := some (toHex (consensusField honest.solution.toList))

/-- What the checks make of it. -/
def context (honest : HonestShare deps manager connection job) (netTarget now : Nat) :
    ShareContext where
  job := job
  headerNonces := normalizeNonceCandidates (toHex honest.nonce2.toList)
    (.string connection.client.extranonce1)
  nTimeHeaderCandidates := normalizeHeaderTimeCandidates (toHex honest.time.toList) job
  bitsHeaderCandidates := normalizeCompactBitsCandidates job.nbits
  parsedSolutions :=
    parseSolutions (normalizeSolutionFields (toHex (consensusField honest.solution.toList)))
  netTargetBI := netTarget
  poolTargetBI := honest.target
  graceTargetBI := graceTarget connection.client honest.target now

theorem isWord_time (honest : HonestShare deps manager connection job) :
    IsWord (toHex honest.time.toList) where
  hex := isHexBytes_toHex _
  length := by rw [length_toHex, Vector.length_toList]

theorem length_nonce2 (honest : HonestShare deps manager connection job) :
    (toHex honest.nonce2.toList).length = 56 := by
  rw [length_toHex, Vector.length_toList]

theorem length_field (honest : HonestShare deps manager connection job) :
    (toHex (consensusField honest.solution.toList)).length = 2694 := by
  rw [length_toHex, consensusField, List.length_append, Vector.length_toList]
  rfl

/-- The assigned nonce with the miner's is one of the nonces. -/
theorem nonce_mem (honest : HonestShare deps manager connection job) (netTarget now : Nat) :
    extranonce1 honest.clientId ++ toHex honest.nonce2.toList ∈
      (honest.context netTarget now).headerNonces := by
  rw [context, honest.assigned]
  exact append_mem_normalizeNonceCandidates (isLowerHex_extranonce1 honest.clientId)
    (length_extranonce1 honest.small) (isHexBytes_toHex _).lower honest.length_nonce2

theorem time_mem (honest : HonestShare deps manager connection job) (netTarget now : Nat) :
    toHex honest.time.toList ∈ (honest.context netTarget now).nTimeHeaderCandidates := by
  simpa only [context] using honest.isWord_time.mem_timeCandidates job

theorem bits_mem (honest : HonestShare deps manager connection job) {bits : Text}
    {bitsBytes : List UInt8} (bitsEq : job.nbits = .string bits)
    (bitsSpelled : Spells bits bitsBytes) (bitsLength : bitsBytes.length = 4)
    (netTarget now : Nat) :
    toHex bitsBytes.reverse ∈ (honest.context netTarget now).bitsHeaderCandidates := by
  rw [context, bitsEq]
  exact mem_bitsCandidates bitsSpelled bitsLength

theorem solution_mem (honest : HonestShare deps manager connection job) (netTarget now : Nat) :
    ⟨toHex (consensusField honest.solution.toList), honest.solution.toList⟩ ∈
      (honest.context netTarget now).parsedSolutions := by
  have length : honest.solution.toList.length = 1344 := Vector.length_toList
  have read : readDelimited (consensusField honest.solution.toList) =
      some honest.solution.toList := by
    rw [← shortestField_eq length]
    exact readDelimited_shortestField (by rw [length]; decide)
  have form : consensusField honest.solution.toList ∈
      solutionForms (consensusField honest.solution.toList) := by
    rw [solutionForms, read]
    exact List.mem_cons_self
  rw [context]
  exact mem_parseSolutions (mem_normalizeSolutionFields.mpr ⟨_, form, rfl⟩) read

/-- The checks pass. -/
theorem prepared (honest : HonestShare deps manager connection job)
    (inTable : manager.jobs.get? job.jobId = some job) (current : isStale manager job = false)
    {bits : Text} {bitsBytes : List UInt8} (bitsEq : job.nbits = .string bits)
    (bitsSpelled : Spells bits bitsBytes) (bitsLength : bitsBytes.length = 4) {netTarget : Nat}
    (netTargetEq : bigIntOfHex job.target.toText = some netTarget) (now : Nat) :
    Prepared manager honest.submission now (honest.context netTarget now) where
  job := inTable
  current := current
  nTime := by
    refine ⟨toHex honest.time.toList, ?_, by rw [context]⟩
    have normalized := normalizeHexField_string honest.isWord_time.hex
      (List.ne_nil_of_length_eq_add_one honest.isWord_time.length) false 8
      (Or.inr honest.isWord_time.length.le)
    rw [normalizeNTime, submission, Value.ofText?, normalized, Option.filter_some,
      honest.isWord_time.length]
    rfl
  nonce := by
    have length := honest.length_nonce2
    refine ⟨toHex honest.nonce2.toList, ?_, by rw [context]; rfl⟩
    exact normalizeHexField_string (isHexBytes_toHex _) (List.ne_nil_of_length_pos (by omega)) true
      128 (Or.inr (by omega))
  bits := rfl
  solution := by
    have length := honest.length_field
    refine ⟨toHex (consensusField honest.solution.toList), ?_, by rw [context]⟩
    exact normalizeHexField_string (isHexBytes_toHex _) (List.ne_nil_of_length_pos (by omega)) false
      60000 (Or.inr (by omega))
  netTarget := netTargetEq
  poolTarget := honest.clientTarget
  graceTarget := rfl
  someNonce := List.ne_nil_of_mem (honest.nonce_mem netTarget now)
  someTime := List.ne_nil_of_mem (honest.time_mem netTarget now)
  someBits := List.ne_nil_of_mem (honest.bits_mem bitsEq bitsSpelled bitsLength netTarget now)
  someSolution := List.ne_nil_of_mem (honest.solution_mem netTarget now)

/-- The miner's header with its solution is a hit of the search. -/
theorem exists_isHit (honest : HonestShare deps manager connection job) {fields : HeaderFields}
    (spelled : fields.Of job) (reservedLength : fields.reserved.length = 32) {bits : Text}
    {bitsBytes : List UInt8} (bitsEq : job.nbits = .string bits)
    (bitsSpelled : Spells bits bitsBytes) (bitsLength : bitsBytes.length = 4)
    (netTarget now : Nat) :
    ∃ candidate ∈ (honest.context netTarget now).candidates,
      candidate.IsHit deps (honest.context netTarget now) := by
  let header := (honest.context netTarget now).header
    (extranonce1 honest.clientId ++ toHex honest.nonce2.toList) (toHex honest.time.toList)
    (toHex bitsBytes.reverse)
  have headerEq : header = (sendJob job).header honest.time.toList
      (fullNonce honest.clientId honest.nonce2.toList) := by
    have built := header_sendJob (honest.context netTarget now) spelled reservedLength bitsEq
      bitsSpelled honest.time.toList (fullNonce honest.clientId honest.nonce2.toList)
    have nonceBytes : ofHex (extranonce1 honest.clientId ++ toHex honest.nonce2.toList) =
        fullNonce honest.clientId honest.nonce2.toList := by
      have hex : IsHexBytes (extranonce1 honest.clientId) :=
        ⟨isLowerHex_extranonce1 _, by rw [length_extranonce1 honest.small]⟩
      rw [ofHex_append hex, ofHex_toHex, fullNonce]
    simp only [header, ShareContext.header, nonceBytes, ofHex_toHex]
    exact built.symm
  have headerMember : header ∈ (honest.context netTarget now).headers :=
    mem_headers.mpr ⟨_, honest.nonce_mem netTarget now, _, honest.time_mem netTarget now, _,
      honest.bits_mem bitsEq bitsSpelled bitsLength netTarget now, rfl⟩
  refine ⟨⟨header, toHex (consensusField honest.solution.toList), honest.solution.toList⟩,
    mem_candidates.mpr ⟨headerMember, honest.solution_mem netTarget now⟩, ?_, ?_⟩
  · rw [Candidate.Verified, headerEq]
    exact honest.verified
  · have meets := honest.meets
    rw [← headerEq] at meets
    simp only [meetsTarget, Candidate.hashValue, Candidate.hashed, ofHex_toHex, Bool.or_eq_true,
      decide_eq_true_eq]
    exact Or.inl (Or.inl meets)

end HonestShare

/-- After any calls, an honest share for a job in the table is accepted. -/
theorem validateShare_of_honestShare (deps : Externals) (walletAddress poolTarget : Text)
    (calls : List ManagerCall) {connection : Connection} {job : Job}
    (authorized : connection.authorized = true)
    (inTable : (History.after deps walletAddress poolTarget calls).manager.jobs.get? job.jobId =
      some job) (documented : Documented job.template)
    (honest : HonestShare deps (History.after deps walletAddress poolTarget calls).manager
      connection job)
    (worker : Text) {nTime nonce solution : Text} (timeSpelled : Spells nTime honest.time.toList)
    (nonceSpelled : Spells nonce honest.nonce2.toList)
    (solutionSpelled : Spells solution (consensusField honest.solution.toList)) (now : Nat) :
    ∃ submission share, handleSubmit connection
        (some [.string worker, (sendJob job).jobId, .string nTime, .string nonce,
          .string solution]) = some submission ∧
      validateShare deps (History.after deps walletAddress poolTarget calls).manager submission
        now = .ok (.valid share) := by
  have issued := History.issued_after deps walletAddress poolTarget calls inTable
  obtain ⟨currentJob, currentEq, height⟩ :=
    (History.invariant_after deps walletAddress poolTarget calls).heights _ job inTable
  have current :
      isStale (History.after deps walletAddress poolTarget calls).manager job = false := by
    simp [isStale, currentEq, height]
  rcases documented.target with ⟨netTarget, netTargetEq⟩
  rcases documented.bits with ⟨bits, bitsBytes, bitsEq, bitsSpelled, bitsLength⟩
  rw [← issued.template_members.1] at bitsEq
  rw [← issued.template_members.2] at netTargetEq
  rcases issued.exists_txs with ⟨txs, txsEq, _⟩
  obtain ⟨fields, spelled, _, reservedBytes, reservedRead, reservedEq⟩ :=
    issued.exists_fields documented.hashes txsEq
  rcases documented.reserved with ⟨text, textEq, hash⟩
  have reservedLength : fields.reserved.length = 32 := by
    rw [textEq] at reservedRead
    cases reservedRead
    rw [reservedEq, List.length_reverse]
    exact length_ofHex_of_isHash64 hash
  have prepared := honest.prepared inTable current bitsEq bitsSpelled bitsLength netTargetEq now
  obtain ⟨candidate, member, isHit⟩ :=
    honest.exists_isHit spelled reservedLength bitsEq bitsSpelled bitsLength netTarget now
  rcases exists_firstHit member isHit with ⟨first, firstHit⟩
  rcases validateShare_of_issued prepared issued firstHit with ⟨share, result, _⟩
  refine ⟨honest.submission, share, ?_, result⟩
  have parsed := parseSubmit_zip301 (.string worker) job.jobId timeSpelled nonceSpelled
    solutionSpelled Vector.length_toList (by rw [Vector.length_toList]; decide)
  rw [handleSubmit, if_pos authorized, sendJob, parsed]
  rfl

/-- The first connection, after `mining.authorize`. -/
def connectionExample : Connection :=
  ⟨true, ⟨extranonce1 1, none, none, 0⟩⟩

/-- A time in the order of the header. -/
def timeExample : Vector UInt8 4 :=
  #v[0x00, 0xf1, 0x53, 0x65]

/-- What the miner adds to the nonce: the bytes from 1 on. -/
def nonceExample : Vector UInt8 28 :=
  Vector.ofFn fun place => UInt8.ofNat (place + 1)

/-- A solution of zero bytes. -/
def honestExample : HonestShare packagesExample
    (History.after packagesExample walletExample easiestTarget (callsExample easiestTarget)).manager
    connectionExample (jobExample easiestTarget) where
  clientId := 1
  small := by decide
  assigned := rfl
  time := timeExample
  nonce2 := nonceExample
  solution := Vector.replicate 1344 0
  target := hexNumber easiestTarget
  clientTarget := clientTarget_managerExample easiestTarget rfl
  verified := by
    have length : ((sendJob (jobExample easiestTarget)).header timeExample.toList
        (fullNonce 1 nonceExample.toList)).length = 140 := by decide +kernel
    rw [Vector.toList_replicate]
    exact verified_zeroSolution length
  meets := hexNumber_hashText_le packagesExample _

theorem hasHashes_jobExample (target : Text) : (jobExample target).template.HasHashes where
  previousblockhash := ⟨List.replicate 64 '0', rfl, by decide⟩
  coinbaseTxid := fun _ _ _ same => nomatch same

theorem documented_jobExample : Documented (jobExample easiestTarget).template where
  hashes := hasHashes_jobExample easiestTarget
  reserved := ⟨List.replicate 64 '0', rfl, by decide⟩
  bits := ⟨"1f07ffff".toList, [0x1f, 0x07, 0xff, 0xff], rfl, by decide, rfl⟩
  target := ⟨_, bigIntOfHex_of_isLowerHex (by decide) (List.cons_ne_nil _ _)⟩

/-- The share of the first connection is accepted. -/
theorem validateShare_of_honestShare_honestExample :
    ∃ submission share, handleSubmit connectionExample
        (some [.string walletExample, (sendJob (jobExample easiestTarget)).jobId,
          .string (toHex timeExample.toList), .string (toHex nonceExample.toList),
          .string (toHex (consensusField zeroSolution))]) = some submission ∧
      validateShare packagesExample (managerExample easiestTarget) submission 0 =
        .ok (.valid share) := by
  have inTable := get?_managerExample easiestTarget
  unfold managerExample at inTable ⊢
  exact validateShare_of_honestShare packagesExample walletExample easiestTarget
    (callsExample easiestTarget) rfl inTable documented_jobExample honestExample
    walletExample (spells_toHex _) (spells_toHex _) (spells_toHex _) 0

end ZcashSoloPool.Stratum
