import ZcashSoloPool.WorkManager.Candidates
import ZcashSoloPool.WorkManager.GenerateJob
import ZcashSoloPool.Equihash.Verifier

/-!
# Validating a share

`validateShare` of the work manager.  The checks in front of the search either
end the call or deliver a context of candidates and targets.  The search is
four nested loops over the candidates; the three outer ones overwrite their
part of one 140-byte header buffer, and the innermost one returns from the
whole function at the first candidate that passes the verifier and meets a
target.
-/

namespace ZcashSoloPool.WorkManager

open ZcashSoloPool.Bytes
open ZcashSoloPool.JavaScript

/-! ## Submissions and results -/

/-- The fields of a connection that the validation reads.  The time at which
the previous target expires is in milliseconds. -/
structure Client where
  extranonce1 : Text
  shareTarget : Option Text
  previousShareTarget : Option Text
  previousTargetExpiresAt : Nat
  deriving DecidableEq, Repr

/-- A submission as the server hands it over. -/
structure Submission where
  client : Client
  jobId : Option Text
  nTime : Option Text
  nonce : Option Text
  solution : Option Text
  deriving DecidableEq, Repr

/-- The result for an accepted share.  `hashed` is the byte string whose hash
is reported; the source keeps it inside the search. -/
structure AcceptedShare where
  isBlock : Bool
  hashed : List UInt8
  hash : Text
  shareQuality : Text
  networkQuality : Text
  hashValueHex : Text
  blockHex : Option Text
  height : Value
  jobNbits : Value
  deriving DecidableEq, Repr

/-- What `validateShare` resolves to. -/
inductive ShareResult where
  | valid (share : AcceptedShare)
  | invalid (error : String)
  deriving DecidableEq, Repr

/-- An end of the function: a thrown error or a result. -/
abbrev Halt :=
  Except String ShareResult

/-- Return a rejection unless there is a value. -/
def orReject {α : Type} (error : String) : Option α → Except Halt α
  | some value => .ok value
  | none => .error (.ok (.invalid error))

/-- `BigInt("0x" + text)`. -/
def parseBigInt (text : Text) : Except Halt Nat :=
  match bigIntOfHex text with
  | some value => .ok value
  | none => .error (.error ("Cannot convert 0x" ++ String.ofList text ++ " to a BigInt"))

/-! ## The checks before the search -/

/-- What the checks deliver to the search. -/
structure ShareContext where
  job : Job
  headerNonces : List Text
  nTimeHeaderCandidates : List Text
  bitsHeaderCandidates : List Text
  parsedSolutions : List ParsedSolution
  netTargetBI : Nat
  poolTargetBI : Nat
  graceTargetBI : Option Nat
  deriving DecidableEq, Repr

/-- The test for jobs of another height than the current one. -/
def isStale (manager : WorkManager) (job : Job) : Bool :=
  match manager.currentJob with
  | some currentJob => decide (job.height ≠ currentJob.height)
  | none => false

/-- A time of four bytes. -/
def normalizeNTime (nTime : Option Text) : Option Text :=
  (normalizeHexField (.ofText? nTime) false 8).filter fun nTimeBE => nTimeBE.length == 8

/-- The target of the client, or else of the pool. -/
def clientTargetHex (manager : WorkManager) (client : Client) : Text :=
  (normalizeTarget (.ofText? client.shareTarget)).getD manager.poolTarget

/-- The target before the last increase of difficulty, while it still counts
and is the easier one. -/
def graceTarget (client : Client) (poolTargetBI now : Nat) : Option Nat :=
  match client.previousShareTarget with
  | some previous =>
      if !previous.isEmpty && decide (now < client.previousTargetExpiresAt) then
        ((normalizeTarget (.string previous)).bind bigIntOfHex).filter fun prevBI =>
          decide (prevBI > poolTargetBI)
      else none
  | none => none

/-- `validateShare` up to the search. -/
def prepare (manager : WorkManager) (submission : Submission) (now : Nat) :
    Except Halt ShareContext := do
  let job ← orReject "Job Expired" (submission.jobId.bind manager.jobs.get?)
  if isStale manager job then .error (.ok (.invalid "Stale Job"))
  else
    let nTimeBE ← orReject "Invalid nTime size" (normalizeNTime submission.nTime)
    let nonceHex ← orReject "Nonce is not valid hex"
      (normalizeHexField (.ofText? submission.nonce) true 128)
    let solutionHex ← orReject "Solution is not valid hex"
      (normalizeHexField (.ofText? submission.solution) false 60000)
    let headerNonces :=
      normalizeNonceCandidates nonceHex (.string submission.client.extranonce1)
    let nTimeHeaderCandidates := normalizeHeaderTimeCandidates nTimeBE job
    let bitsHeaderCandidates := normalizeCompactBitsCandidates job.nbits
    let solutionFields := normalizeSolutionFields solutionHex
    if headerNonces.isEmpty || nTimeHeaderCandidates.isEmpty || bitsHeaderCandidates.isEmpty ||
        solutionFields.isEmpty then
      .error (.ok (.invalid "Invalid nonce/solution layout"))
    else
      let netTargetBI ← parseBigInt job.target.toText
      let poolTargetBI ← parseBigInt (clientTargetHex manager submission.client)
      let parsedSolutions := parseSolutions solutionFields
      if parsedSolutions.isEmpty then .error (.ok (.invalid "Invalid solution"))
      else
        pure {
          job := job
          headerNonces := headerNonces
          nTimeHeaderCandidates := nTimeHeaderCandidates
          bitsHeaderCandidates := bitsHeaderCandidates
          parsedSolutions := parsedSolutions
          netTargetBI := netTargetBI
          poolTargetBI := poolTargetBI
          graceTargetBI := graceTarget submission.client poolTargetBI now }

/-! ## The block text and the qualities -/

/-- The `data` of a transaction as `join` writes it. -/
def txData : Option TemplateTx → Except String Text
  | some t => .ok t.data.joinText
  | none => .error "Cannot read properties of null (reading 'data')"

/-- `assemble`. -/
def assemble (job : Job) (powHeaderHex solutionFieldHex : Text) : Except String Text := do
  let txs ← job.template.txs
  let countHex := compactSizeHex (1 + txs.length)
  let data ← txs.mapM txData
  pure (powHeaderHex ++ solutionFieldHex ++ countHex ++ job.coinbaseTx ++ data.flatten)

/-- `ratioToDecimalString`. -/
def ratioToDecimalString (numerator denominator decimals : Nat) : Text :=
  if denominator = 0 ∨ numerator = 0 then "0".toList
  else
    let scale := 10 ^ decimals
    let scaled := numerator * scale / denominator
    let whole := scaled / scale
    let frac := scaled % scale
    if frac = 0 then Nat.toDigits 10 whole
    else
      Nat.toDigits 10 whole ++ '.' ::
        ((padStart decimals (Nat.toDigits 10 frac)).reverse.dropWhile (· == '0')).reverse

/-! ## The search -/

/-- `source.copy(target, targetStart)`. -/
def copyInto (source target : List UInt8) (targetStart : Nat) : List UInt8 :=
  target.take targetStart ++ source.take (target.length - targetStart) ++
    target.drop (targetStart + source.length)

/-- The best candidate so far that passed the verifier. -/
structure BestTried where
  hash : Text
  hashBI : Nat
  deriving DecidableEq, Repr

/-- The variables of the search that change. -/
structure SearchState where
  headerBuf : List UInt8
  bestTried : Option BestTried
  deriving DecidableEq, Repr

/-- Overwrite a part of the header buffer with the bytes of a text. -/
def SearchState.write (state : SearchState) (text : Text) (offset : Nat) : SearchState :=
  { state with headerBuf := copyInto (ofHex text) state.headerBuf offset }

/-- The reported text of the hash of a header and a solution field. -/
def hashText (deps : Externals) (hashed : List UInt8) : Text :=
  toHex (deps.doubleHash hashed).reverse

/-- The three comparisons of a hash. -/
def meetsTarget (ctx : ShareContext) (hashBI : Nat) : Bool :=
  decide (hashBI ≤ ctx.poolTargetBI) || decide (hashBI ≤ ctx.netTargetBI) ||
    ctx.graceTargetBI.any fun graceTargetBI => decide (hashBI ≤ graceTargetBI)

/-- The target that the quality of a share refers to. -/
def effectiveTarget (ctx : ShareContext) (hashBI : Nat) : Nat :=
  if hashBI ≤ ctx.poolTargetBI ∨ hashBI ≤ ctx.netTargetBI then ctx.poolTargetBI
  else
    match ctx.graceTargetBI with
    | some graceTargetBI => if hashBI ≤ graceTargetBI then graceTargetBI else ctx.poolTargetBI
    | none => ctx.poolTargetBI

/-- `isBlock ? this.assemble(job, powHeaderHex, solutionFieldHex) : null`. -/
def blockText (job : Job) (isBlock : Bool) (powHeaderHex solutionFieldHex : Text) :
    Except String (Option Text) :=
  if isBlock then (assemble job powHeaderHex solutionFieldHex).map some else .ok none

/-- The result for a candidate that meets a target. -/
def acceptShare (deps : Externals) (ctx : ShareContext) (headerBuf : List UInt8)
    (solutionFieldHex : Text) : Halt := do
  let hashed := headerBuf ++ ofHex solutionFieldHex
  let hashBE := hashText deps hashed
  let hashBI := hexNumber hashBE
  let isBlock := decide (hashBI ≤ ctx.netTargetBI)
  let blockHex ← blockText ctx.job isBlock (toHex headerBuf) solutionFieldHex
  pure (.valid {
    isBlock := isBlock
    hashed := hashed
    hash := hashBE
    shareQuality := ratioToDecimalString (effectiveTarget ctx hashBI) hashBI 6
    networkQuality := ratioToDecimalString ctx.netTargetBI hashBI 6
    hashValueHex := hexText hashBI
    blockHex := blockHex
    height := ctx.job.height
    jobNbits := ctx.job.nbits })

/-- The update of `bestTried`. -/
def betterTried (bestTried : Option BestTried) (hashBE : Text) (hashBI : Nat) : Option BestTried :=
  match bestTried with
  | some best => if hashBI < best.hashBI then some ⟨hashBE, hashBI⟩ else some best
  | none => some ⟨hashBE, hashBI⟩

/-- The body of the innermost loop. -/
def trySolution (deps : Externals) (ctx : ShareContext) (state : SearchState)
    (solution : ParsedSolution) : Except Halt SearchState :=
  if !Equihash.verify deps.verifyFn state.headerBuf solution.solBuf then .ok state
  else
    let hashBE := hashText deps (state.headerBuf ++ ofHex solution.solutionFieldHex)
    let hashBI := hexNumber hashBE
    if meetsTarget ctx hashBI then
      .error (acceptShare deps ctx state.headerBuf solution.solutionFieldHex)
    else .ok { state with bestTried := betterTried state.bestTried hashBE hashBI }

/-- The body of the loop over the bits. -/
def tryBits (deps : Externals) (ctx : ShareContext) (state : SearchState) (bitsHeader : Text) :
    Except Halt SearchState :=
  ctx.parsedSolutions.foldlM (trySolution deps ctx) (state.write bitsHeader 104)

/-- The body of the loop over the times. -/
def tryTime (deps : Externals) (ctx : ShareContext) (state : SearchState) (nTimeHeader : Text) :
    Except Halt SearchState :=
  ctx.bitsHeaderCandidates.foldlM (tryBits deps ctx) (state.write nTimeHeader 100)

/-- The body of the loop over the nonces. -/
def tryNonce (deps : Externals) (ctx : ShareContext) (state : SearchState) (headerNonce : Text) :
    Except Halt SearchState :=
  ctx.nTimeHeaderCandidates.foldlM (tryTime deps ctx) (state.write headerNonce 108)

/-- The header buffer before the loops: 140 zero bytes with the static fields
copied to the front. -/
def initialHeader (job : Job) : List UInt8 :=
  copyInto (ofHex (job.versionLE ++ job.prevhashLE ++ job.merkleRootLE ++ job.reservedLE))
    (List.replicate 140 0) 0

/-- The nested loops. -/
def search (deps : Externals) (ctx : ShareContext) : Except Halt SearchState :=
  ctx.headerNonces.foldlM (tryNonce deps ctx) ⟨initialHeader ctx.job, none⟩

/-- `validateShare`. -/
def validateShare (deps : Externals) (manager : WorkManager) (submission : Submission) (now : Nat) :
    Halt :=
  match prepare manager submission now with
  | .error halt => halt
  | .ok ctx =>
      match search deps ctx with
      | .error halt => halt
      | .ok state =>
          .ok (.invalid (if state.bestTried.isSome then "Low Diff" else "Invalid solution"))

end ZcashSoloPool.WorkManager
