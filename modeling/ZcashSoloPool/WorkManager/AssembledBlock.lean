import ZcashSoloPool.WorkManager.Header
import ZcashSoloPool.WorkManager.ConsensusHash
import ZcashSoloPool.Wire.Block

/-!
# Assembled blocks

The text that is submitted for a block is put together from the header that
was verified, the solution field that was hashed, and the coinbase and the
transactions of the job.  Read back as a block, it is made of these parts and
of nothing else.
-/

namespace ZcashSoloPool.WorkManager

open ZcashSoloPool.Bytes
open ZcashSoloPool.JavaScript
open ZcashSoloPool.Wire

/-- The bytes of a transaction. -/
def TemplateTx.bytes (t : TemplateTx) : List UInt8 :=
  ofHex t.data.joinText

/-- The data of every transaction is text of whole bytes. -/
def BlockTemplate.HasData (template : BlockTemplate) : Prop :=
  ∀ txs, template.txs = .ok txs → ∀ tx, some tx ∈ txs →
    ∃ text, tx.data = .string text ∧ IsWhole text

/-- The block text of a share consists of this header, this solution, and the
coinbase and transactions of the job. -/
structure ConsistsOf (deps : Externals) (job : Job) (share : AcceptedShare)
    (header solution : List UInt8) (txs : List TemplateTx) : Prop where
  /-- The verifier accepted the header with the solution. -/
  verified : Equihash.verify deps.verifyFn header solution = true
  /-- These are the transactions of the template, in order. -/
  listed : job.template.txs = .ok (txs.map some)
  /-- Whatever reader knows the ends of the transactions, the whole text reads
  as this block. -/
  decoded : ∃ blockHex, share.blockHex = some blockHex ∧ IsWhole blockHex ∧
    ∀ readTx, Takes readTx (ofHex job.coinbaseTx) → (∀ tx ∈ txs, Takes readTx tx.bytes) →
      readBlock readTx (ofHex blockHex) =
        some (⟨header, solution, 1 + txs.length,
          ofHex job.coinbaseTx :: txs.map TemplateTx.bytes⟩, [])
  /-- The reported hash is that of the header and the solution field. -/
  hash : ∃ field, readDelimited field = some solution ∧
    share.hash = toHex (deps.doubleHash (header ++ field)).reverse ∧
      ∃ rest, share.blockHex = some (toHex (header ++ field) ++ rest)
  /-- The Merkle root in the header is the one over the ids of these parts. -/
  merkleRoot : ∃ cbHash, coinbaseLeaf deps job.coinbaseTx job.template.coinbaseTxid = .ok cbHash ∧
    Merkle.root deps.hashPair (cbHash :: txs.map TemplateTx.leaf) = some ((header.drop 36).take 32)

/-- A delimited field is read as a byte vector, whatever follows. -/
theorem readBytes_of_readDelimited {field solution : List UInt8}
    (read : readDelimited field = some solution) (more : List UInt8) :
    readBytes (field ++ more) = some (solution, more) := by
  unfold readDelimited at read
  split at read
  · next length body counted =>
      split at read
      · next exact =>
          cases read
          have long : ¬(solution ++ more).length < solution.length := by
            rw [List.length_append]
            omega
          simp only [readBytes, readCompactSize_append counted, Option.bind_eq_bind,
            Option.bind_some, ← exact.2, if_neg long, List.take_left, List.drop_left]
      · contradiction
  · contradiction

theorem Issued.isHexBytes_coinbaseTx {deps : Externals} {job : Job} (issued : Issued deps job) :
    IsHexBytes job.coinbaseTx := by
  rcases issued with ⟨_, _, _, _, built⟩
  obtain ⟨_, _, _, _, _, _, _, coinbase, _, _, _, _, rfl⟩ := buildJob_eq_ok.mp built
  exact coinbaseText_eq_ok (getCoinbaseFromTemplate_eq_ok.mp coinbase).2.1

/-- The block of an accepted candidate consists of its parts. -/
theorem consistsOf_of_acceptShare {deps : Externals} {manager : WorkManager}
    {submission : Submission} {now : Nat} {ctx : ShareContext}
    (prepared : Prepared manager submission now ctx) (issued : Issued deps ctx.job)
    (hashes : ctx.job.template.HasHashes) (data : ctx.job.template.HasData)
    {candidate : Candidate} (firstHit : ctx.FirstHit deps candidate) {share : AcceptedShare}
    (accepted : acceptShare deps ctx candidate.headerBuf candidate.solution.solutionFieldHex =
      .ok (.valid share)) (isBlock : share.isBlock = true) :
    ∃ header solution txs, ConsistsOf deps ctx.job share header solution txs := by
  rcases acceptShare_eq_valid accepted with ⟨hashed, hash, _, block⟩
  rcases prepared.exists_field firstHit.mem with ⟨field, fieldEq, read⟩
  rcases Equihash.length_of_verify firstHit.isHit.verified with ⟨headerLength, _⟩
  rcases issued.exists_txs with ⟨txs, txsEq, short, _⟩
  rcases issued.exists_fields hashes txsEq with ⟨fields, spelled, merkleRoot, _⟩
  rw [isBlock, if_pos rfl] at block
  rcases block with ⟨text, assembled, textEq⟩
  rw [assemble_eq txsEq, fieldEq, compactSizeHex_eq] at assembled
  have textBytes := (Except.ok.inj assembled).symm
  rw [fieldEq, ofHex_toHex] at hashed
  have coinbaseWhole := issued.isHexBytes_coinbaseTx.isWhole
  have dataWhole : ∀ text ∈ txs.map fun t => t.data.joinText, IsWhole text := by
    intro text member
    obtain ⟨tx, txMember, rfl⟩ := List.mem_map.mp member
    rcases data _ txsEq tx (List.mem_map_of_mem txMember) with ⟨text, textEq, whole⟩
    rw [textEq]
    exact whole
  have frontWhole : ∀ bytes : List UInt8, IsWhole (toHex bytes) := fun bytes =>
    (isHexBytes_toHex bytes).isWhole
  refine ⟨candidate.headerBuf, candidate.solution.solBuf, txs, firstHit.isHit.verified, txsEq,
    ⟨text, textEq, ?_, fun readTx coinbaseTaken txsTaken => ?_⟩, ⟨field, read, ?_, ?_⟩, ?_⟩
  · rw [textBytes]
    exact isWhole_append (isWhole_append (isWhole_append (isWhole_append (frontWhole _)
      (frontWhole _)) (frontWhole _)) coinbaseWhole) (isWhole_flatten dataWhole)
  · have bytes : ofHex text = candidate.headerBuf ++ (field ++ (compactSize (1 + txs.length) ++
        ((ofHex ctx.job.coinbaseTx :: txs.map TemplateTx.bytes).flatten ++ []))) := by
      have dataBytes := ofHex_flatten dataWhole
      rw [List.map_map] at dataBytes
      simp only [textBytes, List.append_assoc, ofHex_toHex_append, coinbaseWhole.ofHex_append,
        dataBytes, List.flatten_cons, List.append_nil]
      rfl
    have count : (ofHex ctx.job.coinbaseTx :: txs.map TemplateTx.bytes).length =
        1 + txs.length := by
      rw [List.length_cons, List.length_map, Nat.add_comm]
    have taken : ∀ tx ∈ ofHex ctx.job.coinbaseTx :: txs.map TemplateTx.bytes, Takes readTx tx := by
      intro tx member
      rcases List.mem_cons.mp member with rfl | member
      · exact coinbaseTaken
      · obtain ⟨t, tMember, rfl⟩ := List.mem_map.mp member
        exact txsTaken t tMember
    rw [bytes, ← count]
    exact readBlock_append headerLength (readBytes_of_readDelimited read) (by omega) taken []
  · rw [hash, hashed]
    rfl
  · refine ⟨toHex (compactSize (1 + txs.length)) ++ ctx.job.coinbaseTx ++
      (txs.map fun t => t.data.joinText).flatten, ?_⟩
    rw [textEq, textBytes, toHex_append]
    simp only [List.append_assoc]
  · rcases merkleRoot with ⟨cbHash, coinbase, rootEq⟩
    obtain ⟨headerNonce, _, nTimeHeader, _, bitsHeader, _, headerEq⟩ :=
      mem_headers.mp (mem_candidates.mp firstHit.mem).1
    refine ⟨cbHash, coinbase, ?_⟩
    rw [rootEq, ← headerEq, spelled.merkleRoot_header]

/-- After any calls, the block text of a share accepted as a block consists of
its header, its solution and the transactions of its job. -/
theorem consistsOf_of_validateShare (deps : Externals) (walletAddress poolTarget : Text)
    (calls : List ManagerCall) {submission : Submission} {now : Nat} {job : Job}
    (found : submission.jobId.bind (History.after deps walletAddress poolTarget
      calls).manager.jobs.get? = some job)
    (hashes : job.template.HasHashes) (data : job.template.HasData) {share : AcceptedShare}
    (accepted : validateShare deps (History.after deps walletAddress poolTarget calls).manager
      submission now = .ok (.valid share)) (isBlock : share.isBlock = true) :
    ∃ header solution txs, ConsistsOf deps job share header solution txs := by
  rcases validateShare_eq_valid_iff.mp accepted with ⟨ctx, prepared, candidate, firstHit, result⟩
  obtain rfl : ctx.job = job := Option.some.inj (prepared.job.symm.trans found)
  rcases Option.bind_eq_some_iff.mp found with ⟨id, _, inTable⟩
  have issued := History.issued_after deps walletAddress poolTarget calls inTable
  exact consistsOf_of_acceptShare prepared issued hashes data firstHit result isBlock

/-! ## A block with three transactions -/

/-- A transaction of the length of the coinbase. -/
def transferExample (tag : UInt8) : List UInt8 :=
  coinbaseExample [tag, 0] (p2pkhScript walletHash.toList)

theorem length_transferExample (tag : UInt8) :
    (transferExample tag).length = payingCoinbase.length := by
  simp only [transferExample, payingCoinbase, coinbaseExample, List.length_append,
    List.length_cons, List.length_nil]

/-- It in a template, with an id of its own. -/
def txExample (tag : UInt8) (digit : Char) : TemplateTx where
  hash := .string (List.replicate 64 digit)
  txid := .undefined
  data := .string (toHex (transferExample tag))

/-- Three of them. -/
def txsExample : List TemplateTx :=
  [txExample 1 'a', txExample 2 'b', txExample 3 'c']

/-- A template that carries them. -/
def carryingTemplate (height : SafeInteger) : BlockTemplate :=
  { templateExample height easiestTarget payingCoinbase with
    transactions := some ⟨txsExample.map some, by decide⟩ }

theorem isHash64_txsExample : ∀ tx ∈ txsExample, isHash64 tx.hashText = true := by
  decide

theorem exists_transfer_of_mem {tx : TemplateTx} (listed : tx ∈ txsExample) :
    ∃ tag, tx.data = .string (toHex (transferExample tag)) := by
  simp only [txsExample, List.mem_cons, List.not_mem_nil, or_false] at listed
  rcases listed with rfl | rfl | rfl
  · exact ⟨1, rfl⟩
  · exact ⟨2, rfl⟩
  · exact ⟨3, rfl⟩

theorem readable_carryingTemplate (height : SafeInteger) : Readable (carryingTemplate height) := by
  have readable := readable_templateExample height easiestTarget payingCoinbase
  refine ⟨⟨_, rfl, fun t member => ?_⟩, readable.coinbaseTxid, readable.previousblockhash,
    readable.reserved⟩
  obtain ⟨tx, listed, rfl⟩ := List.mem_map.mp member
  exact ⟨tx, rfl, isHash64_txsExample tx listed⟩

theorem hasHashes_carryingTemplate (height : SafeInteger) :
    (carryingTemplate height).HasHashes where
  previousblockhash := ⟨List.replicate 64 '0', rfl, by decide⟩
  coinbaseTxid := fun _ _ _ same => nomatch same

theorem hasData_carryingTemplate (height : SafeInteger) : (carryingTemplate height).HasData := by
  intro txs txsEq tx member
  cases txsEq
  obtain ⟨_, listed, ⟨⟩⟩ := List.mem_map.mp member
  obtain ⟨tag, data⟩ := exists_transfer_of_mem listed
  exact ⟨_, data, by rw [IsWhole, ofHex_toHex, length_toHex]⟩

/-- The call that issues its job. -/
def carryingCalls (height : SafeInteger) : List ManagerCall :=
  [.generateJob true (.ok (some (carryingTemplate height)))]

/-- The job that the work manager has then. -/
theorem exists_carryingJob (height : SafeInteger) :
    ∃ job merkleRootBE prevhashLE reservedLE, Issued packagesExample job ∧
      job = jobRecord (carryingTemplate height) (hexText 1) true (toHex payingCoinbase)
        merkleRootBE prevhashLE reservedLE ∧
      (History.after packagesExample walletExample easiestTarget (carryingCalls height)).manager =
        issueJob { WorkManager.initial walletExample easiestTarget with jobCounter := 1 } job := by
  have text : coinbaseText (some (carryingTemplate height)) = .ok (toHex payingCoinbase) := by
    have plain := coinbaseText_templateExample height easiestTarget payingCoinbase
      (by decide) (by decide)
    rw [coinbaseText, Option.bind_some] at plain ⊢
    rw [carryingTemplate, plain]
  have coinbase := (getCoinbaseFromTemplate_wallet walletExample_isP2PKHAddress).mpr
    ⟨text, toHex_infix (by decide +kernel)⟩
  obtain ⟨job, built, _⟩ : ∃ job, buildJob packagesExample walletExample (hexText 1) true
      (some (carryingTemplate height)) = .ok job ∧ job.coinbaseTx = toHex payingCoinbase :=
    buildJob_isOk_iff.mpr ⟨coinbase, readable_carryingTemplate height⟩
  have issued : generateJob packagesExample (.initial walletExample easiestTarget) true
      (.ok (some (carryingTemplate height))) =
        (issueJob { WorkManager.initial walletExample easiestTarget with jobCounter := 1 } job,
          .ok job) := generateJob_eq_ok.mpr ⟨built, rfl⟩
  obtain ⟨_, coinbaseTx, _, merkleRootBE, prevhashLE, reservedLE, ⟨⟩, coinbase', _, _, _, _,
    same⟩ := buildJob_eq_ok.mp built
  cases Except.ok.inj (coinbase.symm.trans coinbase')
  refine ⟨job, merkleRootBE, prevhashLE, reservedLE, ⟨_, _, _, _, built⟩, same, ?_⟩
  simp only [carryingCalls, History.after, List.foldl_cons, List.foldl_nil, History.perform,
    History.initial, issued, History.record]

/-- The checks pass for it as for the job without transactions. -/
theorem prepared_carryingJob {height : SafeInteger} {job : Job}
    {merkleRootBE prevhashLE reservedLE : Text}
    (same : job = jobRecord (carryingTemplate height) (hexText 1) true (toHex payingCoinbase)
      merkleRootBE prevhashLE reservedLE) :
    Prepared
      (issueJob { WorkManager.initial walletExample easiestTarget with jobCounter := 1 } job)
      overlongSubmission 0 { overlongContext easiestTarget with job := job } := by
  have easiest : IsLowerHex easiestTarget := by decide
  have plain := prepared_overlongContext easiestTarget easiest (List.cons_ne_nil _ _)
  have fresh : (WorkManager.initial walletExample easiestTarget).jobs.get? job.jobId = none := rfl
  have jobId : overlongSubmission.jobId = some job.jobId := by
    rw [same]
    rfl
  subst same
  exact { plain with
    job := by
      rw [jobId, Option.bind_some]
      exact get?_issueJob_self fresh
    current := by
      change decide ((carryingTemplate height).height ≠ (carryingTemplate height).height) = false
      simp
    nTime := ⟨List.replicate 8 '0', by decide,
      (timeCandidates_jobExample easiestTarget).symm⟩
    poolTarget := by
      rw [clientTargetHex]
      exact bigIntOfHex_of_isLowerHex easiest (List.cons_ne_nil _ _) }

/-- A submission that is accepted as a block of the coinbase and three
transactions, with a reader for them. -/
theorem consistsOf_of_validateShare_carryingTemplate :
    ∃ job share, validateShare packagesExample
          (History.after packagesExample walletExample easiestTarget
            (carryingCalls ⟨2, by decide⟩)).manager overlongSubmission 0 = .ok (.valid share) ∧
      share.isBlock = true ∧ job.template = carryingTemplate ⟨2, by decide⟩ ∧
      (∃ header solution txs, ConsistsOf packagesExample job share header solution txs) ∧
      Takes (readExactly payingCoinbase.length) (ofHex job.coinbaseTx) ∧
      ∀ tx ∈ txsExample, Takes (readExactly payingCoinbase.length) tx.bytes := by
  obtain ⟨job, merkleRootBE, prevhashLE, reservedLE, issued, same, manager⟩ :=
    exists_carryingJob ⟨2, by decide⟩
  have prepared := prepared_carryingJob same
  rw [← manager] at prepared
  let ctx : ShareContext := { overlongContext easiestTarget with job := job }
  let candidate : Candidate := {
    headerBuf := ctx.header (List.replicate 64 '0') (List.replicate 8 '0') "1f07ffff".toList
    solution := ⟨toHex (overlongField zeroSolution), zeroSolution⟩ }
  have meets := hexNumber_hashText_le packagesExample candidate.hashed
  have length := prepared.wellShaped.length_header (List.mem_singleton_self _)
    (List.mem_singleton_self _) List.mem_cons_self
  have firstHit : ctx.FirstHit packagesExample candidate := by
    refine ⟨⟨verified_zeroSolution length, ?_⟩,
      ⟨[], _, rfl, fun _ earlier => absurd earlier List.not_mem_nil⟩⟩
    exact Bool.or_eq_true_iff.mpr
      (Or.inl (Bool.or_eq_true_iff.mpr (Or.inl (decide_eq_true meets))))
  obtain ⟨share, result, accepted⟩ := validateShare_of_issued prepared issued firstHit
  rcases acceptShare_eq_valid accepted with ⟨hashed, hash, block, _⟩
  have isBlock : share.isBlock = true := by
    rw [block, hash, hashed]
    exact decide_eq_true meets
  have template : job.template = carryingTemplate ⟨2, by decide⟩ := by rw [same, jobRecord]
  have coinbaseTx : job.coinbaseTx = toHex payingCoinbase := by rw [same, jobRecord]
  refine ⟨job, share, result, isBlock, template, ?_, ?_, ?_⟩
  · exact consistsOf_of_validateShare packagesExample walletExample easiestTarget
      (carryingCalls ⟨2, by decide⟩) prepared.job (template ▸ hasHashes_carryingTemplate _)
      (template ▸ hasData_carryingTemplate _) result isBlock
  · rw [coinbaseTx, ofHex_toHex]
    exact takes_readExactly payingCoinbase
  · intro tx member
    obtain ⟨tag, data⟩ := exists_transfer_of_mem member
    rw [TemplateTx.bytes, data, show (Value.string (toHex (transferExample tag))).joinText =
      toHex (transferExample tag) from rfl, ofHex_toHex]
    exact readExactly_append (length_transferExample tag)

end ZcashSoloPool.WorkManager
