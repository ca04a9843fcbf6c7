import ZcashSoloPool.WorkManager.Encoding
import ZcashSoloPool.WorkManager.Template
import ZcashSoloPool.Merkle.Tree
import Mathlib.Data.List.Infix

/-!
# Issuing a job

`generateJob` of the work manager: fetch a template, check that its coinbase
pays the wallet, compute the Merkle root, build the job record, and put it in
the job table.  An error anywhere before the table leaves everything but the
job counter as it was.
-/

namespace ZcashSoloPool.WorkManager

open ZcashSoloPool.Bytes
open ZcashSoloPool.JavaScript

/-! ## The coinbase -/

/-- The transparent address versions that `buildP2PKHScript` knows. -/
def allowed : List Text :=
  ["1cb8".toList, "1cbd".toList, "1d25".toList, "1cba".toList]

/-- `buildP2PKHScript`; `none` is the source's `null`. -/
def buildP2PKHScript (deps : Externals) (address : Text) : Except String (Option Text) :=
  match deps.bs58checkDecode address with
  | .error message => .error message
  | .ok decoded =>
      if decoded.length < 22 then .ok none
      else
        let version := toHex (decoded.take 2)
        let hash160 := toHex (decoded.drop 2)
        if !allowed.contains version then
          .error "walletAddress must be a transparent t-address (p2pkh or p2sh)"
        else if version ≠ "1cb8".toList ∧ version ≠ "1d25".toList then
          .error "Only P2PKH transparent addresses (t1/tm) are supported for payouts"
        else
          .ok (some ("76a914".toList ++ hash160 ++ "88ac".toList))

/-- The text of `coinbasetxn.data` as the work manager goes on to use it. -/
def coinbaseText (template : Option BlockTemplate) : Except String Text :=
  match (template.bind BlockTemplate.coinbasetxn).map CoinbaseTxn.data with
  | some (.string data) =>
      match normalizeHexField (.string data) false 2000000 with
      | some provided => .ok provided
      | none => .error "coinbasetxn.data is not valid hex"
  | _ => .error "getblocktemplate did not provide coinbasetxn.data (zebrad required)"

/-- The test `provided.toLowerCase().includes(expectedScript.toLowerCase())`,
skipped when there is no script. -/
def includesScript (expectedScript : Option Text) (provided : Text) : Bool :=
  match expectedScript with
  | some script => decide (toLowerCase script <:+: toLowerCase provided)
  | none => true

/-- `getCoinbaseFromTemplate`. -/
def getCoinbaseFromTemplate (deps : Externals) (walletAddress : Text)
    (template : Option BlockTemplate) : Except String Text :=
  if walletAddress.isEmpty then .error "walletAddress is required for coinbase validation"
  else do
    let provided ← coinbaseText template
    let expectedScript ← buildP2PKHScript deps walletAddress
    if includesScript expectedScript provided then pure provided
    else .error ("coinbasetxn does not pay configured walletAddress; " ++
      "aborting to prevent misdirected rewards")

/-! ## The Merkle root -/

/-- The test `/^[0-9a-fA-F]{64}$/`. -/
def isHash64 (text : Text) : Bool :=
  text.length == 64 && text.all fun c => (hexValue c).isSome

/-- The leaf of the coinbase: its id where the template has one, and otherwise
the hash of its bytes. -/
def coinbaseLeaf (deps : Externals) (coinbaseTxHex : Text) (coinbaseTxid : Value) :
    Except String (List UInt8) :=
  if coinbaseTxid.truthy && isHash64 coinbaseTxid.toText then do
    let bytes ← coinbaseTxid.bufferFromHex
    pure bytes.reverse
  else .ok (deps.doubleHash (ofHex coinbaseTxHex))

/-- The text `String(t.hash || t.txid || "")`. -/
def TemplateTx.hashText (t : TemplateTx) : Text :=
  ((t.hash.or t.txid).or (.string [])).toText

/-- The leaf of a transaction of the template. -/
def txLeaf : Option TemplateTx → Except String (List UInt8)
  | none => .error "Cannot read properties of null (reading 'hash')"
  | some t =>
      if isHash64 t.hashText then .ok (ofHex t.hashText).reverse
      else .error "Template tx missing valid hash/txid"

/-- Hash of two neighbours of a layer. -/
def Externals.hashPair (deps : Externals) (left right : List UInt8) : List UInt8 :=
  deps.doubleHash (left ++ right)

/-- `calculateFullMerkleRoot`. -/
def calculateFullMerkleRoot (deps : Externals) (coinbaseTxHex : Text)
    (txs : List (Option TemplateTx)) (coinbaseTxid : Value) : Except String Text := do
  let cbHash ← coinbaseLeaf deps coinbaseTxHex coinbaseTxid
  let txHashes ← txs.mapM txLeaf
  let leaves := cbHash :: txHashes
  let layer := Merkle.reduce deps.hashPair leaves.length leaves
  pure (toHex (layer.headD []).reverse)

/-! ## The job -/

/-- The chain of `||` that selects the reserved field. -/
def BlockTemplate.reserved (template : BlockTemplate) : Value :=
  template.blockcommitmentshash.or (template.lightclientroothash.or
    (template.finalsaplingroothash.or (.string (List.replicate 64 '0'))))

/-- `template.transactions || []`, which throws in the loop when it is not
iterable. -/
def BlockTemplate.txs (template : BlockTemplate) : Except String (List (Option TemplateTx)) :=
  match template.transactions with
  | some transactions => .ok transactions.elements
  | none => .error "object is not iterable"

/-- `template.coinbasetxn && template.coinbasetxn.hash`. -/
def BlockTemplate.coinbaseTxid (template : BlockTemplate) : Value :=
  match template.coinbasetxn with
  | some coinbase => coinbase.hash
  | none => .undefined

/-- The job record, from the template and the texts computed from it. -/
def jobRecord (template : BlockTemplate) (jobId : Text) (cleanJobs : Bool)
    (coinbaseTx merkleRootBE prevhashLE reservedLE : Text) : Job :=
  let versionLE := uint32ToHex template.version
  let ntimeBE := padStart 8 (hexText (template.curtime % 2 ^ 32).toNat)
  { jobId := jobId
    version := versionLE
    prevhash := template.previousblockhash
    merkleRoot := merkleRootBE
    reserved := template.reserved
    ntime := ntimeBE
    nbits := template.bits
    cleanJobs := cleanJobs
    height := template.height
    target := template.target
    versionLE := versionLE
    prevhashLE := prevhashLE
    merkleRootLE := reverseHex merkleRootBE
    ntimeLE := reverseHex ntimeBE
    versionBE := reverseHex versionLE
    prevhashBE := template.previousblockhash
    merkleRootBE := merkleRootBE
    reservedBE := template.reserved
    reservedLE := reservedLE
    merkleRootLEForNotify := reverseHex merkleRootBE
    prevhashLEForNotify := prevhashLE
    versionLEForNotify := versionLE
    coinbaseTx := coinbaseTx
    template := template }

/-- The body of `generateJob` up to the job record. -/
def buildJob (deps : Externals) (walletAddress jobId : Text) (cleanJobs : Bool)
    (reply : Option BlockTemplate) : Except String Job := do
  let coinbaseTx ← getCoinbaseFromTemplate deps walletAddress reply
  match reply with
  | none => .error "Cannot read properties of null (reading 'coinbasetxn')"
  | some template => do
      let txs ← template.txs
      let merkleRootBE ← calculateFullMerkleRoot deps coinbaseTx txs template.coinbaseTxid
      let prevhashLE ← reverseHexValue template.previousblockhash
      let reservedLE ← reverseHexValue template.reserved
      pure (jobRecord template jobId cleanJobs coinbaseTx merkleRootBE prevhashLE reservedLE)

/-! ## The job table -/

/-- Put a job in the table: a clean job empties it first, jobs of another
height go, and a table of more than 64 jobs loses its oldest. -/
def issueJob (manager : WorkManager) (job : Job) : WorkManager :=
  let jobs := if job.cleanJobs then .empty else manager.jobs
  let jobs := jobs.set job.jobId job
  let jobs := jobs.filter fun id j => decide (id = job.jobId) || decide (j.height = job.height)
  let jobs := if jobs.size > 64 then jobs.deleteOldest else jobs
  { manager with currentJob := some job, jobs := jobs }

/-- `generateJob` from the moment `getBlockTemplate` has answered. -/
def generateJob (deps : Externals) (manager : WorkManager) (cleanJobs : Bool)
    (reply : Except String (Option BlockTemplate)) : WorkManager × Except String Job :=
  match reply with
  | .error message => (manager, .error message)
  | .ok template =>
      let counted := { manager with jobCounter := manager.jobCounter + 1 }
      match buildJob deps counted.walletAddress (hexText counted.jobCounter) cleanJobs template with
      | .error message => (counted, .error message)
      | .ok job => (issueJob counted job, .ok job)

/-! ## What an issued job is -/

theorem coinbaseText_eq_ok {reply : Option BlockTemplate} {provided : Text}
    (text : coinbaseText reply = .ok provided) : IsHexBytes provided := by
  unfold coinbaseText at text
  split at text
  · split at text
    · next normalized =>
        cases text
        exact (normalizeHexField_eq_some normalized).1
    · contradiction
  · contradiction

/-- The coinbase that a job gets is the normalised text of the template, once
it passed the test for the wallet's script. -/
theorem getCoinbaseFromTemplate_eq_ok {deps : Externals} {walletAddress : Text}
    {reply : Option BlockTemplate} {coinbaseTx : Text} :
    getCoinbaseFromTemplate deps walletAddress reply = .ok coinbaseTx ↔
      walletAddress ≠ [] ∧ coinbaseText reply = .ok coinbaseTx ∧
        ∃ script, buildP2PKHScript deps walletAddress = .ok script ∧
          includesScript script coinbaseTx = true := by
  unfold getCoinbaseFromTemplate
  cases walletAddress with
  | nil => simp
  | cons c rest =>
      simp only [List.isEmpty_cons, Bool.false_eq_true, if_false, bind_eq_ok, ne_eq,
        List.cons_ne_nil, not_false_eq_true, true_and]
      constructor
      · rintro ⟨provided, text, script, scriptEq, tested⟩
        split at tested
        · next included =>
            cases tested
            exact ⟨text, script, scriptEq, included⟩
        · contradiction
      · rintro ⟨text, script, scriptEq, included⟩
        exact ⟨coinbaseTx, text, script, scriptEq, by rw [if_pos included]; rfl⟩

/-- The Merkle root of a job is spelled from the root over its leaves. -/
theorem calculateFullMerkleRoot_eq_ok {deps : Externals} {coinbaseTxHex root : Text}
    {txs : List (Option TemplateTx)} {coinbaseTxid : Value} :
    calculateFullMerkleRoot deps coinbaseTxHex txs coinbaseTxid = .ok root ↔
      ∃ cbHash, coinbaseLeaf deps coinbaseTxHex coinbaseTxid = .ok cbHash ∧
        ∃ txHashes, txs.mapM txLeaf = .ok txHashes ∧
          ∃ top, Merkle.root deps.hashPair (cbHash :: txHashes) = some top ∧
            root = toHex top.reverse := by
  simp only [calculateFullMerkleRoot, bind_eq_ok]
  refine exists_congr fun cbHash => and_congr_right fun _ => exists_congr fun txHashes =>
    and_congr_right fun _ => ?_
  obtain ⟨top, reduced, topEq⟩ := Merkle.reduce_eq_root deps.hashPair
    (List.cons_ne_nil cbHash txHashes) (Nat.le_succ _)
  rw [reduced, topEq]
  constructor
  · rintro ⟨⟩
    exact ⟨top, rfl, rfl⟩
  · rintro ⟨other, same, rfl⟩
    cases same
    rfl

theorem txLeaf_isOk_iff {t : Option TemplateTx} :
    (∃ leaf, txLeaf t = .ok leaf) ↔ ∃ tx, t = some tx ∧ isHash64 tx.hashText = true := by
  cases t with
  | none => simp [txLeaf]
  | some tx =>
      by_cases hash : isHash64 tx.hashText = true <;> simp [txLeaf, hash]

theorem mapM_isOk_iff {α β : Type} {f : α → Except String β} {items : List α} :
    (∃ results, items.mapM f = .ok results) ↔ ∀ item ∈ items, ∃ result, f item = .ok result := by
  induction items with
  | nil => simp [pure, Except.pure]
  | cons item rest ih =>
      rw [List.forall_mem_cons, ← ih]
      simp only [List.mapM_cons, bind_eq_ok]
      constructor
      · rintro ⟨_, result, first, results, later, _⟩
        exact ⟨⟨result, first⟩, ⟨results, later⟩⟩
      · rintro ⟨⟨result, first⟩, ⟨results, later⟩⟩
        exact ⟨_, result, first, results, later, rfl⟩

/-- A job is built from a template whose every part was readable. -/
theorem buildJob_eq_ok {deps : Externals} {walletAddress jobId : Text} {cleanJobs : Bool}
    {reply : Option BlockTemplate} {job : Job} :
    buildJob deps walletAddress jobId cleanJobs reply = .ok job ↔
      ∃ template coinbaseTx txs merkleRootBE prevhashLE reservedLE, reply = some template ∧
        getCoinbaseFromTemplate deps walletAddress (some template) = .ok coinbaseTx ∧
        template.txs = .ok txs ∧
        calculateFullMerkleRoot deps coinbaseTx txs template.coinbaseTxid = .ok merkleRootBE ∧
        reverseHexValue template.previousblockhash = .ok prevhashLE ∧
        reverseHexValue template.reserved = .ok reservedLE ∧
        job = jobRecord template jobId cleanJobs coinbaseTx merkleRootBE prevhashLE reservedLE := by
  cases reply with
  | none => simp [buildJob, bind_eq_ok]
  | some template =>
      simp only [buildJob, bind_eq_ok]
      constructor
      · rintro ⟨coinbaseTx, coinbase, txs, txsEq, merkleRootBE, merkle, prevhashLE, prevhash,
          reservedLE, reserved, ⟨⟩⟩
        exact ⟨template, coinbaseTx, txs, merkleRootBE, prevhashLE, reservedLE, rfl, coinbase,
          txsEq, merkle, prevhash, reserved, rfl⟩
      · rintro ⟨_, coinbaseTx, txs, merkleRootBE, prevhashLE, reservedLE, ⟨⟩, coinbase, txsEq,
          merkle, prevhash, reserved, rfl⟩
        exact ⟨coinbaseTx, coinbase, txs, txsEq, merkleRootBE, merkle, prevhashLE, prevhash,
          reservedLE, reserved, rfl⟩

/-- The three outcomes of a call: the node's reply was an error, the template
was refused, or a job was issued under the next number. -/
theorem generateJob_cases (deps : Externals) (manager : WorkManager) (cleanJobs : Bool)
    (reply : Except String (Option BlockTemplate)) :
    (∃ message, generateJob deps manager cleanJobs reply = (manager, .error message)) ∨
    (∃ message, generateJob deps manager cleanJobs reply =
      ({ manager with jobCounter := manager.jobCounter + 1 }, .error message)) ∨
    (∃ template job, reply = .ok template ∧
      buildJob deps manager.walletAddress (hexText (manager.jobCounter + 1)) cleanJobs template =
        .ok job ∧
      generateJob deps manager cleanJobs reply =
        (issueJob { manager with jobCounter := manager.jobCounter + 1 } job, .ok job)) := by
  cases reply with
  | error message => exact Or.inl ⟨message, rfl⟩
  | ok template =>
      cases built : buildJob deps manager.walletAddress (hexText (manager.jobCounter + 1))
          cleanJobs template with
      | error message => exact Or.inr (Or.inl ⟨message, by simp [generateJob, built]⟩)
      | ok job => exact Or.inr (Or.inr ⟨template, job, rfl, built, by simp [generateJob, built]⟩)

/-- An issued job was built from the reply. -/
theorem generateJob_eq_ok {deps : Externals} {manager after : WorkManager} {cleanJobs : Bool}
    {reply : Option BlockTemplate} {job : Job} :
    generateJob deps manager cleanJobs (.ok reply) = (after, .ok job) ↔
      buildJob deps manager.walletAddress (hexText (manager.jobCounter + 1)) cleanJobs reply =
        .ok job ∧
      after = issueJob { manager with jobCounter := manager.jobCounter + 1 } job := by
  cases built : buildJob deps manager.walletAddress (hexText (manager.jobCounter + 1))
      cleanJobs reply with
  | error message => simp [generateJob, built]
  | ok other =>
      simp only [generateJob, built, Prod.mk.injEq, Except.ok.injEq]
      constructor
      · rintro ⟨rfl, rfl⟩
        exact ⟨rfl, rfl⟩
      · rintro ⟨rfl, rfl⟩
        exact ⟨rfl, rfl⟩

end ZcashSoloPool.WorkManager
