import ZcashSoloPool.Effects.Atomic
import ZcashSoloPool.Rpc.Call
import ZcashSoloPool.WorkManager.GenerateJob

/-!
# Issuing a job from any reply

`generateJob` once more, statement by statement and on the reply as the node
sends it: any JSON value, with members of any kind or none.  Every read of a
member, every conversion and every loop over the reply may throw.  A throw
leaves the current job and the table as they were, since all of them come before
the first write.
-/

namespace ZcashSoloPool.WorkManager.Raw

open ZcashSoloPool.Bytes
open ZcashSoloPool.JavaScript
open ZcashSoloPool.Collections
open ZcashSoloPool.Rpc
open ZcashSoloPool.Effects

/-- What the work manager calls: its packages, the conversions of numbers, and
`Buffer.from(_, "hex")` of an array or an object, with `none` where it throws. -/
structure Environment where
  deps : Externals
  numbers : NumberFormat
  bufferFromObject : Json → Option (List UInt8)

/-! ## Reading a reply -/

/-- An error that carries a message only. -/
def thrown (message : String) : RpcError :=
  ⟨message.toList, none⟩

/-- An error of a package or of a helper. -/
def rethrown {α : Type} : Except String α → Except RpcError α
  | .ok value => .ok value
  | .error message => .error (thrown message)

/-- A value that is `undefined` or holds JSON, as a condition. -/
def truthy (value : Option Json) : Bool :=
  value.any Json.truthy

/-- The operator `||`. -/
def orElse (left right : Option Json) : Option Json :=
  if truthy left then left else right

/-- `value.name`; reading a member of `undefined` or `null` throws. -/
def read (value : Option Json) (name : String) : Except RpcError (Option Json) :=
  match value with
  | none => .error (thrown ("Cannot read properties of undefined (reading '" ++ name ++ "')"))
  | some .null => .error (thrown ("Cannot read properties of null (reading '" ++ name ++ "')"))
  | some json => .ok (json.member name)

/-- `value && value.name`. -/
def readAnd (value : Option Json) (name : String) : Except RpcError (Option Json) :=
  if truthy value then read value name else .ok value

/-- `String(_)`, which a regular expression applies to what it tests. -/
def toText (env : Environment) : Option Json → Except RpcError Text
  | none => .ok "undefined".toList
  | some json =>
      match json.toText? env.numbers with
      | some text => .ok text
      | none => .error conversionError

/-- `Number(_) >>> 0`: what is not finite is zero, and a fraction is cut off. -/
def toUint32 (env : Environment) : Option Json → Except RpcError Int
  | none => .ok 0
  | some json =>
      match json.toNumber? env.numbers with
      | some (some value) => .ok (value.num.tdiv value.den % 2 ^ 32)
      | some none => .ok 0
      | none => .error conversionError

/-- `Buffer.from(_, "hex")`. -/
def bufferFromHex (env : Environment) (value : Option Json) : Except RpcError (List UInt8) :=
  let bytes :=
    match value with
    | some (.string text) => some (ofHex text)
    | some (.array elements) => env.bufferFromObject (.array elements)
    | some (.object members) => env.bufferFromObject (.object members)
    | _ => none
  match bytes with
  | some bytes => .ok bytes
  | none => .error (thrown "The first argument must be of type string or an instance of Buffer")

/-- `reverseHex` of a value. -/
def reverseHexOf (env : Environment) (value : Option Json) : Except RpcError Text := do
  let bytes ← bufferFromHex env value
  pure (toHex bytes.reverse)

/-- What `for … of` runs over: the elements of an array, the characters of a
string, and nothing else. -/
def iterate : Option Json → Except RpcError (List Json)
  | some (.array elements) => .ok elements
  | some (.string text) => .ok (text.map fun c => .string [c])
  | _ => .error (thrown "txs is not iterable")

/-! ## The coinbase and the Merkle root -/

/-- `template.coinbasetxn.data`, where all three of its conditions hold. -/
def coinbaseData (template : Option Json) : Option Text :=
  match (template.bind (Json.member "coinbasetxn")).bind (Json.member "data") with
  | some (.string data) => some data
  | _ => none

/-- `getCoinbaseFromTemplate`. -/
def getCoinbaseFromTemplate (env : Environment) (walletAddress : Text) (template : Option Json) :
    Except RpcError Text :=
  if walletAddress.isEmpty then
    .error (thrown "walletAddress is required for coinbase validation")
  else
    match coinbaseData template with
    | none =>
        .error (thrown "getblocktemplate did not provide coinbasetxn.data (zebrad required)")
    | some data =>
        match normalizeHexField (.string data) false 2000000 with
        | none => .error (thrown "coinbasetxn.data is not valid hex")
        | some provided => do
            let expectedScript ← rethrown (buildP2PKHScript env.deps walletAddress)
            if includesScript expectedScript provided then pure provided
            else .error (thrown ("coinbasetxn does not pay configured walletAddress; " ++
              "aborting to prevent misdirected rewards"))

/-- The leaf of the coinbase. -/
def coinbaseLeaf (env : Environment) (coinbaseTxHex : Text) (coinbaseTxid : Option Json) :
    Except RpcError (List UInt8) :=
  if truthy coinbaseTxid then do
    let text ← toText env coinbaseTxid
    if isHash64 text then do
      let bytes ← bufferFromHex env coinbaseTxid
      pure bytes.reverse
    else pure (env.deps.doubleHash (ofHex coinbaseTxHex))
  else pure (env.deps.doubleHash (ofHex coinbaseTxHex))

/-- The leaf of a transaction. -/
def txLeaf (env : Environment) (t : Json) : Except RpcError (List UInt8) := do
  let hash ← read (some t) "hash"
  let txid ← read (some t) "txid"
  let h ← toText env (orElse (orElse hash txid) (some (.string [])))
  if isHash64 h then pure (ofHex h).reverse
  else .error (thrown "Template tx missing valid hash/txid")

/-- `calculateFullMerkleRoot`. -/
def calculateFullMerkleRoot (env : Environment) (coinbaseTxHex : Text)
    (txs coinbaseTxid : Option Json) : Except RpcError Text := do
  let cbHash ← coinbaseLeaf env coinbaseTxHex coinbaseTxid
  let elements ← iterate (orElse txs (some (.array [])))
  let txHashes ← elements.mapM (txLeaf env)
  let leaves := cbHash :: txHashes
  let layer := Merkle.reduce env.deps.hashPair leaves.length leaves
  pure (toHex (layer.headD []).reverse)

/-! ## The state -/

/-- A job.  What the work manager passes on unread is whatever the reply holds. -/
structure Job where
  jobId : Text
  version : Text
  prevhash : Option Json
  merkleRoot : Text
  reserved : Option Json
  ntime : Text
  nbits : Option Json
  cleanJobs : Bool
  height : Option Json
  target : Option Json
  versionLE : Text
  prevhashLE : Text
  merkleRootLE : Text
  ntimeLE : Text
  versionBE : Text
  prevhashBE : Option Json
  merkleRootBE : Text
  reservedBE : Option Json
  reservedLE : Text
  merkleRootLEForNotify : Text
  prevhashLEForNotify : Text
  versionLEForNotify : Text
  coinbaseTx : Text
  template : Option Json

/-- The operator `===` between members of two replies.  An array or an object of
one reply is never that of another. -/
def strictEq : Option Json → Option Json → Bool
  | none, none => true
  | some .null, some .null => true
  | some (.bool left), some (.bool right) => left == right
  | some (.number left), some (.number right) => decide (left = right)
  | some (.infinity left), some (.infinity right) => left == right
  | some (.string left), some (.string right) => decide (left = right)
  | _, _ => false

/-- The job table, which never holds more than 64 jobs. -/
structure JobTable where
  jobs : OrderedMap Text Job
  small : jobs.size ≤ 64

/-- The fields of the work manager that `generateJob` reads or writes. -/
structure Manager where
  walletAddress : Text
  currentJob : Option Job
  table : JobTable
  jobCounter : Nat

/-- `this.jobs.clear()` where the call asks for it, and `this.jobs.set`. -/
def withJob (jobs : OrderedMap Text Job) (cleanJobs : Bool) (job : Job) : OrderedMap Text Job :=
  (if cleanJobs then .empty else jobs).set job.jobId job

/-- Other jobs that are not of the same height are deleted. -/
def ofHeight (jobs : OrderedMap Text Job) (job : Job) : OrderedMap Text Job :=
  jobs.filter fun id j => decide (id = job.jobId) || strictEq j.height job.height

theorem size_withJob {jobs : OrderedMap Text Job} (small : jobs.size ≤ 64) (cleanJobs : Bool)
    (job : Job) : (withJob jobs cleanJobs job).size ≤ 65 := by
  have before : (if cleanJobs then OrderedMap.empty else jobs).size ≤ 64 := by
    split
    · exact Nat.zero_le _
    · exact small
  exact (OrderedMap.size_set_le _ job.jobId job).trans (Nat.succ_le_succ before)

/-- What `generateJob` does to the table.  In the end the oldest of more than 64
jobs is deleted. -/
def JobTable.put (table : JobTable) (cleanJobs : Bool) (job : Job) : JobTable where
  jobs := (ofHeight (withJob table.jobs cleanJobs job) job).trim 64
  small := OrderedMap.size_trim_le
    ((OrderedMap.size_filter_le _ _).trans (size_withJob table.small cleanJobs job))

/-- The writes of `generateJob`. -/
def Manager.issue (manager : Manager) (cleanJobs : Bool) (job : Job) : Manager :=
  { manager with currentJob := some job, table := manager.table.put cleanJobs job }

/-- `++this.jobCounter`. -/
def Manager.count (manager : Manager) : Manager :=
  { manager with jobCounter := manager.jobCounter + 1 }

/-! ## `generateJob` -/

/-- The body of `generateJob`, from the moment `getBlockTemplate` has answered.
The counter is read after it was advanced. -/
def generateJob (env : Environment) (reply : Except RpcError (Option Json)) (cleanJobs : Bool) :
    EStateM RpcError Manager Job := do
  let template ← lift reply
  modify Manager.count
  let manager ← get
  let jobId := hexText manager.jobCounter

  let coinbaseTx ← lift (getCoinbaseFromTemplate env manager.walletAddress template)
  let coinbasetxn ← lift (read template "coinbasetxn")
  let coinbaseTxid ← lift (readAnd coinbasetxn "hash")
  let transactions ← lift (read template "transactions")
  let merkleRootBE ← lift (calculateFullMerkleRoot env coinbaseTx transactions coinbaseTxid)

  let version ← lift (read template "version")
  let versionNumber ← lift (toUint32 env version)
  let versionLE := uint32ToHex versionNumber
  let versionBE := reverseHex versionLE

  let prevhashBE ← lift (read template "previousblockhash")
  let prevhashLE ← lift (reverseHexOf env prevhashBE)

  let curtime ← lift (read template "curtime")
  let time ← lift (toUint32 env curtime)
  let ntimeBE := padStart 8 (hexText time.toNat)
  let ntimeLE := reverseHex ntimeBE

  let blockcommitmentshash ← lift (read template "blockcommitmentshash")
  let lightclientroothash ← lift (read template "lightclientroothash")
  let finalsaplingroothash ← lift (read template "finalsaplingroothash")
  let reserved := orElse (orElse (orElse blockcommitmentshash lightclientroothash)
    finalsaplingroothash) (some (.string (List.replicate 64 '0')))
  let bits ← lift (read template "bits")
  let height ← lift (read template "height")
  let target ← lift (read template "target")
  let reservedLE ← lift (reverseHexOf env reserved)
  let job : Job :=
    { jobId := jobId
      version := versionLE
      prevhash := prevhashBE
      merkleRoot := merkleRootBE
      reserved := reserved
      ntime := ntimeBE
      nbits := bits
      cleanJobs := cleanJobs
      height := height
      target := target
      versionLE := versionLE
      prevhashLE := prevhashLE
      merkleRootLE := reverseHex merkleRootBE
      ntimeLE := ntimeLE
      versionBE := versionBE
      prevhashBE := prevhashBE
      merkleRootBE := merkleRootBE
      reservedBE := reserved
      reservedLE := reservedLE
      merkleRootLEForNotify := reverseHex merkleRootBE
      prevhashLEForNotify := prevhashLE
      versionLEForNotify := versionLE
      coinbaseTx := coinbaseTx
      template := template }

  modify fun manager => manager.issue cleanJobs job
  pure job

/-! ## The table keeps the new job -/

/-- In a table that was not too large before, either the key was known and
nothing is deleted, or the new job stands at the end. -/
theorem get?_put_self (table : JobTable) (cleanJobs : Bool) (job : Job) :
    (table.put cleanJobs job).jobs.get? job.jobId = some job := by
  change ((ofHeight (withJob table.jobs cleanJobs job) job).trim 64).get? job.jobId = some job
  unfold withJob
  generalize baseEq : (if cleanJobs then OrderedMap.empty else table.jobs) = base
  have room : base.size ≤ 64 := by
    rw [← baseEq]
    split
    · exact Nat.zero_le _
    · exact table.small
  by_cases known : job.jobId ∈ base.entries.map Prod.fst
  · have small : (ofHeight (base.set job.jobId job) job).size ≤ 64 := by
      apply (OrderedMap.size_filter_le _ _).trans
      rw [OrderedMap.size_set_of_mem job known]
      exact room
    rw [OrderedMap.trim, if_neg (Nat.not_lt_of_le small)]
    exact OrderedMap.get?_filter_eq_some_iff.mpr ⟨OrderedMap.get?_set_self _ _ _, by simp⟩
  · obtain ⟨front, last⟩ := OrderedMap.exists_entries_filter_set known job
      (fun id j => decide (id = job.jobId) || strictEq j.height job.height) (by simp)
    exact OrderedMap.get?_trim_of_last (by decide) last

/-! ## Atomicity -/

/-- Nothing is different, except that the counter may have advanced. -/
structure OnlyCounted (before after : Manager) : Prop where
  walletAddress : after.walletAddress = before.walletAddress
  currentJob : after.currentJob = before.currentJob
  table : after.table = before.table
  jobCounter : after.jobCounter = before.jobCounter ∨ after.jobCounter = before.jobCounter + 1

instance : Std.Refl OnlyCounted where
  refl _ := ⟨rfl, rfl, rfl, Or.inl rfl⟩

theorem moves_count :
    Moves OnlyCounted (modify Manager.count : EStateM RpcError Manager PUnit) :=
  fun _ => ⟨rfl, rfl, rfl, Or.inr rfl⟩

/-- Up to the first write there are only reads that may throw, and after it
nothing throws. -/
theorem atomic_generateJob (env : Environment) (reply : Except RpcError (Option Json))
    (cleanJobs : Bool) : Atomic OnlyCounted (generateJob env reply cleanJobs) := by
  unfold generateJob
  refine Reads.bind_atomic (reads_lift _) fun template => ?_
  refine Moves.bind_atomic moves_count fun _ => ?_
  refine Reads.bind_atomic reads_get fun manager => ?_
  refine Reads.bind_atomic (reads_lift _) fun coinbaseTx => ?_
  refine Reads.bind_atomic (reads_lift _) fun coinbasetxn => ?_
  refine Reads.bind_atomic (reads_lift _) fun coinbaseTxid => ?_
  refine Reads.bind_atomic (reads_lift _) fun transactions => ?_
  refine Reads.bind_atomic (reads_lift _) fun merkleRootBE => ?_
  refine Reads.bind_atomic (reads_lift _) fun version => ?_
  refine Reads.bind_atomic (reads_lift _) fun versionNumber => ?_
  refine Reads.bind_atomic (reads_lift _) fun prevhashBE => ?_
  refine Reads.bind_atomic (reads_lift _) fun prevhashLE => ?_
  refine Reads.bind_atomic (reads_lift _) fun curtime => ?_
  refine Reads.bind_atomic (reads_lift _) fun time => ?_
  refine Reads.bind_atomic (reads_lift _) fun blockcommitmentshash => ?_
  refine Reads.bind_atomic (reads_lift _) fun lightclientroothash => ?_
  refine Reads.bind_atomic (reads_lift _) fun finalsaplingroothash => ?_
  refine Reads.bind_atomic (reads_lift _) fun bits => ?_
  refine Reads.bind_atomic (reads_lift _) fun height => ?_
  refine Reads.bind_atomic (reads_lift _) fun target => ?_
  refine Reads.bind_atomic (reads_lift _) fun reservedLE => ?_
  -- The first write.
  exact ((completes_modify _).bind fun _ => completes_pure _).atomic

/-- The job that is put in the state is the one that is returned. -/
theorem ensures_issue (cleanJobs : Bool) (job : Job) :
    Ensures (do modify (Manager.issue · cleanJobs job); pure job : EStateM RpcError Manager Job)
      fun job after =>
        after.currentJob = some job ∧ after.table.jobs.get? job.jobId = some job := by
  intro state value target returned
  cases returned
  exact ⟨rfl, get?_put_self state.table cleanJobs job⟩

theorem ensures_generateJob (env : Environment) (reply : Except RpcError (Option Json))
    (cleanJobs : Bool) :
    Ensures (generateJob env reply cleanJobs) fun job after =>
      after.currentJob = some job ∧ after.table.jobs.get? job.jobId = some job := by
  unfold generateJob
  iterate 21 refine Ensures.bind fun _ => ?_
  exact ensures_issue cleanJobs _

/-- For every state and every reply a call either returns a job that is the
current one and stands in the table under its id, or throws with the current job
and the table as they were; the counter alone may have advanced. -/
theorem generateJob_allOrNothing (env : Environment) (reply : Except RpcError (Option Json))
    (cleanJobs : Bool) (manager : Manager) :
    match generateJob env reply cleanJobs manager with
    | .ok job after => after.currentJob = some job ∧ after.table.jobs.get? job.jobId = some job
    | .error _ after => OnlyCounted manager after := by
  cases outcome : generateJob env reply cleanJobs manager with
  | ok job after => exact ensures_generateJob env reply cleanJobs manager job after outcome
  | error error after => exact atomic_generateJob env reply cleanJobs manager error after outcome

end ZcashSoloPool.WorkManager.Raw
