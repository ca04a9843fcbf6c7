import ZcashSoloPool.Effects.Agree
import ZcashSoloPool.Collections.RelatedMaps
import ZcashSoloPool.WorkManager.AtomicJob

/-!
# Replies in the types of a template

A reply is plain when its members are of the kinds that a `BlockTemplate` has
room for.  On plain replies the work manager that reads any JSON value and the
one that is given a template throw together and build the same jobs.
-/

namespace ZcashSoloPool.WorkManager.Raw

open ZcashSoloPool.Bytes
open ZcashSoloPool.JavaScript
open ZcashSoloPool.Collections
open ZcashSoloPool.Rpc
open ZcashSoloPool.Effects

/-! ## Plain members -/

/-- The value of a member, unless that is an array, an object or a number
outside the safe range. -/
def plain : Option Json → Option Value
  | none => some .undefined
  | some .null => some .null
  | some (.bool flag) => some (.bool flag)
  | some (.number value) =>
      if whole : value.den = 1 ∧ value.num.natAbs < 2 ^ 53 then
        some (.number ⟨value.num, whole.2⟩)
      else none
  | some (.string text) => some (.string text)
  | some _ => none

/-- Case analysis on what is plain. -/
theorem plain_cases {member : Option Json} {value : Value}
    (plainMember : plain member = some value) :
    (member = none ∧ value = .undefined) ∨ (member = some .null ∧ value = .null) ∨
    (∃ flag, member = some (.bool flag) ∧ value = .bool flag) ∨
    (∃ n : SafeInteger, member = some (.number (n.value : ℚ)) ∧ value = .number n) ∨
    (∃ text, member = some (.string text) ∧ value = .string text) := by
  unfold plain at plainMember
  split at plainMember
  · cases plainMember
    exact Or.inl ⟨rfl, rfl⟩
  · cases plainMember
    exact Or.inr (Or.inl ⟨rfl, rfl⟩)
  · next flag =>
      cases plainMember
      exact Or.inr (Or.inr (Or.inl ⟨flag, rfl, rfl⟩))
  · next number =>
      split at plainMember
      · next whole =>
          cases plainMember
          have cast : number = (number.num : ℚ) := (Rat.coe_int_num_of_den_eq_one whole.1).symm
          exact Or.inr (Or.inr (Or.inr (Or.inl ⟨⟨number.num, whole.2⟩, by rw [← cast], rfl⟩)))
      · contradiction
  · next text =>
      cases plainMember
      exact Or.inr (Or.inr (Or.inr (Or.inr ⟨text, rfl, rfl⟩)))
  · contradiction

theorem truthy_of_plain {member : Option Json} {value : Value}
    (plainMember : plain member = some value) : truthy member = value.truthy := by
  rcases plain_cases plainMember with ⟨rfl, rfl⟩ | ⟨rfl, rfl⟩ | ⟨flag, rfl, rfl⟩ | ⟨n, rfl, rfl⟩ |
    ⟨text, rfl, rfl⟩
  · rfl
  · rfl
  · rfl
  · exact decide_eq_decide.mpr (not_congr Int.cast_eq_zero)
  · rfl

theorem toText_of_plain (env : Environment) {member : Option Json} {value : Value}
    (plainMember : plain member = some value) : toText env member = .ok value.toText := by
  rcases plain_cases plainMember with ⟨rfl, rfl⟩ | ⟨rfl, rfl⟩ | ⟨flag, rfl, rfl⟩ | ⟨n, rfl, rfl⟩ |
    ⟨text, rfl, rfl⟩
  · rfl
  · rfl
  · cases flag <;> rfl
  · exact congrArg Except.ok (env.numbers.write_integer n.value n.safe)
  · rfl

theorem agree_bufferFromHex (env : Environment) {member : Option Json} {value : Value}
    (plainMember : plain member = some value) :
    Agree Eq (bufferFromHex env member) value.bufferFromHex := by
  rcases plain_cases plainMember with ⟨rfl, rfl⟩ | ⟨rfl, rfl⟩ | ⟨flag, rfl, rfl⟩ | ⟨n, rfl, rfl⟩ |
    ⟨text, rfl, rfl⟩
  · exact Agree.threw _ _
  · exact Agree.threw _ _
  · exact Agree.threw _ _
  · exact Agree.threw _ _
  · exact Agree.returned rfl

theorem plain_orElse {left right : Option Json} {value other : Value}
    (plainLeft : plain left = some value) (plainRight : plain right = some other) :
    plain (orElse left right) = some (value.or other) := by
  unfold orElse Value.or
  rw [truthy_of_plain plainLeft]
  split
  · exact plainLeft
  · exact plainRight

theorem value_inj {left right : SafeInteger} : left.value = right.value ↔ left = right := by
  cases left
  cases right
  simp

theorem strictEq_of_plain {left right : Option Json} {value other : Value}
    (plainLeft : plain left = some value) (plainRight : plain right = some other) :
    strictEq left right = decide (value = other) := by
  rcases plain_cases plainRight with ⟨rfl, rfl⟩ | ⟨rfl, rfl⟩ | ⟨flag, rfl, rfl⟩ | ⟨n, rfl, rfl⟩ |
    ⟨text, rfl, rfl⟩ <;>
  rcases plain_cases plainLeft with ⟨rfl, rfl⟩ | ⟨rfl, rfl⟩ | ⟨_, rfl, rfl⟩ | ⟨_, rfl, rfl⟩ |
    ⟨_, rfl, rfl⟩ <;>
  simp [strictEq, value_inj, Bool.beq_eq_decide_eq]

/-! ## The template of a reply -/

/-- An element of `transactions`. -/
def TxShows (element : Json) : Option TemplateTx → Prop
  | none => element.isNull = true
  | some tx =>
      element.isNull = false ∧ plain (element.member "hash") = some tx.hash ∧
        plain (element.member "txid") = some tx.txid ∧ plain (element.member "data") = some tx.data

/-- The member `coinbasetxn`. -/
def CoinbaseShows (coinbase : Option Json) : Option CoinbaseTxn → Prop
  | none => truthy coinbase = false
  | some txn =>
      truthy coinbase = true ∧ plain (coinbase.bind (Json.member "data")) = some txn.data ∧
        plain (coinbase.bind (Json.member "hash")) = some txn.hash

/-- A reply that is plain, with the template it is read as. -/
structure Shows (env : Environment) (reply : Json) (template : BlockTemplate) : Prop where
  isNull : reply.isNull = false
  version : toUint32 env (reply.member "version") = .ok template.version
  previousblockhash : plain (reply.member "previousblockhash") = some template.previousblockhash
  blockcommitmentshash :
    plain (reply.member "blockcommitmentshash") = some template.blockcommitmentshash
  lightclientroothash :
    plain (reply.member "lightclientroothash") = some template.lightclientroothash
  finalsaplingroothash :
    plain (reply.member "finalsaplingroothash") = some template.finalsaplingroothash
  curtime : toUint32 env (reply.member "curtime") = .ok template.curtime
  bits : plain (reply.member "bits") = some template.bits
  height : plain (reply.member "height") = some template.height
  target : plain (reply.member "target") = some template.target
  coinbasetxn : CoinbaseShows (reply.member "coinbasetxn") template.coinbasetxn
  /-- What the loop runs over, or that it throws. -/
  transactions : Agree (List.Forall₂ TxShows)
    (iterate (orElse (reply.member "transactions") (some (.array [])))) template.txs

/-- The reply of the node; `undefined` and `null` have no template. -/
def ReplyShows (env : Environment) (reply : Option Json) : Option BlockTemplate → Prop
  | none => reply = none ∨ reply = some .null
  | some template => ∃ json, reply = some json ∧ Shows env json template

example (env : Environment) :
    Shows env
      (.object [("version".toList, .number 4), ("curtime".toList, .number 7),
        ("height".toList, .number 9), ("transactions".toList, .array [.null])])
      { version := 4
        previousblockhash := .undefined
        blockcommitmentshash := .undefined
        lightclientroothash := .undefined
        finalsaplingroothash := .undefined
        curtime := 7
        bits := .undefined
        height := .number ⟨9, by decide⟩
        target := .undefined
        coinbasetxn := none
        transactions := some ⟨[none], by decide⟩ } where
  isNull := rfl
  version := rfl
  previousblockhash := rfl
  blockcommitmentshash := rfl
  lightclientroothash := rfl
  finalsaplingroothash := rfl
  curtime := rfl
  bits := rfl
  height := rfl
  target := rfl
  coinbasetxn := rfl
  transactions := Agree.returned (List.Forall₂.cons rfl List.Forall₂.nil)

/-! ## What is computed from a reply -/

theorem read_of_not_null {json : Json} (notNull : json.isNull = false) (name : String) :
    read (some json) name = .ok (json.member name) := by
  cases json with
  | null => contradiction
  | _ => rfl

theorem agree_reverseHex (env : Environment) {member : Option Json} {value : Value}
    (plainMember : plain member = some value) :
    Agree Eq (reverseHexOf env member) (reverseHexValue value) := by
  refine Agree.bind (agree_bufferFromHex env plainMember) ?_
  rintro bytes _ rfl
  exact Agree.returned rfl

theorem agree_txLeaf (env : Environment) {element : Json} {tx : Option TemplateTx}
    (shows : TxShows element tx) : Agree Eq (txLeaf env element) (WorkManager.txLeaf tx) := by
  cases tx with
  | none =>
      cases element with
      | null => exact Agree.threw _ _
      | _ => contradiction
  | some tx =>
      obtain ⟨notNull, hash, txid, -⟩ := shows
      have text : toText env (orElse (orElse (element.member "hash") (element.member "txid"))
          (some (.string []))) = .ok tx.hashText :=
        toText_of_plain env (plain_orElse (plain_orElse hash txid) rfl)
      unfold txLeaf WorkManager.txLeaf
      rw [read_of_not_null notNull, read_of_not_null notNull]
      change Agree Eq (toText env _ >>= _) _
      rw [text]
      exact Agree.ite Iff.rfl (fun _ => Agree.returned rfl) fun _ => Agree.threw _ _

theorem agree_coinbaseLeaf (env : Environment) (coinbaseTxHex : Text) {coinbaseTxid : Option Json}
    {value : Value} (plainTxid : plain coinbaseTxid = some value) :
    Agree Eq (coinbaseLeaf env coinbaseTxHex coinbaseTxid)
      (WorkManager.coinbaseLeaf env.deps coinbaseTxHex value) := by
  unfold coinbaseLeaf WorkManager.coinbaseLeaf
  rw [truthy_of_plain plainTxid, toText_of_plain env plainTxid]
  cases value.truthy with
  | false => exact Agree.returned rfl
  | true =>
      change Agree Eq (if isHash64 value.toText = true then _ else _) _
      refine Agree.ite (by rw [Bool.true_and]) (fun _ => ?_) fun _ => Agree.returned rfl
      refine Agree.bind (agree_bufferFromHex env plainTxid) ?_
      rintro bytes _ rfl
      exact Agree.returned rfl

/-- A value that is not used is as good as `undefined`. -/
theorem coinbaseLeaf_of_not_truthy (deps : Externals) (coinbaseTxHex : Text) {value : Value}
    (falsy : value.truthy = false) :
    WorkManager.coinbaseLeaf deps coinbaseTxHex value =
      WorkManager.coinbaseLeaf deps coinbaseTxHex .undefined := by
  rw [WorkManager.coinbaseLeaf, WorkManager.coinbaseLeaf, falsy]
  rfl

/-- A falsy member is plain. -/
theorem exists_plain_of_not_truthy {member : Option Json} (falsy : truthy member = false) :
    ∃ value, plain member = some value ∧ value.truthy = false := by
  have shown : ∃ value, plain member = some value := by
    match member with
    | none => exact ⟨_, rfl⟩
    | some .null => exact ⟨_, rfl⟩
    | some (.bool flag) => exact ⟨_, rfl⟩
    | some (.string text) => exact ⟨_, rfl⟩
    | some (.number value) =>
        have zero : value = 0 := by simpa [truthy, Json.truthy] using falsy
        subst zero
        exact ⟨_, rfl⟩
  obtain ⟨value, plainMember⟩ := shown
  exact ⟨value, plainMember, truthy_of_plain plainMember ▸ falsy⟩

/-- The id of the coinbase, which is read only if there is a coinbase. -/
theorem exists_coinbaseTxid (env : Environment) {coinbase : Option Json} {template : BlockTemplate}
    (shows : CoinbaseShows coinbase template.coinbasetxn) :
    ∃ coinbaseTxid, readAnd coinbase "hash" = .ok coinbaseTxid ∧ ∀ coinbaseTxHex,
      Agree Eq (coinbaseLeaf env coinbaseTxHex coinbaseTxid)
        (WorkManager.coinbaseLeaf env.deps coinbaseTxHex template.coinbaseTxid) := by
  unfold readAnd BlockTemplate.coinbaseTxid
  cases txn : template.coinbasetxn with
  | none =>
      rw [txn] at shows
      obtain ⟨value, plainCoinbase, falsy⟩ := exists_plain_of_not_truthy shows
      refine ⟨coinbase, if_neg (Bool.not_eq_true _ ▸ shows), fun coinbaseTxHex => ?_⟩
      have leaf := agree_coinbaseLeaf env coinbaseTxHex plainCoinbase
      rwa [coinbaseLeaf_of_not_truthy env.deps coinbaseTxHex falsy] at leaf
  | some txn =>
      rw [txn] at shows
      obtain ⟨truth, -, hash⟩ := shows
      cases coinbase with
      | none => contradiction
      | some json =>
          have notNull : json.isNull = false := by
            cases json with
            | null => contradiction
            | _ => rfl
          rw [if_pos truth]
          exact ⟨json.member "hash", read_of_not_null notNull "hash", fun coinbaseTxHex =>
            agree_coinbaseLeaf env coinbaseTxHex hash⟩

/-- The two sides read the list and the id of the coinbase in different orders. -/
theorem agree_calculateFullMerkleRoot (env : Environment) (coinbaseTxHex : Text)
    {txs coinbaseTxid : Option Json} {template : BlockTemplate}
    (leaf : Agree Eq (coinbaseLeaf env coinbaseTxHex coinbaseTxid)
      (WorkManager.coinbaseLeaf env.deps coinbaseTxHex template.coinbaseTxid))
    (iterated : Agree (List.Forall₂ TxShows) (iterate (orElse txs (some (.array []))))
      template.txs) :
    Agree Eq (calculateFullMerkleRoot env coinbaseTxHex txs coinbaseTxid)
      (template.txs >>= fun list =>
        WorkManager.calculateFullMerkleRoot env.deps coinbaseTxHex list template.coinbaseTxid) := by
  unfold calculateFullMerkleRoot WorkManager.calculateFullMerkleRoot
  generalize coinbaseLeaf env coinbaseTxHex coinbaseTxid = first at leaf ⊢
  generalize WorkManager.coinbaseLeaf env.deps coinbaseTxHex template.coinbaseTxid = second
    at leaf ⊢
  generalize iterate (orElse txs (some (.array []))) = elements at iterated ⊢
  generalize template.txs = list at iterated ⊢
  cases iterated with
  | threw error otherError =>
      cases leaf with
      | returned _ => exact Agree.threw _ _
      | threw _ _ => exact Agree.threw _ _
  | returned related =>
      rw [ok_bind]
      refine Agree.bind leaf ?_
      rintro cbHash _ rfl
      rw [ok_bind]
      refine Agree.bind (Agree.mapM related fun _ _ => agree_txLeaf env) ?_
      intro txHashes others same
      rw [List.forall₂_eq_eq_eq] at same
      subst same
      exact Agree.returned rfl

/-- What is falsy has no members. -/
theorem member_of_not_truthy {coinbase : Option Json} (falsy : truthy coinbase = false)
    (name : String) : coinbase.bind (Json.member name) = none := by
  match coinbase with
  | none => rfl
  | some .null => rfl
  | some (.bool _) => rfl
  | some (.number _) => rfl
  | some (.string _) => rfl

/-- The text of the coinbase. -/
theorem coinbaseData_of_shows {env : Environment} {reply : Option Json}
    {template : Option BlockTemplate} (shows : ReplyShows env reply template) :
    coinbaseData reply =
      match (template.bind BlockTemplate.coinbasetxn).map CoinbaseTxn.data with
      | some (.string data) => some data
      | _ => none := by
  unfold coinbaseData
  cases template with
  | none => rcases shows with rfl | rfl <;> rfl
  | some template =>
      obtain ⟨json, rfl, shown⟩ := shows
      have coinbaseShows := shown.coinbasetxn
      rw [Option.bind_some, Option.bind_some]
      cases txn : template.coinbasetxn with
      | none =>
          rw [txn] at coinbaseShows
          rw [member_of_not_truthy coinbaseShows]
          rfl
      | some txn =>
          rw [txn] at coinbaseShows
          obtain ⟨-, data, -⟩ := coinbaseShows
          rcases plain_cases data with ⟨raw, value⟩ | ⟨raw, value⟩ | ⟨_, raw, value⟩ |
            ⟨_, raw, value⟩ | ⟨_, raw, value⟩ <;>
          rw [raw, Option.map_some, value]

theorem agree_rethrown {α : Type} (outcome : Except String α) :
    Agree Eq (rethrown outcome) outcome := by
  cases outcome with
  | ok value => exact Agree.returned rfl
  | error message => exact Agree.threw _ _

theorem agree_getCoinbaseFromTemplate {env : Environment} (walletAddress : Text)
    {reply : Option Json} {template : Option BlockTemplate}
    (shows : ReplyShows env reply template) :
    Agree Eq (getCoinbaseFromTemplate env walletAddress reply)
      (WorkManager.getCoinbaseFromTemplate env.deps walletAddress template) := by
  unfold getCoinbaseFromTemplate WorkManager.getCoinbaseFromTemplate coinbaseText
  refine Agree.ite Iff.rfl (fun _ => Agree.threw _ _) fun _ => ?_
  rw [coinbaseData_of_shows shows]
  generalize (template.bind BlockTemplate.coinbasetxn).map CoinbaseTxn.data = member
  match member with
  | some (.string data) =>
      cases normalized : normalizeHexField (.string data) false 2000000 with
      | none =>
          simp only [normalized]
          exact Agree.threw _ _
      | some provided =>
          simp only [normalized, ok_bind]
          refine Agree.bind (agree_rethrown _) ?_
          rintro script _ rfl
          exact Agree.ite Iff.rfl (fun _ => Agree.returned rfl) fun _ => Agree.threw _ _
  | none | some .undefined | some .null | some (.bool _) | some (.number _)
  | some (.object _ _ _) => exact Agree.threw _ _

/-! ## The job of a reply -/

/-- The body of `generateJob` between the counter and the first write. -/
def buildJob (env : Environment) (walletAddress jobId : Text) (cleanJobs : Bool)
    (template : Option Json) : Except RpcError Job := do
  let coinbaseTx ← getCoinbaseFromTemplate env walletAddress template
  let coinbasetxn ← read template "coinbasetxn"
  let coinbaseTxid ← readAnd coinbasetxn "hash"
  let transactions ← read template "transactions"
  let merkleRootBE ← calculateFullMerkleRoot env coinbaseTx transactions coinbaseTxid
  let version ← read template "version"
  let versionNumber ← toUint32 env version
  let versionLE := uint32ToHex versionNumber
  let versionBE := reverseHex versionLE
  let prevhashBE ← read template "previousblockhash"
  let prevhashLE ← reverseHexOf env prevhashBE
  let curtime ← read template "curtime"
  let time ← toUint32 env curtime
  let ntimeBE := padStart 8 (hexText time.toNat)
  let ntimeLE := reverseHex ntimeBE
  let blockcommitmentshash ← read template "blockcommitmentshash"
  let lightclientroothash ← read template "lightclientroothash"
  let finalsaplingroothash ← read template "finalsaplingroothash"
  let reserved := orElse (orElse (orElse blockcommitmentshash lightclientroothash)
    finalsaplingroothash) (some (.string (List.replicate 64 '0')))
  let bits ← read template "bits"
  let height ← read template "height"
  let target ← read template "target"
  let reservedLE ← reverseHexOf env reserved
  pure
    { jobId := jobId
      version := versionLE
      prevhash := prevhashBE
      merkleRoot := merkleRootBE
      reserved := reserved
      ntime := ntimeBE
      nbits := bits
      cleanJobs := cleanJobs
      height := height
      target := target
      versionLE := versionLE
      prevhashLE := prevhashLE
      merkleRootLE := reverseHex merkleRootBE
      ntimeLE := ntimeLE
      versionBE := versionBE
      prevhashBE := prevhashBE
      merkleRootBE := merkleRootBE
      reservedBE := reserved
      reservedLE := reservedLE
      merkleRootLEForNotify := reverseHex merkleRootBE
      prevhashLEForNotify := prevhashLE
      versionLEForNotify := versionLE
      coinbaseTx := coinbaseTx
      template := template }

/-- The writes stand around what may throw. -/
theorem generateJob_eq (env : Environment) (reply : Except RpcError (Option Json))
    (cleanJobs : Bool) :
    generateJob env reply cleanJobs = (do
      let template ← lift reply
      modify Manager.count
      let manager ← get
      let job ← lift (buildJob env manager.walletAddress (hexText manager.jobCounter) cleanJobs
        template)
      modify fun manager => manager.issue cleanJobs job
      pure job) := by
  simp only [generateJob, buildJob, lift_bind, lift_pure, bind_assoc, pure_bind]

/-- A call that the node answered. -/
theorem generateJob_answered (env : Environment) (template : Option Json) (cleanJobs : Bool)
    (manager : Manager) :
    generateJob env (.ok template) cleanJobs manager =
      match buildJob env manager.walletAddress (hexText (manager.jobCounter + 1)) cleanJobs
          template with
      | .ok job => .ok job (manager.count.issue cleanJobs job)
      | .error error => .error error manager.count := by
  rw [generateJob_eq]
  change EStateM.bind (lift (buildJob env manager.walletAddress (hexText (manager.jobCounter + 1))
    cleanJobs template)) _ manager.count = _
  unfold EStateM.bind
  cases buildJob env manager.walletAddress (hexText (manager.jobCounter + 1)) cleanJobs
      template with
  | ok job => rfl
  | error error => rfl

/-- A job with the job it is read as. -/
structure JobShows (env : Environment) (raw : Job) (job : WorkManager.Job) : Prop where
  jobId : raw.jobId = job.jobId
  version : raw.version = job.version
  prevhash : plain raw.prevhash = some job.prevhash
  merkleRoot : raw.merkleRoot = job.merkleRoot
  reserved : plain raw.reserved = some job.reserved
  ntime : raw.ntime = job.ntime
  nbits : plain raw.nbits = some job.nbits
  cleanJobs : raw.cleanJobs = job.cleanJobs
  height : plain raw.height = some job.height
  target : plain raw.target = some job.target
  versionLE : raw.versionLE = job.versionLE
  prevhashLE : raw.prevhashLE = job.prevhashLE
  merkleRootLE : raw.merkleRootLE = job.merkleRootLE
  ntimeLE : raw.ntimeLE = job.ntimeLE
  versionBE : raw.versionBE = job.versionBE
  prevhashBE : plain raw.prevhashBE = some job.prevhashBE
  merkleRootBE : raw.merkleRootBE = job.merkleRootBE
  reservedBE : plain raw.reservedBE = some job.reservedBE
  reservedLE : raw.reservedLE = job.reservedLE
  merkleRootLEForNotify : raw.merkleRootLEForNotify = job.merkleRootLEForNotify
  prevhashLEForNotify : raw.prevhashLEForNotify = job.prevhashLEForNotify
  versionLEForNotify : raw.versionLEForNotify = job.versionLEForNotify
  coinbaseTx : raw.coinbaseTx = job.coinbaseTx
  template : ReplyShows env raw.template (some job.template)

theorem or_assoc (first second third : Value) :
    (first.or second).or third = first.or (second.or third) := by
  unfold Value.or
  cases truth : first.truthy with
  | true => simp [truth]
  | false => simp

/-- The chain of `||` that selects the reserved field. -/
theorem plain_reserved {env : Environment} {reply : Json} {template : BlockTemplate}
    (shows : Shows env reply template) :
    plain (orElse (orElse (orElse (reply.member "blockcommitmentshash")
      (reply.member "lightclientroothash")) (reply.member "finalsaplingroothash"))
      (some (.string (List.replicate 64 '0')))) = some template.reserved := by
  have chain := plain_orElse (plain_orElse (plain_orElse shows.blockcommitmentshash
    shows.lightclientroothash) shows.finalsaplingroothash)
    (rfl : plain (some (.string (List.replicate 64 '0'))) = _)
  rwa [or_assoc, or_assoc] at chain

/-- A word is its own remainder. -/
theorem toUint32_eq_ok {env : Environment} {member : Option Json} {word : Int}
    (converted : toUint32 env member = .ok word) : word % 2 ^ 32 = word := by
  unfold toUint32 at converted
  split at converted
  · cases converted
    rfl
  · split at converted
    · cases converted
      exact Int.emod_emod_of_dvd _ (dvd_refl _)
    · cases converted
      rfl
    · contradiction

theorem agree_buildJob {env : Environment} (walletAddress jobId : Text) (cleanJobs : Bool)
    {reply : Option Json} {template : Option BlockTemplate}
    (shows : ReplyShows env reply template) :
    Agree (JobShows env) (buildJob env walletAddress jobId cleanJobs reply)
      (WorkManager.buildJob env.deps walletAddress jobId cleanJobs template) := by
  unfold buildJob WorkManager.buildJob
  refine Agree.bind (agree_getCoinbaseFromTemplate walletAddress shows) ?_
  rintro coinbaseTx _ rfl
  cases template with
  | none => rcases shows with rfl | rfl <;> exact Agree.threw _ _
  | some template =>
      obtain ⟨json, rfl, shown⟩ := shows
      obtain ⟨coinbaseTxid, txid, leaf⟩ := exists_coinbaseTxid env shown.coinbasetxn
      simp only [read_of_not_null shown.isNull, ok_bind, txid, shown.version, shown.curtime]
      rw [← bind_assoc template.txs]
      refine Agree.bind (agree_calculateFullMerkleRoot env coinbaseTx (leaf coinbaseTx)
        shown.transactions) ?_
      rintro merkleRootBE _ rfl
      refine Agree.bind (agree_reverseHex env shown.previousblockhash) ?_
      rintro prevhashLE _ rfl
      refine Agree.bind (agree_reverseHex env (plain_reserved shown)) ?_
      rintro reservedLE _ rfl
      have ntime : padStart 8 (hexText template.curtime.toNat) =
          padStart 8 (hexText (template.curtime % 2 ^ 32).toNat) := by
        rw [toUint32_eq_ok shown.curtime]
      exact Agree.returned
        { jobId := rfl
          version := rfl
          prevhash := shown.previousblockhash
          merkleRoot := rfl
          reserved := plain_reserved shown
          ntime := ntime
          nbits := shown.bits
          cleanJobs := rfl
          height := shown.height
          target := shown.target
          versionLE := rfl
          prevhashLE := rfl
          merkleRootLE := rfl
          ntimeLE := congrArg reverseHex ntime
          versionBE := rfl
          prevhashBE := shown.previousblockhash
          merkleRootBE := rfl
          reservedBE := plain_reserved shown
          reservedLE := rfl
          merkleRootLEForNotify := rfl
          prevhashLEForNotify := rfl
          versionLEForNotify := rfl
          coinbaseTx := rfl
          template := ⟨json, rfl, shown⟩ }

end ZcashSoloPool.WorkManager.Raw
