import ZcashSoloPool.WorkManager.GenerateJob
import ZcashSoloPool.Wire.Transaction
import ZcashSoloPool.Crypto.Sha256
import ZcashSoloPool.Equihash.Verifier

/-!
# Payout enforcement

A job is meant to be built only from a coinbase with an output to the wallet's
script.  The test that the work manager makes is a search for the script's
digits in the coinbase text; what it accepts is compared here with the outputs
of the parsed coinbase.
-/

namespace ZcashSoloPool.WorkManager

open ZcashSoloPool.Bytes
open ZcashSoloPool.JavaScript
open ZcashSoloPool.Wire

/-- The script that pays a public key hash. -/
def p2pkhScript (hash160 : List UInt8) : List UInt8 :=
  [0x76, 0xa9, 0x14] ++ hash160 ++ [0x88, 0xac]

/-- The versions of t1 and tm addresses. -/
def p2pkhVersions : List (List UInt8) :=
  [[0x1c, 0xb8], [0x1d, 0x25]]

/-- The address decodes to one of the two versions and a public key hash. -/
structure IsP2PKHAddress (deps : Externals) (address : Text) (hash160 : Vector UInt8 20) :
    Prop where
  nonempty : address ≠ []
  decodes : ∃ version ∈ p2pkhVersions,
    deps.bs58checkDecode address = .ok (version ++ hash160.toList)

theorem length_of_mem_p2pkhVersions : ∀ version ∈ p2pkhVersions, version.length = 2 := by
  decide

theorem toHex_of_mem_p2pkhVersions : ∀ version ∈ p2pkhVersions,
    allowed.contains (toHex version) = true ∧
      (toHex version = "1cb8".toList ∨ toHex version = "1d25".toList) := by
  decide

theorem buildP2PKHScript_of_isP2PKHAddress {deps : Externals} {address : Text}
    {hash160 : Vector UInt8 20} (wallet : IsP2PKHAddress deps address hash160) :
    buildP2PKHScript deps address = .ok (some (toHex (p2pkhScript hash160.toList))) := by
  rcases wallet.decodes with ⟨version, member, decodes⟩
  have pair := length_of_mem_p2pkhVersions version member
  have long : ¬(version ++ hash160.toList).length < 22 := by
    rw [List.length_append, Vector.length_toList, pair]
    decide
  have known := toHex_of_mem_p2pkhVersions version member
  have payable : ¬(toHex version ≠ "1cb8".toList ∧ toHex version ≠ "1d25".toList) := by
    rcases known.2 with same | same <;> simp [same]
  have script : toHex (p2pkhScript hash160.toList) =
      "76a914".toList ++ toHex hash160.toList ++ "88ac".toList := by
    simp only [p2pkhScript, toHex_append]
    rfl
  simp only [buildP2PKHScript, decodes, if_neg long, ← pair, List.take_left, List.drop_left,
    known.1, Bool.not_true, Bool.false_eq_true, if_false, if_neg payable, script]

/-- The test for the script is a search for its digits. -/
theorem includesScript_toHex {script : List UInt8} {provided : Text}
    (hex : IsHexBytes provided) :
    includesScript (some (toHex script)) provided = true ↔ toHex script <:+: provided := by
  rw [includesScript, decide_eq_true_iff, toLowerCase_of_isLowerHex (isHexBytes_toHex script).lower,
    toLowerCase_of_isLowerHex hex.lower]

/-! ## Templates that are refused for other reasons -/

/-- Everything that is read of a template besides its coinbase text is
readable. -/
structure Readable (template : BlockTemplate) : Prop where
  transactions : ∃ transactions, template.transactions = some transactions ∧
    ∀ t ∈ transactions.elements, ∃ tx, t = some tx ∧ isHash64 tx.hashText = true
  coinbaseTxid : template.coinbaseTxid.truthy = true →
    isHash64 template.coinbaseTxid.toText = true →
      ∃ bytes, template.coinbaseTxid.bufferFromHex = .ok bytes
  previousblockhash : ∃ bytes, template.previousblockhash.bufferFromHex = .ok bytes
  reserved : ∃ bytes, template.reserved.bufferFromHex = .ok bytes

theorem coinbaseLeaf_isOk_iff (deps : Externals) (coinbaseTxHex : Text) {coinbaseTxid : Value} :
    (∃ cbHash, coinbaseLeaf deps coinbaseTxHex coinbaseTxid = .ok cbHash) ↔
      (coinbaseTxid.truthy = true → isHash64 coinbaseTxid.toText = true →
        ∃ bytes, coinbaseTxid.bufferFromHex = .ok bytes) := by
  unfold coinbaseLeaf
  split
  · next named =>
      rcases Bool.and_eq_true_iff.mp named with ⟨truthy, hash⟩
      simp only [bind_eq_ok]
      constructor
      · rintro ⟨_, bytes, read, _⟩ _ _
        exact ⟨bytes, read⟩
      · intro readable
        rcases readable truthy hash with ⟨bytes, read⟩
        exact ⟨bytes.reverse, bytes, read, rfl⟩
  · next unnamed =>
      refine iff_of_true ⟨_, rfl⟩ fun truthy hash => ?_
      exact absurd (Bool.and_eq_true_iff.mpr ⟨truthy, hash⟩) unnamed

theorem reverseHexValue_isOk_iff {h : Value} :
    (∃ text, reverseHexValue h = .ok text) ↔ ∃ bytes, h.bufferFromHex = .ok bytes := by
  simp only [reverseHexValue, bind_eq_ok]
  constructor
  · rintro ⟨_, bytes, read, _⟩
    exact ⟨bytes, read⟩
  · rintro ⟨bytes, read⟩
    exact ⟨_, bytes, read, rfl⟩

/-- A job is built exactly when the coinbase passes and the rest is
readable. -/
theorem buildJob_isOk_iff {deps : Externals} {walletAddress jobId coinbaseTx : Text}
    {cleanJobs : Bool} {template : BlockTemplate} :
    (∃ job, buildJob deps walletAddress jobId cleanJobs (some template) = .ok job ∧
        job.coinbaseTx = coinbaseTx) ↔
      getCoinbaseFromTemplate deps walletAddress (some template) = .ok coinbaseTx ∧
        Readable template := by
  constructor
  · rintro ⟨job, built, rfl⟩
    obtain ⟨_, coinbaseTx, txs, merkleRootBE, prevhashLE, reservedLE, ⟨⟩, coinbase, txsEq, merkle,
      prevhash, reserved, rfl⟩ := buildJob_eq_ok.mp built
    rcases calculateFullMerkleRoot_eq_ok.mp merkle with ⟨cbHash, cbHashEq, txHashes, txHashesEq, _⟩
    refine ⟨coinbase, ?_, (coinbaseLeaf_isOk_iff _ _).mp ⟨cbHash, cbHashEq⟩,
      reverseHexValue_isOk_iff.mp ⟨_, prevhash⟩, reverseHexValue_isOk_iff.mp ⟨_, reserved⟩⟩
    unfold BlockTemplate.txs at txsEq
    split at txsEq
    · next transactions transactionsEq =>
        cases txsEq
        exact ⟨transactions, transactionsEq, fun t member =>
          txLeaf_isOk_iff.mp (mapM_isOk_iff.mp ⟨txHashes, txHashesEq⟩ t member)⟩
    · contradiction
  · rintro ⟨coinbase, readable⟩
    rcases readable.transactions with ⟨transactions, transactionsEq, hashes⟩
    obtain ⟨cbHash, cbHashEq⟩ := (coinbaseLeaf_isOk_iff deps coinbaseTx).mpr
      readable.coinbaseTxid
    obtain ⟨txHashes, txHashesEq⟩ := mapM_isOk_iff.mpr fun t member =>
      txLeaf_isOk_iff.mpr (hashes t member)
    obtain ⟨top, _, topEq⟩ := Merkle.reduce_eq_root deps.hashPair
      (List.cons_ne_nil cbHash txHashes) (Nat.le_succ _)
    rcases reverseHexValue_isOk_iff.mpr readable.previousblockhash with ⟨prevhashLE, prevhash⟩
    rcases reverseHexValue_isOk_iff.mpr readable.reserved with ⟨reservedLE, reserved⟩
    have merkle := calculateFullMerkleRoot_eq_ok.mpr
      ⟨cbHash, cbHashEq, txHashes, txHashesEq, top, topEq, rfl⟩
    have txsEq : template.txs = .ok transactions.elements := by
      rw [BlockTemplate.txs, transactionsEq]
    exact ⟨_, buildJob_eq_ok.mpr ⟨template, coinbaseTx, _, _, _, _, rfl, coinbase, txsEq, merkle,
      prevhash, reserved, rfl⟩, rfl⟩

/-- A template that the work manager accepts. -/
structure Accepted (deps : Externals) (manager : WorkManager) (template : BlockTemplate) :
    Prop where
  coinbase : ∃ coinbaseTx,
    getCoinbaseFromTemplate deps manager.walletAddress (some template) = .ok coinbaseTx
  readable : Readable template

/-- An accepted template gets a job with its height and with the flag of the
call. -/
theorem exists_generateJob {deps : Externals} {manager : WorkManager} {template : BlockTemplate}
    (accepted : Accepted deps manager template) (cleanJobs : Bool) :
    ∃ job, generateJob deps manager cleanJobs (.ok (some template)) =
        (issueJob { manager with jobCounter := manager.jobCounter + 1 } job, .ok job) ∧
      job.height = template.height ∧ job.cleanJobs = cleanJobs ∧
      job.jobId = hexText (manager.jobCounter + 1) := by
  rcases accepted.coinbase with ⟨coinbaseTx, coinbase⟩
  rcases buildJob_isOk_iff.mpr ⟨coinbase, accepted.readable⟩ with ⟨job, built, _⟩
  refine ⟨job, generateJob_eq_ok.mpr ⟨built, rfl⟩, ?_⟩
  obtain ⟨_, _, _, _, _, _, ⟨⟩, _, _, _, _, _, rfl⟩ := buildJob_eq_ok.mp built
  exact ⟨rfl, rfl, rfl⟩

/-- A job is issued only from an accepted template. -/
theorem accepted_of_generateJob {deps : Externals} {manager after : WorkManager} {cleanJobs : Bool}
    {reply : Except String (Option BlockTemplate)} {job : Job}
    (issued : generateJob deps manager cleanJobs reply = (after, .ok job)) :
    ∃ template, reply = .ok (some template) ∧ Accepted deps manager template ∧
      job.height = template.height := by
  cases reply with
  | error message => cases issued
  | ok reply =>
      have built := (generateJob_eq_ok.mp issued).1
      obtain ⟨template, _, _, _, _, _, rfl, coinbase, _, _, _, _, jobEq⟩ := buildJob_eq_ok.mp built
      have readable := (buildJob_isOk_iff.mp ⟨job, built, rfl⟩).2
      exact ⟨template, rfl, ⟨⟨_, coinbase⟩, readable⟩, by rw [jobEq]; rfl⟩

/-! ## The payout law -/

/-- Every job issued from the template pays the wallet. -/
def JobsPay (deps : Externals) (manager : WorkManager) (hash160 : Vector UInt8 20)
    (cleanJobs : Bool) (template : BlockTemplate) : Prop :=
  ∀ after job, generateJob deps manager cleanJobs (.ok (some template)) = (after, .ok job) →
    PaysTo (p2pkhScript hash160.toList) (ofHex job.coinbaseTx)

/-- A readable template whose coinbase text holds the script's digits somewhere,
but none of whose outputs has that script. -/
structure Misdirected (hash160 : Vector UInt8 20) (template : BlockTemplate) : Prop where
  readable : Readable template
  elsewhere : ∃ text, coinbaseText (some template) = .ok text ∧
    toHex (p2pkhScript hash160.toList) <:+: text ∧
    ¬PaysTo (p2pkhScript hash160.toList) (ofHex text)

theorem getCoinbaseFromTemplate_wallet {deps : Externals} {walletAddress text : Text}
    {hash160 : Vector UInt8 20} (wallet : IsP2PKHAddress deps walletAddress hash160)
    {reply : Option BlockTemplate} :
    getCoinbaseFromTemplate deps walletAddress reply = .ok text ↔
      coinbaseText reply = .ok text ∧ toHex (p2pkhScript hash160.toList) <:+: text := by
  rw [getCoinbaseFromTemplate_eq_ok]
  constructor
  · rintro ⟨_, textEq, script, scriptEq, included⟩
    rw [buildP2PKHScript_of_isP2PKHAddress wallet] at scriptEq
    cases scriptEq
    exact ⟨textEq, (includesScript_toHex (coinbaseText_eq_ok textEq)).mp included⟩
  · rintro ⟨textEq, occurs⟩
    exact ⟨wallet.nonempty, textEq, _, buildP2PKHScript_of_isP2PKHAddress wallet,
      (includesScript_toHex (coinbaseText_eq_ok textEq)).mpr occurs⟩

/-- A misdirected template gets a job that does not pay. -/
theorem not_jobsPay_of_misdirected {deps : Externals} {manager : WorkManager}
    {hash160 : Vector UInt8 20} (wallet : IsP2PKHAddress deps manager.walletAddress hash160)
    {cleanJobs : Bool} {template : BlockTemplate} (misdirected : Misdirected hash160 template) :
    ¬JobsPay deps manager hash160 cleanJobs template := by
  intro pays
  rcases misdirected.elsewhere with ⟨text, textEq, occurs, missing⟩
  obtain ⟨job, built, rfl⟩ := buildJob_isOk_iff.mpr
    ⟨(getCoinbaseFromTemplate_wallet wallet).mpr ⟨textEq, occurs⟩, misdirected.readable⟩
  exact missing (pays _ job (generateJob_eq_ok.mpr ⟨built, rfl⟩))

/-- The work manager enforces payouts on every template that is not
misdirected, and on no other. -/
theorem jobsPay_iff_not_misdirected {deps : Externals} {manager : WorkManager}
    {hash160 : Vector UInt8 20} (wallet : IsP2PKHAddress deps manager.walletAddress hash160)
    (cleanJobs : Bool) (template : BlockTemplate) :
    JobsPay deps manager hash160 cleanJobs template ↔ ¬Misdirected hash160 template := by
  constructor
  · intro pays misdirected
    exact not_jobsPay_of_misdirected wallet misdirected pays
  · intro honest after job issued
    have built := (generateJob_eq_ok.mp issued).1
    rcases buildJob_isOk_iff.mp ⟨job, built, rfl⟩ with ⟨coinbase, readable⟩
    rcases (getCoinbaseFromTemplate_wallet wallet).mp coinbase with ⟨textEq, occurs⟩
    by_contra missing
    exact honest ⟨readable, _, textEq, occurs, missing⟩

/-! ## One wallet and two coinbases -/

/-- A wallet address and the key hash it encodes. -/
def walletExample : Text :=
  "t1T8yaLVhNqxA5KJcmiqqFN88e8DNp2PBfF".toList

def walletHash : Vector UInt8 20 :=
  #v[0x65, 0xa1, 0x60, 0x59, 0x86, 0x4a, 0x2f, 0xdb, 0xc7, 0xc9,
    0x9a, 0x47, 0x23, 0xa8, 0x39, 0x5b, 0xc6, 0xf1, 0x88, 0xeb]

/-- The packages as far as the examples use them: SHA-256, the decoding of one
address, and the addon with an arbitrary digest function. -/
def packagesExample : Externals where
  sha256 := Crypto.sha256
  bs58checkDecode address :=
    if address = walletExample then .ok ([0x1c, 0xb8] ++ walletHash.toList)
    else .error "Invalid checksum"
  verifyFn := Equihash.nativeVerify fun _ _ => Vector.replicate 50 0

theorem walletExample_isP2PKHAddress :
    IsP2PKHAddress packagesExample walletExample walletHash :=
  ⟨by decide, [0x1c, 0xb8], by decide, by simp [packagesExample]⟩

/-- A coinbase of the first format with one input and one output. -/
def coinbaseExample (scriptSig scriptPubKey : List UInt8) : List UInt8 :=
  [1, 0, 0, 0, 1] ++ List.replicate 32 0 ++ [0xff, 0xff, 0xff, 0xff] ++
    [UInt8.ofNat scriptSig.length] ++ scriptSig ++ [0xff, 0xff, 0xff, 0xff] ++
    [1, 0, 0xf9, 0x02, 0x95, 0, 0, 0, 0] ++ [UInt8.ofNat scriptPubKey.length] ++ scriptPubKey ++
    [0, 0, 0, 0]

/-- The target that every hash meets. -/
def easiestTarget : Text :=
  List.replicate 64 'f'

/-- A template of some height and target around a coinbase. -/
def templateExample (height : SafeInteger) (target : Text) (coinbase : List UInt8) :
    BlockTemplate where
  version := 4
  previousblockhash := .string (List.replicate 64 '0')
  blockcommitmentshash := .string (List.replicate 64 '0')
  lightclientroothash := .undefined
  finalsaplingroothash := .undefined
  curtime := 0
  bits := .string "1f07ffff".toList
  height := .number height
  target := .string target
  coinbasetxn := some ⟨.string (toHex coinbase), .string (List.replicate 64 '0')⟩
  transactions := some .empty

theorem readable_templateExample (height : SafeInteger) (target : Text) (coinbase : List UInt8) :
    Readable (templateExample height target coinbase) where
  transactions := ⟨.empty, rfl, by simp [JsArray.empty]⟩
  coinbaseTxid := fun _ _ => ⟨_, rfl⟩
  previousblockhash := ⟨_, rfl⟩
  reserved := ⟨_, rfl⟩

theorem coinbaseText_templateExample (height : SafeInteger) (target : Text)
    (coinbase : List UInt8) (nonempty : coinbase ≠ []) (short : coinbase.length ≤ 1000000) :
    coinbaseText (some (templateExample height target coinbase)) = .ok (toHex coinbase) := by
  have long : toHex coinbase ≠ [] := by
    rw [← List.length_pos_iff, length_toHex]
    have := List.length_pos_iff.mpr nonempty
    omega
  have normalized := normalizeHexField_string (isHexBytes_toHex coinbase) long false
    2000000 (Or.inr (by rw [length_toHex]; omega))
  simp [coinbaseText, templateExample, normalized]

/-- A coinbase that pays the wallet. -/
def payingCoinbase : List UInt8 :=
  coinbaseExample [0x52, 0] (p2pkhScript walletHash.toList)

theorem accepted_payingCoinbase (height : SafeInteger) (target : Text) (manager : WorkManager)
    (wallet : manager.walletAddress = walletExample) :
    Accepted packagesExample manager (templateExample height target payingCoinbase) where
  coinbase := by
    rw [wallet]
    have text := coinbaseText_templateExample height target payingCoinbase (by decide) (by decide)
    exact ⟨_, (getCoinbaseFromTemplate_wallet walletExample_isP2PKHAddress).mpr
      ⟨text, toHex_infix (by decide +kernel)⟩⟩
  readable := readable_templateExample height target payingCoinbase

/-- The coinbase that pays the wallet is not misdirected. -/
theorem jobsPay_iff_not_misdirected_coinbaseExample :
    JobsPay packagesExample (.initial walletExample easiestTarget) walletHash true
      (templateExample ⟨2, by decide⟩ easiestTarget payingCoinbase) := by
  refine (jobsPay_iff_not_misdirected walletExample_isP2PKHAddress true _).mpr ?_
  rintro ⟨-, text, textEq, -, missing⟩
  rw [coinbaseText_templateExample _ _ _ (by decide) (by decide)] at textEq
  cases textEq
  rw [ofHex_toHex] at missing
  exact missing (by decide +kernel)

/-- A coinbase with the wallet's script in its input and another script in its
output passes. -/
theorem not_jobsPay_coinbaseExample :
    ¬JobsPay packagesExample (.initial walletExample easiestTarget) walletHash true
      (templateExample ⟨2, by decide⟩ easiestTarget
        (coinbaseExample (p2pkhScript walletHash.toList) [0x51])) := by
  refine not_jobsPay_of_misdirected walletExample_isP2PKHAddress
    ⟨readable_templateExample _ _ _, _,
      coinbaseText_templateExample _ _ _ (by decide) (by decide), ?_, ?_⟩
  · exact toHex_infix (by decide +kernel)
  · rw [ofHex_toHex]
    decide +kernel

end ZcashSoloPool.WorkManager
