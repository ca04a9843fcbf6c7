import ZcashSoloPool.WorkManager.Payout

/-!
# The wallet address

A wallet is meant to be an address of a public key hash: two bytes of version
and twenty bytes of hash.  What `buildP2PKHScript` makes of an address that
decodes to fewer or more bytes, and which of those addresses still get jobs.
-/

namespace ZcashSoloPool.WorkManager

open ZcashSoloPool.Bytes
open ZcashSoloPool.JavaScript

/-! ## The two outcomes without an error -/

theorem mem_p2pkhVersions_iff {version : List UInt8} :
    version ∈ p2pkhVersions ↔ toHex version = "1cb8".toList ∨ toHex version = "1d25".toList := by
  have first : toHex [0x1c, 0xb8] = "1cb8".toList := by decide
  have second : toHex [0x1d, 0x25] = "1d25".toList := by decide
  rw [← first, ← second, toHex_injective.eq_iff, toHex_injective.eq_iff]
  simp [p2pkhVersions]

/-- The outcome for an address that decodes. -/
theorem buildP2PKHScript_of_decodes {deps : Externals} {address : Text} {decoded : List UInt8}
    (decodes : deps.bs58checkDecode address = .ok decoded) :
    (decoded.length < 22 → buildP2PKHScript deps address = .ok none) ∧
      (22 ≤ decoded.length → decoded.take 2 ∈ p2pkhVersions →
        buildP2PKHScript deps address = .ok (some (toHex (p2pkhScript (decoded.drop 2))))) ∧
      (22 ≤ decoded.length → decoded.take 2 ∉ p2pkhVersions →
        ∃ message, buildP2PKHScript deps address = .error message) := by
  have spelled : "76a914".toList ++ toHex (decoded.drop 2) ++ "88ac".toList =
      toHex (p2pkhScript (decoded.drop 2)) := by
    simp only [p2pkhScript, toHex_append]
    rfl
  have result : buildP2PKHScript deps address =
      if decoded.length < 22 then .ok none
      else if !allowed.contains (toHex (decoded.take 2)) then
        .error "walletAddress must be a transparent t-address (p2pkh or p2sh)"
      else if toHex (decoded.take 2) ≠ "1cb8".toList ∧ toHex (decoded.take 2) ≠ "1d25".toList then
        .error "Only P2PKH transparent addresses (t1/tm) are supported for payouts"
      else .ok (some (toHex (p2pkhScript (decoded.drop 2)))) := by
    rw [← spelled]
    simp only [buildP2PKHScript, decodes]
  constructor
  · intro short
    rw [result, if_pos short]
  constructor
  · intro long version
    have known := toHex_of_mem_p2pkhVersions _ version
    rw [result, if_neg (Nat.not_lt.mpr long), known.1, Bool.not_true, if_neg Bool.false_ne_true,
      if_neg]
    rintro ⟨first, second⟩
    exact known.2.elim first second
  · intro long version
    rw [mem_p2pkhVersions_iff, not_or] at version
    rw [result, if_neg (Nat.not_lt.mpr long), if_pos version]
    split
    · exact ⟨_, rfl⟩
    · exact ⟨_, rfl⟩

/-- There is an outcome without an error only for an address that decodes. -/
theorem exists_decoded_of_buildP2PKHScript {deps : Externals} {address : Text}
    {script : Option Text} (built : buildP2PKHScript deps address = .ok script) :
    ∃ decoded, deps.bs58checkDecode address = .ok decoded := by
  cases decodes : deps.bs58checkDecode address with
  | error message =>
      rw [buildP2PKHScript, decodes] at built
      contradiction
  | ok decoded => exact ⟨decoded, rfl⟩

theorem length_coinbaseText_le {reply : Option BlockTemplate} {provided : Text}
    (text : coinbaseText reply = .ok provided) : provided.length ≤ 2000000 := by
  unfold coinbaseText at text
  split at text
  · split at text
    · next normalized =>
        cases text
        exact (normalizeHexField_eq_some normalized).2.2 (by decide)
    · contradiction
  · contradiction

/-! ## Which addresses get jobs -/

/-- For a wallet address that passes the test on some coinbase text, that text
gets a job. -/
theorem exists_job_of_includesScript {deps : Externals} {address : Text} (nonempty : address ≠ [])
    {script : Option Text} (built : buildP2PKHScript deps address = .ok script)
    {coinbase : List UInt8} (some_bytes : coinbase ≠ []) (short : coinbase.length ≤ 1000000)
    (included : includesScript script (toHex coinbase) = true) :
    ∃ (after : WorkManager) (job : Job),
      generateJob deps (.initial address easiestTarget) true
        (.ok (some (templateExample ⟨2, by decide⟩ easiestTarget coinbase))) =
          (after, .ok job) := by
  have accepted : Accepted deps (.initial address easiestTarget)
      (templateExample ⟨2, by decide⟩ easiestTarget coinbase) := by
    constructor
    · have text := coinbaseText_templateExample ⟨2, by decide⟩ easiestTarget coinbase some_bytes
        short
      exact ⟨_, getCoinbaseFromTemplate_eq_ok.mpr ⟨nonempty, text, script, built, included⟩⟩
    · exact readable_templateExample _ _ coinbase
  rcases exists_generateJob accepted true with ⟨job, issued, -⟩
  exact ⟨_, job, issued⟩

/-- The wallet check does what it is there for: jobs are issued for an address
of a public key hash only, and such an address has its script. -/
structure FailsClosed (deps : Externals) (address : Text) : Prop where
  jobs : ∀ (manager after : WorkManager) (cleanJobs : Bool)
    (reply : Except String (Option BlockTemplate)) (job : Job),
    manager.walletAddress = address →
      generateJob deps manager cleanJobs reply = (after, .ok job) →
        ∃ hash160, IsP2PKHAddress deps address hash160
  script : ∀ hash160 : Vector UInt8 20, IsP2PKHAddress deps address hash160 →
    buildP2PKHScript deps address =
      .ok (some ("76a914".toList ++ toHex hash160.toList ++ "88ac".toList))

/-- The check is not skipped, and what it looks for is a script with a hash of
the right length or one too long for any coinbase. -/
def IsChecked (decoded : List UInt8) : Prop :=
  22 ≤ decoded.length ∧
    (decoded.take 2 ∈ p2pkhVersions → decoded.length = 22 ∨ 999997 < decoded.length)

theorem length_of_isP2PKHAddress {deps : Externals} {address : Text} {hash160 : Vector UInt8 20}
    {decoded : List UInt8} (wallet : IsP2PKHAddress deps address hash160)
    (decodes : deps.bs58checkDecode address = .ok decoded) : decoded.length = 22 := by
  rcases wallet.decodes with ⟨version, member, same⟩
  rw [decodes] at same
  cases same
  rw [List.length_append, length_of_mem_p2pkhVersions version member, Vector.length_toList]

theorem isP2PKHAddress_of_decodes {deps : Externals} {address : Text} {decoded : List UInt8}
    (nonempty : address ≠ []) (decodes : deps.bs58checkDecode address = .ok decoded)
    (length : decoded.length = 22) (version : decoded.take 2 ∈ p2pkhVersions) :
    ∃ hash160, IsP2PKHAddress deps address hash160 := by
  have size : (decoded.drop 2).toArray.size = 20 := by
    rw [List.size_toArray, List.length_drop, length]
  refine ⟨⟨(decoded.drop 2).toArray, size⟩, nonempty, decoded.take 2, version, ?_⟩
  rw [decodes]
  exact congrArg Except.ok (List.take_append_drop 2 decoded).symm

theorem length_toHex_p2pkhScript (hash160 : List UInt8) :
    (toHex (p2pkhScript hash160)).length = 2 * (hash160.length + 5) := by
  rw [length_toHex, p2pkhScript, List.length_append, List.length_append]
  simp only [List.length_cons, List.length_nil]
  omega

/-- An address gets jobs only as it should when every outcome of its decoding
is checked. -/
theorem exists_isP2PKHAddress_of_generateJob {deps : Externals} {manager after : WorkManager}
    {cleanJobs : Bool} {reply : Except String (Option BlockTemplate)} {job : Job}
    (checked : ∀ decoded, deps.bs58checkDecode manager.walletAddress = .ok decoded →
      manager.walletAddress = [] ∨ IsChecked decoded)
    (issued : generateJob deps manager cleanJobs reply = (after, .ok job)) :
    ∃ hash160, IsP2PKHAddress deps manager.walletAddress hash160 := by
  obtain ⟨template, -, ⟨⟨coinbaseTx, coinbase⟩, -⟩, -⟩ := accepted_of_generateJob issued
  obtain ⟨nonempty, text, script, built, included⟩ := getCoinbaseFromTemplate_eq_ok.mp coinbase
  obtain ⟨decoded, decodes⟩ := exists_decoded_of_buildP2PKHScript built
  obtain ⟨-, payable, unpayable⟩ := buildP2PKHScript_of_decodes decodes
  obtain ⟨long, length⟩ := (checked decoded decodes).resolve_left nonempty
  by_cases version : decoded.take 2 ∈ p2pkhVersions
  · rcases length version with exact | huge
    · exact isP2PKHAddress_of_decodes nonempty decodes exact version
    · rw [payable long version] at built
      cases built
      -- The script has more digits than a coinbase text may have.
      rw [includesScript_toHex (coinbaseText_eq_ok text)] at included
      have digits := included.length_le
      rw [length_toHex_p2pkhScript, List.length_drop] at digits
      have limit := length_coinbaseText_le text
      omega
  · rcases unpayable long version with ⟨message, refused⟩
    rw [refused] at built
    contradiction

/-- The check fails closed for the addresses whose decoding is checked, and for
no other. -/
theorem failsClosed_iff (deps : Externals) (address : Text) :
    FailsClosed deps address ↔
      ∀ decoded, deps.bs58checkDecode address = .ok decoded →
        address = [] ∨ IsChecked decoded := by
  constructor
  · intro closed decoded decodes
    apply or_iff_not_imp_left.mpr
    intro nonempty
    obtain ⟨skipped, payable, -⟩ := buildP2PKHScript_of_decodes decodes
    have twentyTwo {script : Option Text} {coinbase : List UInt8}
        (built : buildP2PKHScript deps address = .ok script) (some_bytes : coinbase ≠ [])
        (short : coinbase.length ≤ 1000000)
        (included : includesScript script (toHex coinbase) = true) : decoded.length = 22 := by
      obtain ⟨after, job, issued⟩ :=
        exists_job_of_includesScript nonempty built some_bytes short included
      obtain ⟨hash160, wallet⟩ := closed.jobs _ after true _ job rfl issued
      exact length_of_isP2PKHAddress wallet decodes
    have long : 22 ≤ decoded.length := by
      by_contra short
      have skip := skipped (Nat.lt_of_not_le short)
      have length := twentyTwo skip (List.cons_ne_nil 0 []) (by decide) rfl
      omega
    constructor
    · exact long
    · intro version
      apply or_iff_not_imp_right.mpr
      intro fits
      have found : includesScript (some (toHex (p2pkhScript (decoded.drop 2))))
          (toHex (p2pkhScript (decoded.drop 2))) = true :=
        (includesScript_toHex (isHexBytes_toHex _)).mpr (List.infix_refl _)
      have digits := length_toHex_p2pkhScript (decoded.drop 2)
      rw [length_toHex, List.length_drop] at digits
      have some_bytes : p2pkhScript (decoded.drop 2) ≠ [] := List.cons_ne_nil _ _
      exact twentyTwo (payable long version) some_bytes (by omega) found
  · intro checked
    constructor
    · rintro manager after cleanJobs reply job rfl issued
      exact exists_isP2PKHAddress_of_generateJob checked issued
    · intro hash160 wallet
      rw [buildP2PKHScript_of_isP2PKHAddress wallet, p2pkhScript, toHex_append, toHex_append]
      rfl

/-! ## An address of another chain -/

/-- An address with one byte of version, valid in its own chain. -/
def foreignAddress : Text :=
  "1A1zP1eP5QGefi2DMPTfTL5SLmv7DivfNa".toList

def foreignPayload : List UInt8 :=
  [0x00, 0x62, 0xe9, 0x07, 0xb1, 0x5c, 0xbf, 0x27, 0xd5, 0x42, 0x53, 0x99, 0xeb, 0xf6, 0xf0,
    0xfb, 0x50, 0xeb, 0xb8, 0x8f, 0x18]

/-- Packages that decode the address to its 21 bytes. -/
def foreignPackages : Externals where
  sha256 := Crypto.sha256
  bs58checkDecode address :=
    if address = foreignAddress then .ok foreignPayload else .error "Invalid checksum"
  verifyFn := Equihash.nativeVerify fun _ _ => Vector.replicate 50 0

/-- With that address for its wallet the pool gives out jobs on any coinbase. -/
theorem not_failsClosed_foreignAddress : ¬FailsClosed foreignPackages foreignAddress := by
  have decodes : foreignPackages.bs58checkDecode foreignAddress = .ok foreignPayload := by
    simp [foreignPackages]
  have skipped := (buildP2PKHScript_of_decodes decodes).1 (by decide)
  intro closed
  have some_bytes : coinbaseExample [0x52, 0] [0x51] ≠ [] := by decide
  obtain ⟨after, job, issued⟩ :=
    exists_job_of_includesScript (by decide) skipped some_bytes (by decide) rfl
  obtain ⟨hash160, wallet⟩ := closed.jobs _ after true _ job rfl issued
  have length := length_of_isP2PKHAddress wallet decodes
  exact absurd length (by decide)

end ZcashSoloPool.WorkManager
