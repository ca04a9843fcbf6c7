import ZcashSoloPool.JavaScript.Json
import ZcashSoloPool.Web.Cidr
import ZcashSoloPool.Web.Ipv4
import ZcashSoloPool.WorkManager.Quality
import Mathlib.Data.Rat.Floor

/-!
# The access list of the Stratum server

`connectionAcl` is compiled once: entries that are not understood are left out
with a warning.  Later only the compiled lists are looked at, and an empty allow
list is no restriction.  Beside the code stands what an entry means: the
addresses of a block, written `address/length`, or a single address.
-/

namespace ZcashSoloPool.Stratum

open ZcashSoloPool.JavaScript
open ZcashSoloPool.Web
open ZcashSoloPool.WorkManager (digitsNumber)

/-- What Node makes of text: numbers, and the address of a text that is an IPv6
address. -/
structure Platform where
  numbers : NumberFormat
  ipv6 : Text → Option (BitVec 128)

/-! ## Addresses -/

/-- `net.isIP`. -/
def Platform.isIP (platform : Platform) (text : Text) : Nat :=
  if (Ipv4.read text).isSome then 4
  else if (platform.ipv6 text).isSome then 6
  else 0

/-- `normalizeRemoteAddress`. -/
def normalizeRemoteAddress (value : Text) : Text :=
  let raw := toLowerCase (trim value)
  if raw.take 7 = "::ffff:".toList then raw.drop 7 else raw

/-- `Number(_)` where it is an integer from zero up to a bound. -/
def Platform.integerUpTo (platform : Platform) (bound : Nat) (text : Text) : Option Nat :=
  match platform.numbers.read text with
  | some value =>
      if value.den = 1 ∧ 0 ≤ value.num ∧ value.num ≤ bound then some value.num.toNat else none
  | none => none

/-- The loop of `ipV4ToInt` over the parts of an address. -/
def Platform.addParts (platform : Platform) : List Text → BitVec 32 → Option (BitVec 32)
  | [], acc => some acc
  | part :: rest, acc =>
      match platform.integerUpTo 255 part with
      | some n => platform.addParts rest ((acc <<< 8) + BitVec.ofNat 32 n)
      | none => none

/-- `ipV4ToInt`. -/
def Platform.ipV4ToInt (platform : Platform) (ip : Text) : Option (BitVec 32) :=
  if platform.isIP ip ≠ 4 then none
  else
    let parts := ip.splitOn '.'
    if parts.length ≠ 4 then none else platform.addParts parts 0

/-! ## Compiled entries -/

/-- A compiled entry. -/
inductive AclEntry where
  | address (ip : Text)
  | ipv4Cidr (base mask : BitVec 32)
  deriving DecidableEq, Repr

/-- `String(entryRaw || "").trim().toLowerCase()`, with `none` where it
throws. -/
def Platform.entryText (platform : Platform) (entryRaw : Json) : Option Text :=
  if entryRaw.truthy then
    (entryRaw.toText? platform.numbers).map fun text => toLowerCase (trim text)
  else some []

/-- The body of the loop of `compileAclEntries`; `none` is a blank entry or one
that is ignored with a warning. -/
def Platform.compileEntry (platform : Platform) (entry : Text) : Option AclEntry :=
  if entry.isEmpty then none
  else if entry.contains '/' then
    let parts := entry.splitOn '/'
    let ip := normalizeRemoteAddress (parts.getD 0 [])
    match platform.integerUpTo 32 (parts.getD 1 []) with
    | some length =>
        if platform.isIP ip ≠ 4 then none
        else
          let ipInt := (platform.ipV4ToInt ip).getD 0
          let mask := if length = 0 then 0 else (0xffffffff : BitVec 32) <<< (32 - length)
          some (.ipv4Cidr (ipInt &&& mask) mask)
    | none => none
  else
    let ip := normalizeRemoteAddress entry
    if platform.isIP ip = 0 then none else some (.address ip)

/-- `compileAclEntries`. -/
def Platform.compileAclEntries (platform : Platform) (entries : List Json) :
    Option (List AclEntry) := do
  let texts ← entries.mapM platform.entryText
  pure (texts.filterMap platform.compileEntry)

/-- The tests of `isAddressInAclEntries` on one entry. -/
def AclEntry.covers (entry : AclEntry) (address : Text) (ipV4 : Option (BitVec 32)) : Bool :=
  match entry with
  | .address ip => decide (ip = address)
  | .ipv4Cidr base mask =>
      match ipV4 with
      | some bits => decide (bits &&& mask = base)
      | none => false

/-- `isAddressInAclEntries`. -/
def Platform.isAddressInAclEntries (platform : Platform) (addressRaw : Text)
    (entries : List AclEntry) : Bool :=
  let address := normalizeRemoteAddress addressRaw
  if address.isEmpty || entries.isEmpty then false
  else
    let ipV4 := platform.ipV4ToInt address
    entries.any fun entry => entry.covers address ipV4

/-! ## The configuration -/

/-- `parseBoolean`. -/
def parseBoolean (value : Option Json) (defaultValue : Bool) : Bool :=
  match value with
  | some (.bool flag) => flag
  | some (.number n) => decide (n ≠ 0)
  | some (.infinity _) => true
  | some (.string text) =>
      let normalized := toLowerCase (trim text)
      if ["1", "true", "yes", "on", "enabled"].contains (String.ofList normalized) then true
      else if ["0", "false", "no", "off", "disabled"].contains (String.ofList normalized) then false
      else defaultValue
  | _ => defaultValue

/-- `this.connectionAcl`. -/
structure ConnectionAcl where
  enabled : Bool
  allowEntries : List AclEntry
  denyEntries : List AclEntry
  logDenied : Bool
  banOnBadJson : Bool
  maxBadJsonBeforeClose : Nat
  badJsonBanSeconds : Nat

/-- `Number(_)`, with `none` where it throws and `some none` where it is not
finite. -/
def Platform.numberOf (platform : Platform) : Option Json → Option (Option ℚ)
  | some value => value.toNumber? platform.numbers
  | none => some none

/-- `config.connectionAcl || {}`. -/
def aclOf (config : Json) : Json :=
  ((config.member "connectionAcl").filter Json.truthy).getD (.object [])

/-- The entries of a list of the configuration; what is no array has none. -/
def cidrs (acl : Json) (name : String) : List Json :=
  match acl.member name with
  | some (.array elements) => elements
  | _ => []

/-- `buildConnectionAclConfig`; `none` where a conversion throws. -/
def Platform.buildConnectionAclConfig (platform : Platform) (config : Json) :
    Option ConnectionAcl := do
  let acl := aclOf config
  let maxBadJsonBeforeClose ← platform.numberOf (acl.member "maxBadJsonBeforeClose")
  let badJsonBanSeconds ← platform.numberOf (acl.member "badJsonBanSeconds")
  let allowEntries ← platform.compileAclEntries (cidrs acl "allowCidrs")
  let denyEntries ← platform.compileAclEntries (cidrs acl "denyCidrs")
  pure
    { enabled := parseBoolean (acl.member "enabled") false
      allowEntries := allowEntries
      denyEntries := denyEntries
      logDenied := parseBoolean (acl.member "logDenied") true
      banOnBadJson := parseBoolean (acl.member "banOnBadJson") true
      maxBadJsonBeforeClose :=
        match maxBadJsonBeforeClose with
        | some n => if 1 ≤ n then ⌊n⌋.toNat else 3
        | none => 3
      badJsonBanSeconds :=
        match badJsonBanSeconds with
        | some n => if 0 < n then ⌊n⌋.toNat else 900
        | none => 900 }

/-- `isAddressAllowed`. -/
def Platform.isAddressAllowed (platform : Platform) (connectionAcl : ConnectionAcl)
    (addressRaw : Text) : Bool :=
  if !connectionAcl.enabled then true
  else if platform.isAddressInAclEntries addressRaw connectionAcl.denyEntries then false
  else if connectionAcl.allowEntries.isEmpty then true
  else platform.isAddressInAclEntries addressRaw connectionAcl.allowEntries

/-! ## What an entry means -/

/-- An address. -/
inductive Address where
  | ipv4 (bits : BitVec 32)
  | ipv6 (bits : BitVec 128)
  deriving DecidableEq, Repr

/-- A block of addresses of one kind. -/
inductive Network where
  | ipv4 (block : Block 32)
  | ipv6 (block : Block 128)
  deriving DecidableEq, Repr

/-- The address lies in the network. -/
def Network.Contains : Network → Address → Prop
  | .ipv4 block, .ipv4 bits => block.Contains bits
  | .ipv6 block, .ipv6 bits => block.Contains bits
  | _, _ => False

/-- The network of a single address. -/
def Network.single : Address → Network
  | .ipv4 bits => .ipv4 (.single bits)
  | .ipv6 bits => .ipv6 (.single bits)

/-- The block that an address begins, where it has as many bits. -/
def Network.ofLength : Address → Nat → Option Network
  | .ipv4 bits, length =>
      if short : length < 32 + 1 then some (.ipv4 ⟨bits, ⟨length, short⟩⟩) else none
  | .ipv6 bits, length =>
      if short : length < 128 + 1 then some (.ipv6 ⟨bits, ⟨length, short⟩⟩) else none

/-- The address that a text stands for, once it is normalised. -/
def Platform.addressOf (platform : Platform) (text : Text) : Option Address :=
  match Ipv4.read (normalizeRemoteAddress text) with
  | some address => some (.ipv4 address.bits)
  | none => (platform.ipv6 (normalizeRemoteAddress text)).map .ipv6

/-- The network of a well-formed entry: an address, or an address and a length
in decimal digits with a slash between them. -/
def Platform.networkOf (platform : Platform) (entry : Text) : Option Network :=
  match entry.splitOn '/' with
  | [text] => (platform.addressOf text).map .single
  | [text, digits] =>
      match platform.addressOf text, digitsNumber digits with
      | some address, some length => Network.ofLength address length
      | _, _ => none
  | _ => none

/-- The address is contained in a well-formed entry. -/
def Platform.Listed (platform : Platform) (entries : List Json) (address : Text) : Prop :=
  ∃ entryRaw ∈ entries, ∃ entry network bits, platform.entryText entryRaw = some entry ∧
    platform.networkOf entry = some network ∧ platform.addressOf address = some bits ∧
    network.Contains bits

/-- There is an entry that is not blank. -/
def Platform.HasEntry (platform : Platform) (entries : List Json) : Prop :=
  ∃ entryRaw ∈ entries, ∃ entry, platform.entryText entryRaw = some entry ∧ entry ≠ []

/-- With the lists of the configuration, an address in no allow entry or in a
deny entry is refused. -/
def Platform.FailsClosed (platform : Platform) (config : Json) (connectionAcl : ConnectionAcl)
    (address : Text) : Prop :=
  ¬platform.Listed (cidrs (aclOf config) "allowCidrs") address ∨
      platform.Listed (cidrs (aclOf config) "denyCidrs") address →
    platform.isAddressAllowed connectionAcl address = false

/-! ## When the list fails closed -/

/-- The entry is compiled. -/
def Platform.Compiles (platform : Platform) (entryRaw : Json) : Prop :=
  ∃ text entry, platform.entryText entryRaw = some text ∧ platform.compileEntry text = some entry

/-- The entry is compiled, and the address passes the test of the result. -/
def Platform.Matches (platform : Platform) (entryRaw : Json) (address : Text) : Prop :=
  ∃ text entry, platform.entryText entryRaw = some text ∧ platform.compileEntry text = some entry ∧
    platform.isAddressInAclEntries address [entry] = true

/-- The entry is no well-formed one. -/
def Platform.Malformed (platform : Platform) (entryRaw : Json) : Prop :=
  ∀ text, platform.entryText entryRaw = some text → platform.networkOf text = none

/-- The lists say enough about the address.  Either an allow entry was compiled,
or the address is in an allow entry that was left out and in no deny entry; the
address matches no malformed allow entry unless it is in a well-formed one; and
where it is in a deny entry it matches no allow entry. -/
structure Platform.Sound (platform : Platform) (allow deny : List Json) (address : Text) :
    Prop where
  compiled : (∃ entryRaw ∈ allow, platform.Compiles entryRaw) ∨
    platform.Listed allow address ∧ ¬platform.Listed deny address
  plain : ∀ entryRaw ∈ allow, platform.Malformed entryRaw → platform.Matches entryRaw address →
    platform.Listed allow address
  denied : platform.Listed deny address → ∀ entryRaw ∈ allow, ¬platform.Matches entryRaw address

/-- Digits are read as the number they write. -/
def ReadsDigits (numbers : NumberFormat) : Prop :=
  ∀ text n, digitsNumber text = some n → n < 2 ^ 53 → numbers.read text = some (n : ℚ)

/-! ## Reading addresses -/

theorem Platform.integerUpTo_of_digits {platform : Platform} (reads : ReadsDigits platform.numbers)
    {text : Text} {n bound : Nat} (digits : digitsNumber text = some n) (small : n ≤ bound)
    (safe : bound < 2 ^ 53) : platform.integerUpTo bound text = some n := by
  rw [integerUpTo, reads text n digits (Nat.lt_of_le_of_lt small safe)]
  have inside : (n : ℚ).den = 1 ∧ 0 ≤ (n : ℚ).num ∧ (n : ℚ).num ≤ bound := by
    rw [Rat.den_natCast, Rat.num_natCast]
    omega
  dsimp only
  rw [if_pos inside, Rat.num_natCast, Int.toNat_natCast]

theorem Platform.integerUpTo_decimal {platform : Platform} (reads : ReadsDigits platform.numbers)
    (value : Fin 256) : platform.integerUpTo 255 (decimal value) = some value.val :=
  platform.integerUpTo_of_digits reads (WorkManager.digitsNumber_toDigits value)
    (Nat.le_of_lt_succ value.isLt) (by decide)

theorem Platform.addParts_decimals {platform : Platform} (reads : ReadsDigits platform.numbers)
    (address : Ipv4) : platform.addParts address.decimals 0 = some address.bits := by
  simp only [Ipv4.decimals, addParts, integerUpTo_decimal reads, Option.some.injEq]
  apply BitVec.eq_of_toNat_eq
  simp only [BitVec.toNat_add, BitVec.toNat_shiftLeft, BitVec.toNat_ofNat, Nat.shiftLeft_eq,
    Ipv4.bits, Ipv4.number]
  omega

theorem Platform.isIP_eq_four_iff {platform : Platform} {text : Text} :
    platform.isIP text = 4 ↔ ∃ address : Ipv4, text = address.text := by
  unfold isIP
  cases read : Ipv4.read text with
  | some address => exact iff_of_true rfl ⟨address, Ipv4.read_eq_some_iff.mp read⟩
  | none =>
      refine iff_of_false ?_ ?_
      · split
        · contradiction
        · split <;> decide
      · rintro ⟨address, rfl⟩
        rw [Ipv4.read_text] at read
        contradiction

/-- The integer of an IPv4 address is made of its bits; other text has none. -/
theorem Platform.ipV4ToInt_eq_some_iff {platform : Platform} (reads : ReadsDigits platform.numbers)
    {text : Text} {bits : BitVec 32} :
    platform.ipV4ToInt text = some bits ↔
      ∃ address : Ipv4, text = address.text ∧ bits = address.bits := by
  have whole (address : Ipv4) : platform.ipV4ToInt address.text = some address.bits := by
    have ip : platform.isIP address.text = 4 := isIP_eq_four_iff.mpr ⟨address, rfl⟩
    rw [ipV4ToInt, if_neg (not_not_intro ip), Ipv4.splitOn_text]
    exact addParts_decimals reads address
  constructor
  · intro found
    by_cases ip : platform.isIP text = 4
    · obtain ⟨address, rfl⟩ := isIP_eq_four_iff.mp ip
      rw [whole, Option.some.injEq] at found
      exact ⟨address, rfl, found.symm⟩
    · rw [ipV4ToInt, if_pos ip] at found
      contradiction
  · rintro ⟨address, rfl, rfl⟩
    exact whole address

/-! ## The compiled lists -/

theorem mem_of_mapM {α β : Type} {f : α → Option β} {items : List α} {results : List β}
    (mapped : items.mapM f = some results) (result : β) :
    result ∈ results ↔ ∃ item ∈ items, f item = some result := by
  induction items generalizing results with
  | nil =>
      cases mapped
      simp
  | cons item rest ih =>
      rw [List.mapM_cons] at mapped
      simp only [bind, pure, Option.bind_eq_some_iff, Option.some.injEq] at mapped
      obtain ⟨first, firstEq, others, othersEq, rfl⟩ := mapped
      rw [List.mem_cons, ih othersEq, List.exists_mem_cons_iff, firstEq, Option.some.injEq,
        eq_comm]

theorem Platform.mem_compileAclEntries {platform : Platform} {entries : List Json}
    {compiled : List AclEntry} (compiles : platform.compileAclEntries entries = some compiled)
    (entry : AclEntry) :
    entry ∈ compiled ↔ ∃ entryRaw ∈ entries, ∃ text, platform.entryText entryRaw = some text ∧
      platform.compileEntry text = some entry := by
  simp only [compileAclEntries, bind, pure, Option.bind_eq_some_iff, Option.some.injEq] at compiles
  obtain ⟨texts, textsEq, rfl⟩ := compiles
  simp only [List.mem_filterMap, mem_of_mapM textsEq]
  constructor
  · rintro ⟨text, ⟨entryRaw, member, read⟩, compiledEq⟩
    exact ⟨entryRaw, member, text, read, compiledEq⟩
  · rintro ⟨entryRaw, member, text, read, compiledEq⟩
    exact ⟨text, ⟨entryRaw, member, read⟩, compiledEq⟩

theorem Platform.isAddressInAclEntries_iff {platform : Platform} {address : Text}
    {entries : List AclEntry} :
    platform.isAddressInAclEntries address entries = true ↔
      ∃ entry ∈ entries, platform.isAddressInAclEntries address [entry] = true := by
  cases empty : (normalizeRemoteAddress address).isEmpty with
  | true => simp [isAddressInAclEntries, empty]
  | false =>
      cases entries with
      | nil => simp [isAddressInAclEntries]
      | cons first rest => simp [isAddressInAclEntries, empty]

/-- The address passes the compiled list if it matches one of the entries. -/
theorem Platform.isAddressInAclEntries_compile_iff {platform : Platform} {entries : List Json}
    {compiled : List AclEntry} (compiles : platform.compileAclEntries entries = some compiled)
    (address : Text) :
    platform.isAddressInAclEntries address compiled = true ↔
      ∃ entryRaw ∈ entries, platform.Matches entryRaw address := by
  rw [isAddressInAclEntries_iff]
  constructor
  · rintro ⟨entry, member, inside⟩
    obtain ⟨entryRaw, rawMember, text, read, compiledEq⟩ :=
      (mem_compileAclEntries compiles entry).mp member
    exact ⟨entryRaw, rawMember, text, entry, read, compiledEq, inside⟩
  · rintro ⟨entryRaw, rawMember, text, entry, read, compiledEq, inside⟩
    exact ⟨entry, (mem_compileAclEntries compiles entry).mpr
      ⟨entryRaw, rawMember, text, read, compiledEq⟩, inside⟩

/-- The compiled list is empty if no entry was compiled. -/
theorem Platform.isEmpty_compile_iff {platform : Platform} {entries : List Json}
    {compiled : List AclEntry} (compiles : platform.compileAclEntries entries = some compiled) :
    compiled.isEmpty = false ↔ ∃ entryRaw ∈ entries, platform.Compiles entryRaw := by
  rw [List.isEmpty_eq_false_iff_exists_mem]
  constructor
  · rintro ⟨entry, member⟩
    obtain ⟨entryRaw, rawMember, text, read, compiledEq⟩ :=
      (mem_compileAclEntries compiles entry).mp member
    exact ⟨entryRaw, rawMember, text, entry, read, compiledEq⟩
  · rintro ⟨entryRaw, rawMember, text, entry, read, compiledEq⟩
    exact ⟨entry, (mem_compileAclEntries compiles entry).mpr
      ⟨entryRaw, rawMember, text, read, compiledEq⟩⟩

/-! ## Matching is containment -/

theorem splitOn_of_not_contains {text : Text} (plain : text.contains '/' = false) :
    text.splitOn '/' = [text] := by
  apply List.splitOn_eq_singleton
  intro member
  rw [List.contains_iff_mem.mpr member] at plain
  contradiction

theorem splitOn_of_contains {text : Text} (slashed : text.contains '/' = true) :
    ∃ first second rest, text.splitOn '/' = first :: second :: rest := by
  obtain ⟨front, back, rfl, plain⟩ := List.eq_append_cons_of_mem (List.contains_iff_mem.mp slashed)
  rw [List.splitOn_append_cons_self_of_not_mem plain]
  cases parts : back.splitOn '/' with
  | nil => exact absurd parts (List.splitOn_ne_nil _ _)
  | cons second rest => exact ⟨front, second, rest, rfl⟩

/-- The mask is the one of the length. -/
theorem mask_eq (length : Nat) :
    (if length = 0 then 0 else (0xffffffff : BitVec 32) <<< (32 - length)) =
      Block.mask 32 length := by
  split
  · next zero => rw [zero, Block.mask_zero]
  · rfl

/-- An entry without a slash is compiled to its address. -/
theorem Platform.compileEntry_plain_iff {platform : Platform} {text : Text} {entry : AclEntry}
    (plain : text.contains '/' = false) :
    platform.compileEntry text = some entry ↔
      text ≠ [] ∧ platform.isIP (normalizeRemoteAddress text) ≠ 0 ∧
        entry = .address (normalizeRemoteAddress text) := by
  unfold compileEntry
  rw [plain, if_neg Bool.false_ne_true]
  dsimp only
  by_cases blank : text = []
  · simp [blank]
  · rw [if_neg (by simpa using blank)]
    by_cases noIP : platform.isIP (normalizeRemoteAddress text) = 0
    · simp [noIP]
    · simp [blank, noIP, eq_comm]

/-- An entry with a slash is compiled to the block of an IPv4 address, with the
number that stands between the first slash and the second. -/
theorem Platform.compileEntry_slashed_iff {platform : Platform}
    (reads : ReadsDigits platform.numbers) {text first second : Text} {rest : List Text}
    {entry : AclEntry} (slashed : text.contains '/' = true)
    (parts : text.splitOn '/' = first :: second :: rest) :
    platform.compileEntry text = some entry ↔
      ∃ (ip : Ipv4) (length : Nat), normalizeRemoteAddress first = ip.text ∧
        platform.integerUpTo 32 second = some length ∧
        entry = .ipv4Cidr (ip.bits &&& Block.mask 32 length) (Block.mask 32 length) := by
  have some : ¬text.isEmpty = true := by
    intro empty
    rw [List.isEmpty_iff.mp empty] at slashed
    contradiction
  unfold compileEntry
  rw [if_neg some, if_pos slashed, parts]
  simp only [List.getD_cons_zero, List.getD_cons_succ]
  cases read : platform.integerUpTo 32 second with
  | none => simp
  | some length =>
      dsimp only
      by_cases isIP : platform.isIP (normalizeRemoteAddress first) = 4
      · obtain ⟨ip, shown⟩ := isIP_eq_four_iff.mp isIP
        have number : platform.ipV4ToInt (normalizeRemoteAddress first) = .some ip.bits :=
          (ipV4ToInt_eq_some_iff reads).mpr ⟨ip, shown, rfl⟩
        rw [if_neg (not_not_intro isIP), number, Option.getD_some, mask_eq, Option.some.injEq]
        constructor
        · rintro rfl
          exact ⟨ip, length, shown, rfl, rfl⟩
        · rintro ⟨other, _, shownToo, ⟨⟩, rfl⟩
          rw [Ipv4.text_injective (shown.symm.trans shownToo)]
      · rw [if_pos isIP]
        refine iff_of_false (by simp) ?_
        rintro ⟨ip, _, shown, _⟩
        exact isIP (isIP_eq_four_iff.mpr ⟨ip, shown⟩)

theorem Platform.isAddressInAclEntries_singleton {platform : Platform} {address : Text}
    {entry : AclEntry} :
    platform.isAddressInAclEntries address [entry] = true ↔
      normalizeRemoteAddress address ≠ [] ∧
        entry.covers (normalizeRemoteAddress address)
          (platform.ipV4ToInt (normalizeRemoteAddress address)) = true := by
  cases shown : normalizeRemoteAddress address <;> simp [isAddressInAclEntries, shown]

theorem Platform.addressOf_of_text {platform : Platform} {text : Text} {address : Ipv4}
    (shown : normalizeRemoteAddress text = address.text) :
    platform.addressOf text = some (.ipv4 address.bits) := by
  rw [addressOf, shown, Ipv4.read_text]

theorem Network.ofLength_ipv4_eq_some {bits : BitVec 32} {length : Nat} {network : Network}
    (sized : Network.ofLength (.ipv4 bits) length = some network) :
    ∃ short : length < 32 + 1, network = .ipv4 ⟨bits, ⟨length, short⟩⟩ := by
  by_cases short : length < 32 + 1
  · rw [ofLength, dif_pos short, Option.some.injEq] at sized
    exact ⟨short, sized.symm⟩
  · rw [ofLength, dif_neg short] at sized
    contradiction

theorem Network.not_contains_ofLength_ipv6 {bits : BitVec 128} {length : Nat} {network : Network}
    (sized : Network.ofLength (.ipv6 bits) length = some network) (other : BitVec 32) :
    ¬network.Contains (.ipv4 other) := by
  by_cases short : length < 128 + 1
  · rw [ofLength, dif_pos short, Option.some.injEq] at sized
    rw [← sized]
    exact id
  · rw [ofLength, dif_neg short] at sized
    contradiction

/-- The mask of a block is passed by the addresses of the block. -/
theorem Platform.covers_ipv4Cidr_iff {platform : Platform} (reads : ReadsDigits platform.numbers)
    {ip : Ipv4} {length : Fin (32 + 1)} {address : Text} :
    (AclEntry.ipv4Cidr (ip.bits &&& Block.mask 32 length) (Block.mask 32 length)).covers
        (normalizeRemoteAddress address)
        (platform.ipV4ToInt (normalizeRemoteAddress address)) = true ↔
      ∃ other : Ipv4, normalizeRemoteAddress address = other.text ∧
        (Block.mk ip.bits length).Contains other.bits := by
  unfold AclEntry.covers
  cases number : platform.ipV4ToInt (normalizeRemoteAddress address) with
  | none =>
      refine iff_of_false Bool.false_ne_true ?_
      rintro ⟨other, shown, _⟩
      rw [(ipV4ToInt_eq_some_iff reads).mpr ⟨other, shown, rfl⟩] at number
      contradiction
  | some bits =>
      obtain ⟨other, shown, rfl⟩ := (ipV4ToInt_eq_some_iff reads).mp number
      dsimp only
      rw [decide_eq_true_iff, Block.and_mask_eq_iff]
      constructor
      · intro inside
        exact ⟨other, shown, inside⟩
      · rintro ⟨another, shownToo, inside⟩
        rw [Ipv4.text_injective (shown.symm.trans shownToo)]
        exact inside

/-- An address that matches a well-formed entry lies in its network. -/
theorem Platform.contains_of_isAddressInAclEntries {platform : Platform}
    (reads : ReadsDigits platform.numbers) {text address : Text} {entry : AclEntry}
    {network : Network} (compiled : platform.compileEntry text = some entry)
    (wellFormed : platform.networkOf text = some network)
    (inside : platform.isAddressInAclEntries address [entry] = true) :
    ∃ bits, platform.addressOf address = some bits ∧ network.Contains bits := by
  obtain ⟨-, covered⟩ := isAddressInAclEntries_singleton.mp inside
  cases slashed : text.contains '/' with
  | false =>
      obtain ⟨-, -, rfl⟩ := (compileEntry_plain_iff slashed).mp compiled
      have same : normalizeRemoteAddress text = normalizeRemoteAddress address :=
        of_decide_eq_true covered
      rw [networkOf, splitOn_of_not_contains slashed] at wellFormed
      obtain ⟨bits, named, rfl⟩ := Option.map_eq_some_iff.mp wellFormed
      have named' : platform.addressOf address = some bits := by
        rwa [addressOf, same, ← addressOf] at named
      refine ⟨bits, named', ?_⟩
      cases bits with
      | ipv4 bits => exact Block.contains_single_iff.mpr rfl
      | ipv6 bits => exact Block.contains_single_iff.mpr rfl
  | true =>
      obtain ⟨first, second, rest, parts⟩ := splitOn_of_contains slashed
      obtain ⟨ip, length, shown, read, rfl⟩ := (compileEntry_slashed_iff reads slashed parts).mp
        compiled
      rw [networkOf, parts] at wellFormed
      cases rest with
      | cons third others => contradiction
      | nil =>
          dsimp only at wellFormed
          rw [addressOf_of_text shown] at wellFormed
          split at wellFormed
          · next bits number named digits =>
              cases named
              obtain ⟨short, rfl⟩ := Network.ofLength_ipv4_eq_some wellFormed
              have same : platform.integerUpTo 32 second = some number :=
                integerUpTo_of_digits reads digits (Nat.le_of_lt_succ short) (by decide)
              rw [read, Option.some.injEq] at same
              subst same
              have blocked : ∃ other : Ipv4, normalizeRemoteAddress address = other.text ∧
                  (Block.mk ip.bits ⟨length, short⟩).Contains other.bits :=
                (covers_ipv4Cidr_iff reads).mp covered
              obtain ⟨other, otherShown, contained⟩ := blocked
              exact ⟨.ipv4 other.bits, addressOf_of_text otherShown, contained⟩
          · contradiction

theorem Platform.text_of_addressOf_ipv4 {platform : Platform} {text : Text} {bits : BitVec 32}
    (named : platform.addressOf text = some (.ipv4 bits)) :
    ∃ ip : Ipv4, normalizeRemoteAddress text = ip.text ∧ bits = ip.bits := by
  unfold addressOf at named
  split at named
  · next ip read =>
      cases named
      exact ⟨ip, Ipv4.read_eq_some_iff.mp read, rfl⟩
  · obtain ⟨_, _, same⟩ := Option.map_eq_some_iff.mp named
    contradiction

/-- An IPv4 address in the network of an entry matches the entry. -/
theorem Platform.exists_compiled_of_ipv4 {platform : Platform}
    (reads : ReadsDigits platform.numbers) {text address : Text} {network : Network}
    {bits : BitVec 32} (wellFormed : platform.networkOf text = some network)
    (named : platform.addressOf address = some (.ipv4 bits))
    (inside : network.Contains (.ipv4 bits)) :
    ∃ entry, platform.compileEntry text = some entry ∧
      platform.isAddressInAclEntries address [entry] = true := by
  obtain ⟨other, otherShown, rfl⟩ := text_of_addressOf_ipv4 named
  have shownSome : normalizeRemoteAddress address ≠ [] := by
    rw [otherShown]
    exact other.text_ne_nil
  cases slashed : text.contains '/' with
  | false =>
      rw [networkOf, splitOn_of_not_contains slashed] at wellFormed
      obtain ⟨single, singleNamed, rfl⟩ := Option.map_eq_some_iff.mp wellFormed
      cases single with
      | ipv6 base => exact inside.elim
      | ipv4 base =>
          obtain ⟨ip, shown, rfl⟩ := text_of_addressOf_ipv4 singleNamed
          have same : other = ip := Ipv4.bits_injective (Block.contains_single_iff.mp inside)
          subst same
          have isIP : platform.isIP (normalizeRemoteAddress text) = 4 :=
            isIP_eq_four_iff.mpr ⟨other, shown⟩
          have someText : text ≠ [] := by
            rintro rfl
            exact other.text_ne_nil shown.symm
          refine ⟨_, (compileEntry_plain_iff slashed).mpr ⟨someText, by omega, rfl⟩, ?_⟩
          apply isAddressInAclEntries_singleton.mpr
          exact ⟨shownSome, decide_eq_true (shown.trans otherShown.symm)⟩
  | true =>
      obtain ⟨first, second, rest, parts⟩ := splitOn_of_contains slashed
      rw [networkOf, parts] at wellFormed
      cases rest with
      | cons third others => contradiction
      | nil =>
          dsimp only at wellFormed
          split at wellFormed
          · next base length baseNamed digits =>
              cases base with
              | ipv6 base => exact absurd inside (Network.not_contains_ofLength_ipv6 wellFormed _)
              | ipv4 base =>
                  obtain ⟨ip, shown, rfl⟩ := text_of_addressOf_ipv4 baseNamed
                  obtain ⟨short, rfl⟩ := Network.ofLength_ipv4_eq_some wellFormed
                  have read : platform.integerUpTo 32 second = some length :=
                    integerUpTo_of_digits reads digits (Nat.le_of_lt_succ short) (by decide)
                  refine ⟨_, (compileEntry_slashed_iff reads slashed parts).mpr
                    ⟨ip, length, shown, read, rfl⟩, ?_⟩
                  apply isAddressInAclEntries_singleton.mpr
                  exact ⟨shownSome, (@covers_ipv4Cidr_iff platform reads ip ⟨length, short⟩ _).mpr
                    ⟨other, otherShown, inside⟩⟩
          · contradiction

/-- On IPv4 addresses no well-formed entry is missed. -/
theorem Platform.matches_of_listed_ipv4 {platform : Platform}
    (reads : ReadsDigits platform.numbers) {entries : List Json} {address : Text}
    {bits : BitVec 32} (named : platform.addressOf address = some (.ipv4 bits))
    (listed : platform.Listed entries address) :
    ∃ entryRaw ∈ entries, platform.Matches entryRaw address := by
  obtain ⟨entryRaw, member, text, network, _, read, wellFormed, same, inside⟩ := listed
  rw [named, Option.some.injEq] at same
  subst same
  obtain ⟨entry, compiled, matched⟩ := exists_compiled_of_ipv4 reads wellFormed named inside
  exact ⟨entryRaw, member, text, entry, read, compiled, matched⟩

/-- An address matches only malformed entries, or it is listed. -/
theorem Platform.listed_of_matches {platform : Platform} (reads : ReadsDigits platform.numbers)
    {entries : List Json} {address : Text} {entryRaw : Json} (member : entryRaw ∈ entries)
    (wellFormed : ¬platform.Malformed entryRaw) (matched : platform.Matches entryRaw address) :
    platform.Listed entries address := by
  obtain ⟨text, entry, read, compiled, inside⟩ := matched
  cases meaning : platform.networkOf text with
  | none =>
      refine absurd ?_ wellFormed
      intro other readToo
      rw [read, Option.some.injEq] at readToo
      rw [← readToo, meaning]
  | some network =>
      obtain ⟨bits, named, contained⟩ :=
        contains_of_isAddressInAclEntries reads compiled meaning inside
      exact ⟨entryRaw, member, text, network, bits, read, meaning, named, contained⟩

theorem Platform.compiled_of_build {platform : Platform} {config : Json} {acl : ConnectionAcl}
    (built : platform.buildConnectionAclConfig config = some acl) :
    platform.compileAclEntries (cidrs (aclOf config) "allowCidrs") = some acl.allowEntries ∧
      platform.compileAclEntries (cidrs (aclOf config) "denyCidrs") = some acl.denyEntries := by
  simp only [buildConnectionAclConfig, bind, pure, Option.bind_eq_some_iff,
    Option.some.injEq] at built
  obtain ⟨_, _, _, _, allow, allowEq, deny, denyEq, rfl⟩ := built
  exact ⟨allowEq, denyEq⟩

/-- An enabled list refuses an address that matches a deny entry, or that matches
no allow entry while there are some. -/
theorem Platform.isAddressAllowed_eq_false_iff {platform : Platform} {config : Json}
    {acl : ConnectionAcl} (built : platform.buildConnectionAclConfig config = some acl)
    (enabled : acl.enabled = true) (address : Text) :
    platform.isAddressAllowed acl address = false ↔
      (∃ entryRaw ∈ cidrs (aclOf config) "denyCidrs", platform.Matches entryRaw address) ∨
        (∃ entryRaw ∈ cidrs (aclOf config) "allowCidrs", platform.Compiles entryRaw) ∧
          ¬∃ entryRaw ∈ cidrs (aclOf config) "allowCidrs", platform.Matches entryRaw address := by
  obtain ⟨allow, deny⟩ := compiled_of_build built
  rw [← isAddressInAclEntries_compile_iff deny, ← isAddressInAclEntries_compile_iff allow,
    ← isEmpty_compile_iff allow, isAddressAllowed, enabled]
  cases platform.isAddressInAclEntries address acl.denyEntries <;>
    cases acl.allowEntries.isEmpty <;>
      cases platform.isAddressInAclEntries address acl.allowEntries <;> simp

/-- An enabled list fails closed for an address exactly if a deny entry matches
the address or the lists are sound for it. -/
theorem Platform.accessList_failsClosed_iff {platform : Platform}
    (reads : ReadsDigits platform.numbers) {config : Json} {acl : ConnectionAcl}
    (built : platform.buildConnectionAclConfig config = some acl) (enabled : acl.enabled = true)
    (address : Text) :
    platform.FailsClosed config acl address ↔
      (∃ entryRaw ∈ cidrs (aclOf config) "denyCidrs", platform.Matches entryRaw address) ∨
        platform.Sound (cidrs (aclOf config) "allowCidrs") (cidrs (aclOf config) "denyCidrs")
          address := by
  unfold FailsClosed
  rw [isAddressAllowed_eq_false_iff built enabled]
  generalize cidrs (aclOf config) "allowCidrs" = allow
  generalize cidrs (aclOf config) "denyCidrs" = deny
  constructor
  · intro closed
    by_cases denied : ∃ entryRaw ∈ deny, platform.Matches entryRaw address
    · exact Or.inl denied
    · refine Or.inr ?_
      by_cases claimed : ¬platform.Listed allow address ∨ platform.Listed deny address
      · rcases closed claimed with caught | ⟨some, unmatched⟩
        · exact absurd caught denied
        · exact ⟨Or.inl some,
            fun entryRaw member _ matched => absurd ⟨entryRaw, member, matched⟩ unmatched,
            fun _ entryRaw member matched => unmatched ⟨entryRaw, member, matched⟩⟩
      · obtain ⟨listed, notDenied⟩ := not_or.mp claimed
        exact ⟨Or.inr ⟨not_not.mp listed, notDenied⟩, fun _ _ _ _ => not_not.mp listed,
          fun inDeny => absurd inDeny notDenied⟩
  · rintro (caught | sound) claimed
    · exact Or.inl caught
    · refine Or.inr ⟨?_, ?_⟩
      · rcases sound.compiled with some | ⟨listed, notDenied⟩
        · exact some
        · rcases claimed with notListed | inDeny
          · exact absurd listed notListed
          · exact absurd inDeny notDenied
      · rintro ⟨entryRaw, member, matched⟩
        rcases claimed with notListed | inDeny
        · by_cases malformed : platform.Malformed entryRaw
          · exact notListed (sound.plain entryRaw member malformed matched)
          · exact notListed (listed_of_matches reads member malformed matched)
        · exact sound.denied inDeny entryRaw member matched

/-! ## Two configurations -/

/-- Numbers that are read where they are written in digits. -/
def numbersExample : NumberFormat :=
  { NumberFormat.integers with read := fun text => (digitsNumber text).map Nat.cast }

theorem readsDigits_numbersExample : ReadsDigits numbersExample := by
  intro text n digits _
  change (digitsNumber text).map Nat.cast = some (n : ℚ)
  rw [digits]
  rfl

/-- A platform that is asked for one IPv6 address. -/
def platformExample : Platform where
  numbers := numbersExample
  ipv6 text := if text = "2001:db8::".toList then some (0x20010db8 <<< 96) else none

/-- A list that is enabled and has one allow entry. -/
def configExample (cidr : String) : Json :=
  .object [("connectionAcl".toList, .object [("enabled".toList, .bool true),
    ("allowCidrs".toList, .array [.string cidr.toList])])]

/-- What such a list is built to. -/
def aclExample (allowEntries : List AclEntry) : ConnectionAcl where
  enabled := true
  allowEntries := allowEntries
  denyEntries := []
  logDenied := true
  banOnBadJson := true
  maxBadJsonBeforeClose := 3
  badJsonBanSeconds := 900

theorem built_lanExample : platformExample.buildConnectionAclConfig (configExample "10.0.0.0/8") =
    some (aclExample [.ipv4Cidr 0x0a000000 0xff000000]) :=
  rfl

theorem not_matches_lanExample :
    ¬platformExample.Matches (.string "10.0.0.0/8".toList) "203.0.113.9".toList := by
  rintro ⟨text, entry, read, compiled, inside⟩
  have readText : platformExample.entryText (.string "10.0.0.0/8".toList) =
      some "10.0.0.0/8".toList := by decide
  rw [readText, Option.some.injEq] at read
  subst read
  have compiledEntry : platformExample.compileEntry "10.0.0.0/8".toList =
      some (.ipv4Cidr 0x0a000000 0xff000000) := by decide
  rw [compiledEntry, Option.some.injEq] at compiled
  subst compiled
  revert inside
  decide

/-- A list for the local network is closed to the others. -/
theorem Platform.accessList_failsClosed_lan :
    platformExample.FailsClosed (configExample "10.0.0.0/8")
      (aclExample [.ipv4Cidr 0x0a000000 0xff000000]) "203.0.113.9".toList := by
  apply (accessList_failsClosed_iff readsDigits_numbersExample built_lanExample rfl _).mpr
  refine Or.inr ⟨Or.inl ⟨_, List.mem_cons_self, _, _, rfl, rfl⟩, ?_, ?_⟩
  · intro entryRaw member _ matched
    cases List.mem_singleton.mp member
    exact absurd matched not_matches_lanExample
  · rintro ⟨entryRaw, member, _⟩
    exact absurd member List.not_mem_nil

/-- A list with an IPv6 block only is open to everyone: with the block left out
there is no restriction. -/
theorem Platform.not_failsClosed_ipv6Only : ¬∀ (platform : Platform) (config : Json)
    (acl : ConnectionAcl) (address : Text), ReadsDigits platform.numbers →
    platform.buildConnectionAclConfig config = some acl → acl.enabled = true →
    platform.HasEntry (cidrs (aclOf config) "allowCidrs") →
      platform.FailsClosed config acl address := by
  intro always
  have configured : platformExample.HasEntry
      (cidrs (aclOf (configExample "2001:db8::/32")) "allowCidrs") :=
    ⟨_, List.mem_cons_self, "2001:db8::/32".toList, rfl, by decide⟩
  have closed := always platformExample (configExample "2001:db8::/32") (aclExample [])
    "203.0.113.9".toList readsDigits_numbersExample rfl rfl configured
  have elsewhere : ¬platformExample.Listed
      (cidrs (aclOf (configExample "2001:db8::/32")) "allowCidrs") "203.0.113.9".toList := by
    rintro ⟨entryRaw, member, text, network, bits, read, meaning, named, inside⟩
    cases List.mem_singleton.mp member
    have readText : platformExample.entryText (.string "2001:db8::/32".toList) =
        some "2001:db8::/32".toList := by decide
    rw [readText, Option.some.injEq] at read
    subst read
    have block : platformExample.networkOf "2001:db8::/32".toList =
        some (.ipv6 ⟨0x20010db8 <<< 96, 32⟩) := by decide
    rw [block, Option.some.injEq] at meaning
    subst meaning
    have ipv4 : platformExample.addressOf "203.0.113.9".toList = some (.ipv4 0xcb007109) := by
      decide
    rw [ipv4, Option.some.injEq] at named
    subst named
    exact inside
  have refused := closed (Or.inl elsewhere)
  have allowed : platformExample.isAddressAllowed (aclExample []) "203.0.113.9".toList = true := by
    decide
  rw [allowed] at refused
  cases refused

end ZcashSoloPool.Stratum
