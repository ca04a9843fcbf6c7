import ZcashSoloPool.Stratum.Acl

/-!
# What the access list matches

An IPv4 address passes the compiled list exactly if it lies in a well-formed
entry, as long as no entry is misread: `Number` makes a length of texts that
are no decimal numbers, such as the empty one, and what stands behind a second
slash is not looked at.
-/

namespace ZcashSoloPool.Stratum

open ZcashSoloPool.Bytes
open ZcashSoloPool.JavaScript
open ZcashSoloPool.Web
open ZcashSoloPool.WorkManager (digitsNumber)

/-! ## The texts of an address -/

/-- The ways in which the address of a connection is written. -/
inductive RemoteText (ip : Ipv4) : Text → Prop
  | plain : RemoteText ip ip.text
  | mapped : RemoteText ip ("::ffff:".toList ++ ip.text)

/-- A decimal digit is a hexadecimal one. -/
theorem mem_digits_of_isDigit {c : Char} (digit : c.isDigit = true) : c ∈ digits := by
  simp only [Char.isDigit, Bool.and_eq_true, decide_eq_true_eq] at digit
  have low : '0'.toNat ≤ c.toNat := digit.1
  have high : c.toNat ≤ '9'.toNat := digit.2
  have all : ∀ n, '0'.toNat ≤ n → n ≤ '9'.toNat → Char.ofNat n ∈ digits := by decide
  rw [← Char.ofNat_toNat c]
  exact all c.toNat low high

/-- The characters of an address have no letter case and are no white space. -/
theorem plain_of_mem_text {ip : Ipv4} {c : Char} (member : c ∈ ip.text) :
    c.toLower = c ∧ ¬isSpace c = true := by
  rcases Ipv4.digit_or_point member with digit | rfl
  · have listed := mem_digits_of_isDigit digit
    exact ⟨toLower_of_mem listed, by simp [isSpace_of_mem_digits listed]⟩
  · decide

theorem normalizeRemoteAddress_text (ip : Ipv4) : normalizeRemoteAddress ip.text = ip.text := by
  have lower : toLowerCase ip.text = ip.text := by
    rw [toLowerCase, List.map_congr_left fun c member => (plain_of_mem_text member).1]
    exact List.map_id' ip.text
  have notMapped : ip.text.take 7 ≠ "::ffff:".toList := by
    intro mapped
    have colon : ':' ∈ ip.text.take 7 := by rw [mapped]; decide
    rcases Ipv4.digit_or_point (List.mem_of_mem_take colon) with digit | point
    · contradiction
    · contradiction
  rw [normalizeRemoteAddress, trim_of_not_isSpace fun c member => (plain_of_mem_text member).2,
    lower]
  exact if_neg notMapped

theorem normalizeRemoteAddress_mapped (ip : Ipv4) :
    normalizeRemoteAddress ("::ffff:".toList ++ ip.text) = ip.text := by
  have front : ("::ffff:".toList.all fun c =>
      decide (c.toLower = c ∧ ¬isSpace c = true)) = true := by
    decide
  have whole : ∀ c ∈ "::ffff:".toList ++ ip.text, c.toLower = c ∧ ¬isSpace c = true := by
    intro c member
    rcases List.mem_append.mp member with member | member
    · exact of_decide_eq_true (List.all_eq_true.mp front c member)
    · exact plain_of_mem_text member
  have lower : toLowerCase ("::ffff:".toList ++ ip.text) = "::ffff:".toList ++ ip.text := by
    rw [toLowerCase, List.map_congr_left fun c member => (whole c member).1]
    exact List.map_id' _
  rw [normalizeRemoteAddress, trim_of_not_isSpace fun c member => (whole c member).2, lower]
  rfl

theorem RemoteText.normalized {ip : Ipv4} {address : Text} (remote : RemoteText ip address) :
    normalizeRemoteAddress address = ip.text := by
  cases remote with
  | plain => exact normalizeRemoteAddress_text ip
  | mapped => exact normalizeRemoteAddress_mapped ip

/-! ## Misread entries -/

/-- The entry is compiled to a block although what stands behind its slash is no
decimal number from 0 to 32, or is followed by another slash. -/
def Platform.Misread (platform : Platform) (entryRaw : Json) (block : Block 32) : Prop :=
  ∃ text first second rest, ∃ ip : Ipv4, platform.entryText entryRaw = some text ∧
    text.splitOn '/' = first :: second :: rest ∧ normalizeRemoteAddress first = ip.text ∧
      platform.integerUpTo 32 second = some block.length.val ∧ block.base = ip.bits ∧
        ((∀ length ≤ 32, digitsNumber second ≠ some length) ∨ rest ≠ [])

theorem Platform.integerUpTo_le {platform : Platform} {bound n : Nat} {text : Text}
    (read : platform.integerUpTo bound text = some n) : n ≤ bound := by
  unfold integerUpTo at read
  split at read
  · split at read
    · next inside =>
        rw [← Option.some.inj read]
        omega
    · contradiction
  · contradiction

/-- A misread entry matches the addresses of its block. -/
theorem Platform.matches_of_misread {platform : Platform} (reads : ReadsDigits platform.numbers)
    {entryRaw : Json} {block : Block 32} (misread : platform.Misread entryRaw block) {ip : Ipv4}
    {address : Text} (remote : RemoteText ip address) (inside : block.Contains ip.bits) :
    platform.Matches entryRaw address := by
  obtain ⟨text, first, second, rest, base, read, parts, shown, length, baseEq, -⟩ := misread
  have slashed : text.contains '/' = true := by
    cases contains : text.contains '/' with
    | true => rfl
    | false =>
        rw [splitOn_of_not_contains contains] at parts
        cases parts
  have compiled := (compileEntry_slashed_iff reads slashed parts).mpr
    ⟨base, block.length.val, shown, length, rfl⟩
  refine ⟨text, _, read, compiled, isAddressInAclEntries_singleton.mpr ⟨?_, ?_⟩⟩
  · rw [remote.normalized]
    exact ip.text_ne_nil
  · apply (covers_ipv4Cidr_iff reads).mpr
    refine ⟨ip, remote.normalized, ?_⟩
    rw [← baseEq]
    exact inside

/-- Text that is no address once it is normalised. -/
theorem Platform.isIP_eq_zero_of_addressOf {platform : Platform} {text : Text}
    (noAddress : platform.addressOf text = none) :
    platform.isIP (normalizeRemoteAddress text) = 0 := by
  unfold addressOf at noAddress
  split at noAddress
  · contradiction
  · next notIpv4 =>
      rw [Option.map_eq_none_iff] at noAddress
      simp [isIP, notIpv4, noAddress]

/-- A malformed entry that is compiled is misread. -/
theorem Platform.misread_of_malformed {platform : Platform} (reads : ReadsDigits platform.numbers)
    {entryRaw : Json} {text : Text} {entry : AclEntry}
    (read : platform.entryText entryRaw = some text) (meaningless : platform.networkOf text = none)
    (compiled : platform.compileEntry text = some entry) :
    ∃ block, platform.Misread entryRaw block ∧
      entry = .ipv4Cidr (block.base &&& Block.mask 32 block.length)
        (Block.mask 32 block.length) := by
  cases slashed : text.contains '/' with
  | false =>
      obtain ⟨-, isAddress, -⟩ := (compileEntry_plain_iff slashed).mp compiled
      rw [networkOf, splitOn_of_not_contains slashed] at meaningless
      exact absurd (isIP_eq_zero_of_addressOf (Option.map_eq_none_iff.mp meaningless)) isAddress
  | true =>
      obtain ⟨first, second, rest, parts⟩ := splitOn_of_contains slashed
      obtain ⟨ip, length, shown, number, rfl⟩ := (compileEntry_slashed_iff reads slashed parts).mp
        compiled
      refine ⟨⟨ip.bits, ⟨length, Nat.lt_succ_of_le (integerUpTo_le number)⟩⟩,
        ⟨text, first, second, rest, ip, read, parts, shown, number, rfl, ?_⟩, rfl⟩
      by_cases more : rest = []
      · left
        intro decimal small digits
        rw [networkOf, parts, more] at meaningless
        dsimp only at meaningless
        rw [addressOf_of_text shown, digits] at meaningless
        simp [Network.ofLength, Nat.lt_succ_of_le small] at meaningless
      · exact Or.inr more

/-- An entry that matches an address is well-formed and contains it, or it is
misread and its block contains it. -/
theorem Platform.listed_or_misread {platform : Platform} (reads : ReadsDigits platform.numbers)
    {entries : List Json} {entryRaw : Json} (member : entryRaw ∈ entries) {ip : Ipv4}
    {address : Text} (remote : RemoteText ip address)
    (matched : platform.Matches entryRaw address) :
    platform.Listed entries address ∨
      ∃ block, platform.Misread entryRaw block ∧ block.Contains ip.bits := by
  by_cases malformed : platform.Malformed entryRaw
  · right
    obtain ⟨text, entry, read, compiled, inside⟩ := matched
    obtain ⟨block, misread, rfl⟩ := misread_of_malformed reads read (malformed text read) compiled
    obtain ⟨_, _, _, _, base, _, _, _, _, baseEq, _⟩ := id misread
    refine ⟨block, misread, ?_⟩
    obtain ⟨-, covered⟩ := isAddressInAclEntries_singleton.mp inside
    rw [baseEq] at covered
    obtain ⟨other, shown, contained⟩ := (covers_ipv4Cidr_iff reads).mp covered
    have same : other = ip := Ipv4.text_injective (shown.symm.trans remote.normalized)
    rw [← same]
    rw [← baseEq] at contained
    exact contained
  · exact Or.inl (listed_of_matches reads member malformed matched)

/-! ## When the list is exact -/

/-- An IPv4 address passes the compiled list exactly if it lies in a well-formed
entry, if and only if every misread entry whose block contains it stands beside
a well-formed one that does. -/
theorem Platform.accessList_exact_iff {platform : Platform} (reads : ReadsDigits platform.numbers)
    {entries : List Json} {compiled : List AclEntry}
    (compiles : platform.compileAclEntries entries = some compiled) {ip : Ipv4} {address : Text}
    (remote : RemoteText ip address) :
    (platform.isAddressInAclEntries address compiled = true ↔ platform.Listed entries address) ↔
      ∀ entryRaw ∈ entries, ∀ block, platform.Misread entryRaw block →
        block.Contains ip.bits → platform.Listed entries address := by
  have named : platform.addressOf address = some (.ipv4 ip.bits) :=
    addressOf_of_text remote.normalized
  rw [isAddressInAclEntries_compile_iff compiles]
  constructor
  · intro exact entryRaw member block misread inside
    exact exact.mp ⟨entryRaw, member, matches_of_misread reads misread remote inside⟩
  · intro beside
    constructor
    · rintro ⟨entryRaw, member, matched⟩
      rcases listed_or_misread reads member remote matched with listed | ⟨block, misread, inside⟩
      · exact listed
      · exact beside entryRaw member block misread inside
    · exact matches_of_listed_ipv4 reads named

/-- Digits are read as the number they write, and the empty text as zero. -/
def emptyZero : NumberFormat :=
  { NumberFormat.integers with
    read := fun text => if text = [] then some 0 else (digitsNumber text).map Nat.cast }

theorem readsDigits_emptyZero : ReadsDigits emptyZero := by
  intro text n digits _
  have nonempty : text ≠ [] := by
    rintro rfl
    contradiction
  change (if text = [] then some 0 else (digitsNumber text).map Nat.cast) = some (n : ℚ)
  rw [if_neg nonempty, digits]
  rfl

/-- A platform that reads the empty text as zero and knows no IPv6 address. -/
def emptyZeroPlatform : Platform :=
  ⟨emptyZero, fun _ => none⟩

/-- The block of a well-formed entry is the one that is matched. -/
theorem Platform.accessList_exact_lan :
    emptyZeroPlatform.isAddressInAclEntries "::ffff:10.1.2.3".toList
        [.ipv4Cidr 0x0a000000 0xff000000] = true ↔
      emptyZeroPlatform.Listed [.string "10.0.0.0/8".toList] "::ffff:10.1.2.3".toList := by
  have remote : RemoteText ⟨10, 1, 2, 3⟩ "::ffff:10.1.2.3".toList := RemoteText.mapped
  apply (accessList_exact_iff readsDigits_emptyZero rfl remote).mpr
  rintro entryRaw member block ⟨text, first, second, rest, ip, read, parts, -, -, -, unclear⟩ -
  cases List.mem_singleton.mp member
  have readText : emptyZeroPlatform.entryText (.string "10.0.0.0/8".toList) =
      some "10.0.0.0/8".toList := by decide
  rw [readText, Option.some.injEq] at read
  subst read
  have split : "10.0.0.0/8".toList.splitOn '/' = ["10.0.0.0".toList, "8".toList] := by decide
  rw [split] at parts
  cases parts
  rcases unclear with noLength | more
  · exact absurd (by decide) (noLength 8 (by decide))
  · contradiction

/-- An entry with nothing behind its slash matches every address. -/
theorem Platform.not_accessList_exact_emptyLength : ¬∀ (platform : Platform)
    (entries : List Json) (compiled : List AclEntry) (ip : Ipv4) (address : Text),
    ReadsDigits platform.numbers → platform.compileAclEntries entries = some compiled →
    RemoteText ip address →
      (platform.isAddressInAclEntries address compiled = true ↔
        platform.Listed entries address) := by
  intro always
  have remote : RemoteText ⟨203, 0, 113, 9⟩ "203.0.113.9".toList := RemoteText.plain
  have exact := always emptyZeroPlatform [.string "10.0.0.0/".toList] [.ipv4Cidr 0 0] _ _
    readsDigits_emptyZero rfl remote
  obtain ⟨entryRaw, member, text, network, _, read, meaning, _⟩ := exact.mp (by decide)
  cases List.mem_singleton.mp member
  have readText : emptyZeroPlatform.entryText (.string "10.0.0.0/".toList) =
      some "10.0.0.0/".toList := by decide
  rw [readText, Option.some.injEq] at read
  subst read
  have meaningless : emptyZeroPlatform.networkOf "10.0.0.0/".toList = none := by decide
  rw [meaningless] at meaning
  contradiction

end ZcashSoloPool.Stratum
