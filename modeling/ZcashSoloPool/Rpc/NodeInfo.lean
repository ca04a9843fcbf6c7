import ZcashSoloPool.Collections.OrderedMap
import ZcashSoloPool.Rpc.NetworkRate

/-!
# What the pool knows of its node

`getInfo` asks for the state of the chain and writes into the reply what three
other requests say of the node, its peers and the rate of the network.  Only the
first request can make it fail; the others are taken for what they are worth.
-/

namespace ZcashSoloPool.Rpc

open ZcashSoloPool.JavaScript
open ZcashSoloPool.Collections

/-! ## Objects that members are written to -/

/-- An object or an array of a reply, with the members written to it. -/
structure Info where
  elements : Option (List Json)
  members : List (Text × Json)

namespace Info

/-- The object or array; no other value takes members. -/
def ofJson : Json → Option Info
  | .object members => some ⟨none, members⟩
  | .array elements => some ⟨some elements, []⟩
  | _ => none

/-- `info[name]`. -/
def member (info : Info) (name : String) : Option Json :=
  info.members.lookup name.toList

/-- `info[name] = value`. -/
def set (info : Info) (name : String) (value : Json) : Info :=
  { info with members :=
      if info.members.any fun entry => entry.1 = name.toList then
        OrderedMap.replace info.members name.toList value
      else info.members ++ [(name.toList, value)] }

theorem lookup_cons_eq (key other : Text) (value : Json) (rest : List (Text × Json)) :
    ((key, value) :: rest).lookup other = if other = key then some value else rest.lookup other := by
  by_cases asked : other = key
  · simp [asked]
  · simp [List.lookup_cons, beq_false_of_ne asked, asked]

theorem lookup_replace (members : List (Text × Json)) (key other : Text) (value : Json) :
    (OrderedMap.replace members key value).lookup other =
      if other = key then (members.lookup key).map fun _ => value else members.lookup other := by
  induction members with
  | nil => simp [OrderedMap.replace]
  | cons entry rest ih =>
      obtain ⟨first, old⟩ := entry
      rw [OrderedMap.replace] at ih ⊢
      rw [List.map_cons]
      by_cases same : first = key
      · subst same
        rw [if_pos rfl, lookup_cons_eq, lookup_cons_eq, lookup_cons_eq, ih, if_pos rfl]
        by_cases asked : other = first <;> simp [asked]
      · rw [if_neg same, lookup_cons_eq, lookup_cons_eq, lookup_cons_eq, ih,
          if_neg (Ne.symm same)]
        by_cases asked : other = first
        · subst asked
          simp [same]
        · simp [asked]

theorem isSome_lookup {members : List (Text × Json)} {key : Text}
    (known : members.any fun entry => entry.1 = key) : ∃ old, members.lookup key = some old := by
  induction members with
  | nil => contradiction
  | cons entry rest ih =>
      rw [lookup_cons_eq]
      rw [List.any_cons, Bool.or_eq_true, decide_eq_true_eq] at known
      by_cases same : key = entry.1
      · exact ⟨entry.2, if_pos same⟩
      · rw [if_neg same]
        exact ih (known.resolve_left (Ne.symm same))

theorem lookup_append {members : List (Text × Json)} {key : Text}
    (fresh : ¬members.any fun entry => entry.1 = key) (other : Text) (value : Json) :
    (members ++ [(key, value)]).lookup other =
      if other = key then some value else members.lookup other := by
  induction members with
  | nil => exact lookup_cons_eq key other value []
  | cons entry rest ih =>
      obtain ⟨first, old⟩ := entry
      simp only [List.any_cons, Bool.or_eq_true, decide_eq_true_eq, not_or] at fresh
      rw [List.cons_append, lookup_cons_eq, lookup_cons_eq, ih fresh.2]
      by_cases asked : other = first
      · subst asked
        simp [fresh.1]
      · simp [asked]

/-- A member that was written reads back, and every other one is as before. -/
@[simp]
theorem member_set (info : Info) (name other : String) (value : Json) :
    (info.set name value).member other =
      if other = name then some value else info.member other := by
  have names : other.toList = name.toList ↔ other = name := String.toList_inj
  unfold set member
  dsimp only
  split
  · next known =>
      obtain ⟨old, found⟩ := isSome_lookup known
      simp [lookup_replace, found, names]
  · next fresh => simp [lookup_append fresh, names]

/-- The second is the first with some members written. -/
structure Overlays (names : List String) (before after : Info) : Prop where
  elements : after.elements = before.elements
  others : ∀ name ∉ names, after.member name = before.member name

theorem Overlays.refl (names : List String) (info : Info) : Overlays names info info :=
  ⟨rfl, fun _ _ => rfl⟩

theorem Overlays.trans {names others : List String} {first second third : Info}
    (earlier : Overlays names first second) (later : Overlays others second third)
    (known : others ⊆ names) : Overlays names first third where
  elements := later.elements.trans earlier.elements
  others name absent :=
    (later.others name fun member => absent (known member)).trans (earlier.others name absent)

theorem Overlays.set {names : List String} {before after : Info}
    (overlays : Overlays names before after) {name : String} (known : name ∈ names)
    (value : Json) : Overlays names before (after.set name value) where
  elements := overlays.elements
  others other absent := by
    have different : other ≠ name := by
      rintro rfl
      exact absent known
    rw [member_set, if_neg different]
    exact overlays.others other absent

end Info

/-! ## The requests -/

/-- `left || right`, where the left one may be missing. -/
def orTruthy (left : Option Json) (right : Json) : Json :=
  (left.filter Json.truthy).getD right

/-- `Number(_)`, with `none` where it throws; what is missing is no number. -/
def numberOf (numbers : NumberFormat) : Option Json → Option (Option ℚ)
  | some value => value.toNumber? numbers
  | none => some none

/-- `_.catch(() => fallback)`. -/
def caught (fallback : Json) : Except RpcError (Option Json) → Option Json
  | .ok result => result
  | .error _ => some fallback

/-- The versions of the node, with what `getnetworkinfo` says first. -/
def writeVersions (netInfo : Json) (info : Info) : Info :=
  let info := info.set "version"
    (orTruthy (netInfo.member "version")
      (orTruthy (info.member "version") (.string "zebrad".toList)))
  let info := info.set "subversion"
    (orTruthy (netInfo.member "subversion") (orTruthy (info.member "subversion") .null))
  info.set "protocolversion"
    (orTruthy (netInfo.member "protocolversion") (orTruthy (info.member "protocolversion") .null))

/-- What `getnetworkinfo` says, where it is an object. -/
def writeNetInfo (numbers : NumberFormat) (netInfo : Json) (info : Info) :
    Except RpcError Info :=
  let info := writeVersions netInfo info
  match numberOf numbers (netInfo.member "connections") with
  | none => .error conversionError
  | some (some connections) =>
      .ok (if 0 ≤ connections then info.set "connections" (.number connections) else info)
  | some none => .ok info

/-- The version of a node that does not say it. -/
def writeDefault (info : Info) : Info :=
  if (info.member "version").any Json.truthy then info
  else info.set "version" (.string "zebrad".toList)

/-- The object that `summarizePeers` returns. -/
structure PeerSummary where
  total : ℚ
  inbound : Nat
  outbound : Nat

/-- `peer && peer.inbound === flag`. -/
def isInbound (flag : Bool) (peer : Json) : Bool :=
  match peer.member "inbound" with
  | some (.bool inbound) => inbound == flag
  | _ => false

/-- The peers of one direction. -/
def countPeers (flag : Bool) (peers : List Json) : Nat :=
  peers.countP (isInbound flag)

/-- `netInfo && netInfo.connections`. -/
def connectionsOf (netInfo : Option Json) : Option Json :=
  match netInfo with
  | some value => if value.truthy then value.member "connections" else some value
  | none => none

/-- `summarizePeers`, where the inner `none` is `null` and the outer one is a
conversion that throws. -/
def summarizePeers (numbers : NumberFormat) (peerInfo netInfo : Option Json) :
    Option (Option PeerSummary) :=
  (numberOf numbers (connectionsOf netInfo)).map fun totalFromNetInfo =>
    match peerInfo with
    | some (.array peers) =>
        some ⟨peers.length, countPeers true peers, countPeers false peers⟩
    | _ => (totalFromNetInfo.filter fun total => 0 ≤ total).map fun total => ⟨total, 0, 0⟩

/-- The summary as an object. -/
def PeerSummary.toJson (summary : PeerSummary) : Json :=
  .object [("total".toList, .number summary.total),
    ("inbound".toList, .number summary.inbound),
    ("outbound".toList, .number summary.outbound)]

/-- The summary and its counts, written to the reply. -/
def writePeers (summary : Option PeerSummary) (info : Info) : Info :=
  match summary with
  | none => info
  | some summary =>
      let info := info.set "peerSummary" summary.toJson
      let info := info.set "incomingPeers" (.number summary.inbound)
      info.set "outgoingPeers" (.number summary.outbound)

/-- The reply tells a rate of the network; `none` where a conversion throws. -/
def tellsRate (numbers : NumberFormat) (info : Info) : Option Bool :=
  match numberOf numbers (info.member "networksolps") with
  | none => none
  | some (some _) => some true
  | some none => (numberOf numbers (info.member "networkhashps")).map Option.isSome

/-- The rate of the network, written to a reply that does not tell it.
`Number(null)` is zero, which stands for a rate that is not known. -/
def writeRate (numbers : NumberFormat) (node : Node) (rate : NetworkRate) (info : Info) :
    NetworkRate × Except RpcError Info :=
  match tellsRate numbers info with
  | none => (rate, .error conversionError)
  | some true => (rate, .ok info)
  | some false =>
      let (_, rate, solps) := getNetworkSolps numbers rate node
      (rate, .ok (info.set "networksolps" (.number (solps.getD 0))))

/-- What the node says of itself, written to the reply. -/
def writeNode (numbers : NumberFormat) (netInfo : Option Json) (info : Info) :
    Except RpcError Info :=
  match netInfo.filter isObject with
  | some netInfo => writeNetInfo numbers netInfo info
  | none => .ok (writeDefault info)

/-- `getInfo` with the members of a reply in hand. -/
def completeInfo (numbers : NumberFormat) (node : Node) (rate : NetworkRate)
    (netInfo peerInfo : Option Json) (info : Info) : NetworkRate × Except RpcError Info :=
  match writeNode numbers netInfo info with
  | .error error => (rate, .error error)
  | .ok info =>
      match summarizePeers numbers peerInfo netInfo with
      | none => (rate, .error conversionError)
      | some summary => writeRate numbers node rate (writePeers summary info)

/-- The reply to `getnetworkinfo`. -/
def netInfoReply (numbers : NumberFormat) (node : Node) : Option Json :=
  caught (.object []) (call numbers node "getnetworkinfo".toList [])

/-- The reply to `getpeerinfo`. -/
def peerInfoReply (numbers : NumberFormat) (node : Node) : Option Json :=
  caught .null (call numbers node "getpeerinfo".toList [])

/-- `getInfo`, with the fields that the discovery of the rate changes.  A reply
that takes no members makes the first assignment throw, with a message of the
engine. -/
def getInfo (numbers : NumberFormat) (typeError : Option Json → RpcError) (node : Node)
    (rate : NetworkRate) : NetworkRate × Except RpcError Info :=
  match call numbers node "getblockchaininfo".toList [] with
  | .error error => (rate, .error error)
  | .ok result =>
      match result.bind Info.ofJson with
      | none => (rate, .error (typeError result))
      | some info =>
          completeInfo numbers node rate (netInfoReply numbers node) (peerInfoReply numbers node)
            info

/-! ## What is written -/

/-- The members that `getInfo` writes. -/
def writtenNames : List String :=
  ["version", "subversion", "protocolversion", "connections", "peerSummary", "incomingPeers",
    "outgoingPeers", "networksolps"]

/-- What `getInfo` has written so far: the version, with the rate as the node told
it. -/
structure Versioned (before after : Info) : Prop where
  overlays : Info.Overlays writtenNames before after
  version : ∃ version, after.member "version" = some version ∧ version.truthy = true
  solps : after.member "networksolps" = before.member "networksolps"

theorem truthy_orTruthy (left : Option Json) {right : Json} (truthy : right.truthy = true) :
    (orTruthy left right).truthy = true := by
  unfold orTruthy
  cases kept : left.filter Json.truthy with
  | none => exact truthy
  | some value =>
      obtain ⟨-, holds⟩ := Option.filter_eq_some_iff.mp kept
      exact holds

theorem Versioned.set {before after : Info} (versioned : Versioned before after) {name : String}
    (known : name ∈ writtenNames) (notVersion : "version" ≠ name)
    (notSolps : "networksolps" ≠ name) (value : Json) :
    Versioned before (after.set name value) where
  overlays := versioned.overlays.set known value
  version := by
    rw [Info.member_set, if_neg notVersion]
    exact versioned.version
  solps := by
    rw [Info.member_set, if_neg notSolps]
    exact versioned.solps

/-- A version is written last of all to `version`. -/
theorem versioned_set (before : Info) {version : Json} (truthy : version.truthy = true) :
    Versioned before (before.set "version" version) where
  overlays := (Info.Overlays.refl writtenNames before).set (by decide) version
  version := ⟨version, by simp, truthy⟩
  solps := by simp

theorem versioned_writeVersions (netInfo : Json) (before : Info) :
    Versioned before (writeVersions netInfo before) := by
  have zebrad : (Json.string "zebrad".toList).truthy = true := rfl
  have versioned := versioned_set before
    (truthy_orTruthy (netInfo.member "version") (truthy_orTruthy (before.member "version") zebrad))
  exact (versioned.set (by decide) (by decide) (by decide) _).set (by decide) (by decide)
    (by decide) _

theorem versioned_writeDefault (before : Info) : Versioned before (writeDefault before) := by
  unfold writeDefault
  split
  · next told =>
      refine ⟨Info.Overlays.refl _ _, ?_, rfl⟩
      cases member : before.member "version" with
      | none =>
          rw [member] at told
          contradiction
      | some version =>
          rw [member] at told
          exact ⟨version, rfl, told⟩
  · exact versioned_set before rfl

/-- What `getnetworkinfo` says is written unless the conversion of the number of
connections throws. -/
theorem writeNetInfo_cases (numbers : NumberFormat) (netInfo : Json) (before : Info) :
    (numberOf numbers (netInfo.member "connections") = none ∧
        writeNetInfo numbers netInfo before = .error conversionError) ∨
      (numberOf numbers (netInfo.member "connections") ≠ none ∧
        ∃ after, writeNetInfo numbers netInfo before = .ok after ∧ Versioned before after) := by
  have versioned := versioned_writeVersions netInfo before
  unfold writeNetInfo
  cases numberOf numbers (netInfo.member "connections") with
  | none => exact Or.inl ⟨rfl, rfl⟩
  | some converted =>
      refine Or.inr ⟨by simp, ?_⟩
      cases converted with
      | none => exact ⟨_, rfl, versioned⟩
      | some connections =>
          refine ⟨_, rfl, ?_⟩
          split
          · exact versioned.set (by decide) (by decide) (by decide) _
          · exact versioned

theorem connectionsOf_object {netInfo : Json} (object : isObject netInfo = true) :
    connectionsOf (some netInfo) = netInfo.member "connections" := by
  cases netInfo <;> first | rfl | contradiction

/-- A primitive value is taken for a number or has no member to convert. -/
theorem numberOf_connectionsOf {numbers : NumberFormat} {netInfo : Option Json}
    (primitive : netInfo.filter isObject = none) :
    numberOf numbers (connectionsOf netInfo) ≠ none := by
  cases netInfo with
  | none => simp [connectionsOf, numberOf]
  | some value =>
      have noObject : isObject value = false := by simpa using primitive
      unfold connectionsOf
      dsimp only
      split
      · cases value with
        | array elements => contradiction
        | object members => contradiction
        | _ => simp [Json.member, numberOf]
      · cases value with
        | array elements => contradiction
        | object members => contradiction
        | _ => simp [numberOf, Json.toNumber?]

theorem writeNode_cases (numbers : NumberFormat) (netInfo : Option Json) (before : Info) :
    (numberOf numbers (connectionsOf netInfo) = none ∧
        writeNode numbers netInfo before = .error conversionError) ∨
      (numberOf numbers (connectionsOf netInfo) ≠ none ∧
        ∃ after, writeNode numbers netInfo before = .ok after ∧ Versioned before after) := by
  unfold writeNode
  cases kept : netInfo.filter isObject with
  | none =>
      exact Or.inr ⟨numberOf_connectionsOf kept, _, rfl, versioned_writeDefault before⟩
  | some object =>
      obtain ⟨rfl, holds⟩ := Option.filter_eq_some_iff.mp kept
      rw [connectionsOf_object holds]
      exact writeNetInfo_cases numbers object before

theorem versioned_writePeers {before after : Info} (versioned : Versioned before after)
    (summary : Option PeerSummary) : Versioned before (writePeers summary after) := by
  cases summary with
  | none => exact versioned
  | some summary =>
      apply Versioned.set _ (by decide) (by decide) (by decide)
      apply Versioned.set _ (by decide) (by decide) (by decide)
      exact versioned.set (by decide) (by decide) (by decide) _

theorem tellsRate_of_same {numbers : NumberFormat} {info other : Info}
    (solps : other.member "networksolps" = info.member "networksolps")
    (hashps : other.member "networkhashps" = info.member "networkhashps") :
    tellsRate numbers other = tellsRate numbers info := by
  rw [tellsRate, tellsRate, solps, hashps]

theorem Versioned.tellsRate {numbers : NumberFormat} {before after : Info}
    (versioned : Versioned before after) :
    Rpc.tellsRate numbers after = Rpc.tellsRate numbers before :=
  tellsRate_of_same versioned.solps (versioned.overlays.others _ (by decide))

theorem tellsRate_set (numbers : NumberFormat) (info : Info) (solps : ℚ) :
    tellsRate numbers (info.set "networksolps" (.number solps)) = some true := by
  simp [tellsRate, numberOf, Json.toNumber?]

/-- There is a rate in the end unless a conversion throws. -/
theorem writeRate_cases (numbers : NumberFormat) (node : Node) (rate : NetworkRate)
    (info : Info) :
    (tellsRate numbers info = none ∧
        (writeRate numbers node rate info).2 = .error conversionError) ∨
      (tellsRate numbers info ≠ none ∧
        ∃ after, (writeRate numbers node rate info).2 = .ok after ∧
          Info.Overlays ["networksolps"] info after ∧ tellsRate numbers after = some true) := by
  unfold writeRate
  cases told : tellsRate numbers info with
  | none => exact Or.inl ⟨rfl, rfl⟩
  | some tells =>
      refine Or.inr ⟨by simp, ?_⟩
      cases tells with
      | true => exact ⟨info, rfl, Info.Overlays.refl _ _, told⟩
      | false =>
          refine ⟨_, rfl, ?_, tellsRate_set numbers info _⟩
          exact (Info.Overlays.refl _ info).set (by decide) _

/-! ## What `getInfo` reports -/

/-- The requests that `getInfo` depends on were answered: the first one with an
object or an array, and no number in the way is an object whose conversion
throws. -/
structure Answered (numbers : NumberFormat) (node : Node) (before : Info) : Prop where
  told : ∃ result, call numbers node "getblockchaininfo".toList [] = .ok result ∧
    result.bind Info.ofJson = some before
  connections : numberOf numbers (connectionsOf (netInfoReply numbers node)) ≠ none
  rate : tellsRate numbers before ≠ none

/-- What is returned: the reply of the node, with a version and a rate in any case
and the peers counted where they are listed. -/
structure Reported (numbers : NumberFormat) (node : Node) (before after : Info) : Prop where
  overlays : Info.Overlays writtenNames before after
  version : ∃ version, after.member "version" = some version ∧ version.truthy = true
  rate : tellsRate numbers after = some true
  peers : ∀ peers, peerInfoReply numbers node = some (.array peers) →
    after.member "peerSummary" = some (PeerSummary.toJson
      ⟨peers.length, countPeers true peers, countPeers false peers⟩) ∧
    after.member "incomingPeers" = some (.number (countPeers true peers)) ∧
    after.member "outgoingPeers" = some (.number (countPeers false peers)) ∧
    countPeers true peers + countPeers false peers ≤ peers.length

/-- No peer is of both directions. -/
theorem isInbound_false_of_true {peer : Json} (inbound : isInbound true peer = true) :
    isInbound false peer = false := by
  unfold isInbound at inbound ⊢
  split at inbound
  · next flag found =>
      rw [beq_iff_eq] at inbound
      subst inbound
      rfl
  · contradiction

theorem countPeers_add_le (peers : List Json) :
    countPeers true peers + countPeers false peers ≤ peers.length := by
  induction peers with
  | nil => exact Nat.le_refl 0
  | cons peer rest ih =>
      simp only [countPeers, List.countP_cons, List.length_cons] at ih ⊢
      cases inbound : isInbound true peer with
      | true =>
          rw [isInbound_false_of_true inbound]
          simp
          omega
      | false =>
          have one : (if isInbound false peer = true then 1 else 0) ≤ 1 := by
            split <;> decide
          simp
          omega

/-- The peers are summarized unless a conversion throws, and those that are listed
are counted. -/
theorem summarizePeers_cases (numbers : NumberFormat) (peerInfo netInfo : Option Json) :
    (numberOf numbers (connectionsOf netInfo) = none ∧
        summarizePeers numbers peerInfo netInfo = none) ∨
      (numberOf numbers (connectionsOf netInfo) ≠ none ∧
        ∃ summary, summarizePeers numbers peerInfo netInfo = some summary ∧
          ∀ peers, peerInfo = some (.array peers) →
            summary = some ⟨peers.length, countPeers true peers, countPeers false peers⟩) := by
  unfold summarizePeers
  cases numberOf numbers (connectionsOf netInfo) with
  | none => exact Or.inl ⟨rfl, rfl⟩
  | some total =>
      refine Or.inr ⟨by simp, _, rfl, ?_⟩
      rintro peers rfl
      rfl

/-- The rate is written last and leaves the rest of the report alone. -/
theorem reported_of_versioned {numbers : NumberFormat} {node : Node}
    {before written after : Info} {summary : Option PeerSummary}
    (versioned : Versioned before written)
    (listed : ∀ peers, peerInfoReply numbers node = some (.array peers) →
      summary = some ⟨peers.length, countPeers true peers, countPeers false peers⟩)
    (overlays : Info.Overlays ["networksolps"] (writePeers summary written) after)
    (rated : tellsRate numbers after = some true) : Reported numbers node before after where
  overlays := (versioned_writePeers versioned summary).overlays.trans overlays (by decide)
  version := by
    rw [overlays.others "version" (by decide)]
    exact (versioned_writePeers versioned summary).version
  rate := rated
  peers peers reply := by
    rw [overlays.others "peerSummary" (by decide), overlays.others "incomingPeers" (by decide),
      overlays.others "outgoingPeers" (by decide), listed peers reply]
    simp [writePeers, countPeers_add_le]

/-- The members of the reply are completed unless a conversion throws. -/
theorem completeInfo_cases (numbers : NumberFormat) (node : Node) (rate : NetworkRate)
    (before : Info) :
    let completed := completeInfo numbers node rate (netInfoReply numbers node)
      (peerInfoReply numbers node) before
    let converts := numberOf numbers (connectionsOf (netInfoReply numbers node)) ≠ none ∧
      tellsRate numbers before ≠ none
    (¬converts ∧ completed.2 = .error conversionError) ∨
      (converts ∧ ∃ after, completed.2 = .ok after ∧ Reported numbers node before after) := by
  intro completed converts
  rcases writeNode_cases numbers (netInfoReply numbers node) before with
    ⟨throws, failed⟩ | ⟨counts, written, wrote, versioned⟩
  · refine Or.inl ⟨fun both => both.1 throws, ?_⟩
    simp only [completed, completeInfo, failed]
  · rcases summarizePeers_cases numbers (peerInfoReply numbers node)
      (netInfoReply numbers node) with ⟨throws, -⟩ | ⟨-, summary, summarized, listed⟩
    · exact absurd throws counts
    · have passed : completed = writeRate numbers node rate (writePeers summary written) := by
        simp only [completed, completeInfo, wrote, summarized]
      have same : tellsRate numbers (writePeers summary written) = tellsRate numbers before :=
        (versioned_writePeers versioned summary).tellsRate
      rw [passed]
      rcases writeRate_cases numbers node rate (writePeers summary written) with
        ⟨throws, failed⟩ | ⟨tells, after, returned, overlays, rated⟩
      · rw [same] at throws
        exact Or.inl ⟨fun both => both.2 throws, failed⟩
      · rw [same] at tells
        exact Or.inr ⟨⟨counts, tells⟩, after, returned,
          reported_of_versioned versioned listed overlays rated⟩

/-- Whatever the other requests come back with, `getInfo` returns exactly if the
first one was answered with members and no conversion throws, and then it reports
the reply with a version, a rate and the counts of the peers. -/
theorem getInfo_reports (numbers : NumberFormat) (typeError : Option Json → RpcError)
    (node : Node) (rate : NetworkRate) :
    ((∃ after, (getInfo numbers typeError node rate).2 = .ok after) ↔
        ∃ before, Answered numbers node before) ∧
      ∀ after, (getInfo numbers typeError node rate).2 = .ok after →
        ∃ before, Answered numbers node before ∧ Reported numbers node before after := by
  have reports : ∀ after, (getInfo numbers typeError node rate).2 = .ok after →
      ∃ before, Answered numbers node before ∧ Reported numbers node before after := by
    intro after returned
    unfold getInfo at returned
    split at returned
    · contradiction
    · next result answered =>
        cases read : result.bind Info.ofJson with
        | none =>
            rw [read] at returned
            contradiction
        | some before =>
            rw [read] at returned
            rcases completeInfo_cases numbers node rate before with
              ⟨-, failed⟩ | ⟨⟨counts, tells⟩, other, completed, reported⟩
            · rw [failed] at returned
              contradiction
            · rw [completed, Except.ok.injEq] at returned
              subst returned
              exact ⟨before, ⟨⟨result, answered, read⟩, counts, tells⟩, reported⟩
  refine ⟨⟨?_, ?_⟩, reports⟩
  · rintro ⟨after, returned⟩
    obtain ⟨before, answered, -⟩ := reports after returned
    exact ⟨before, answered⟩
  · rintro ⟨before, ⟨⟨result, answered, read⟩, counts, tells⟩⟩
    unfold getInfo
    rw [answered]
    dsimp only
    rw [read]
    rcases completeInfo_cases numbers node rate before with
      ⟨throws, -⟩ | ⟨-, after, completed, -⟩
    · exact absurd ⟨counts, tells⟩ throws
    · exact ⟨after, completed⟩

end ZcashSoloPool.Rpc
