import ZcashSoloPool.Dashboard.DifficultyText
import ZcashSoloPool.Dashboard.MinerRows

/-!
# What the dashboard shows of a miner

The pool describes each miner by one object, and the dashboard makes a row of it.
The row has the counts of the miner, its estimated rate and the time it is
connected exactly, and of its best share the leading digits.  The ping is always
shown as a number, although it may have failed.
-/

namespace ZcashSoloPool.Dashboard

open ZcashSoloPool.Bytes
open ZcashSoloPool.JavaScript

/-! ## The object of a miner -/

/-- A client as `buildApiMiner` reads it: its number, the characters of its name,
its rated miner, its pings and its socket. -/
structure ApiClient where
  id : Nat
  workerName : Option Text
  rated : Stratum.RatedMiner
  ping : Pool.PingSweep.PingMetrics
  remoteAddress : Option Text
  remotePort : Nat

namespace ApiClient

/-- `client.workerName || miner-${client.id}`. -/
def worker (client : ApiClient) : Text :=
  if client.workerName.getD [] ≠ [] then client.workerName.getD []
  else Stratum.minerLabel client.id

/-- `computeConnectedSeconds`. -/
def connectedSeconds (client : ApiClient) (now : Nat) : Nat :=
  (max 0 (((now : ℤ) - client.rated.miner.connectedAt) / 1000)).toNat

/-- `m.bestShareDifficulty || 0`. -/
def best (client : ApiClient) : ℚ :=
  client.rated.miner.metrics.bestShareDifficulty

/-- The miner of the client is what some events after its connection make of it. -/
def Reached (config : Stratum.RateConfig) (exp : ℚ → ℚ) (client : ApiClient) : Prop :=
  ∃ connectedAt events,
    client.rated = Stratum.RatedMiner.after config exp client.id connectedAt events

theorem le_foldl_max (found : List ℚ) (best : ℚ) : best ≤ found.foldl max best := by
  induction found generalizing best with
  | nil => exact le_rfl
  | cons difficulty rest ih => exact (le_max_left _ _).trans (ih _)

theorem best_nonneg {config : Stratum.RateConfig} {exp : ℚ → ℚ} {client : ApiClient}
    (reached : client.Reached config exp) : 0 ≤ client.best := by
  obtain ⟨connectedAt, events, after⟩ := reached
  rw [best, after, Stratum.RatedMiner.bestShareDifficulty_after]
  exact le_foldl_max _ 0

end ApiClient

/-- The time as text, or `null` for none. -/
def isoMember (ms : Option Nat) : Json :=
  (ms.map fun ms => Json.string (isoText ms)).getD .null

/-- The members of an object literal. -/
def objectOf (members : List (String × Json)) : Json :=
  .object (members.map fun (name, value) => (name.toList, value))

/-- `_ || null` for a text. -/
def textOrNull (text : Option Text) : Json :=
  ((text.filter fun text => !text.isEmpty).map Json.string).getD .null

section ApiMiner

variable (config : Stratum.RateConfig) (format : NumberFormat) (now : Nat)

/-- The members that `buildApiMiner` writes for every miner. -/
def minerMembers (client : ApiClient) : List (String × Json) :=
  let miner := client.rated.miner
  let m := miner.metrics
  let seconds := client.connectedSeconds now
  let hashrate := client.rated.estimateHashrate config none now
  let ewma := client.rated.smoothed.ewmaHashrate
  [("id", .number client.id),
    ("worker", .string client.worker),
    ("difficulty", .number (Pool.toFixed6 miner.currentDifficulty)),
    ("difficultyText", .string (formatDifficulty format (some miner.currentDifficulty))),
    ("hashrate", .number hashrate),
    ("hashrateText", .string (formatSolutionsRate format (some hashrate))),
    ("hashrateEwma", .number ⌊ewma + 1 / 2⌋),
    ("hashrateEwmaText", .string (formatSolutionsRate format (some ewma))),
    ("solutionRate", .number hashrate),
    ("solutionRateText", .string (formatSolutionsRate format (some hashrate))),
    ("connectedAt",
      if miner.connectedAt = 0 then .null else .string (isoText miner.connectedAt)),
    ("connectedSeconds", .number seconds),
    ("connectedText", .string (formatDuration format (some seconds))),
    ("acceptedShares", .number m.accepted),
    ("rejectedShares", .number m.rejected),
    ("blocksFound", .number m.blocksFound),
    ("invalidShares", .number m.invalid),
    ("lowDiffShares", .number m.lowDiff),
    ("staleShares", .number m.stale),
    ("bestShareDifficulty", .number (Pool.toFixed6 m.bestShareDifficulty)),
    ("lastBlockDifficulty", .number (Pool.toFixed6 m.lastBlockDifficulty)),
    ("bestDiffText", .string (formatDifficulty format (some m.bestShareDifficulty))),
    ("lastBlockDiffText", .string (formatDifficulty format (some m.lastBlockDifficulty))),
    ("bestShareDifficultyText", .string (formatDifficulty format (some m.bestShareDifficulty))),
    ("bestShareHash", textOrNull m.bestShareHash),
    ("lastShareAt", isoMember m.lastShareAt),
    -- `Number(null)` is zero, which is finite.
    ("pingMs", .number (client.ping.lastPingMs.getD 0)),
    ("pingStatus", (client.ping.lastPingStatus.map fun ok =>
      Json.string (if ok then "ok".toList else "fail".toList)).getD .null),
    ("pingAt", isoMember (client.ping.lastPingAt.map Nat.floor)),
    ("pingFailures", .number client.ping.pingFailures),
    ("pingSuccesses", .number client.ping.pingSuccesses),
    ("pingError", textOrNull client.ping.lastPingError)]

/-- `buildApiMiner`. -/
def buildApiMiner (includeAddress : Bool) (client : ApiClient) : Json :=
  objectOf (minerMembers config format now client ++
    if includeAddress then
      [("address", client.remoteAddress.map Json.string),
        ("port", some (.number client.remotePort)),
        ("shareTarget", client.rated.miner.client.shareTarget.map Json.string)].filterMap
          fun (name, value) => value.map fun value => (name, value)
    else [])

/-- The clients that `getApiMiners` answers with. -/
def authorizedClients (clients : List ApiClient) : List ApiClient :=
  clients.filter fun client => client.rated.miner.authorized

/-- `getApiMiners`. -/
def getApiMiners (clients : List ApiClient) : Json :=
  let miners := (authorizedClients clients).map (buildApiMiner config format now true)
  objectOf [("count", .number miners.length), ("miners", .array miners)]

end ApiMiner

/-! ## Members -/

theorem member_objectOf (members : List (String × Json)) (name : String) :
    (objectOf members).member name = members.lookup name := by
  rw [objectOf, Json.member]
  induction members with
  | nil => rfl
  | cons entry rest ih =>
      rw [List.map_cons, Rpc.Info.lookup_cons_eq, ih, List.lookup_cons]
      by_cases same : name = entry.1
      · rw [if_pos (congrArg String.toList same), beq_iff_eq.mpr same]
      · rw [if_neg (mt String.toList_inj.mp same), beq_false_of_ne same]

/-- The members that a caller asks for beside those of every miner. -/
def addressNames : List String :=
  ["address", "port", "shareTarget"]

section Members

variable {config : Stratum.RateConfig} {format : NumberFormat} {now : Nat} {includeAddress : Bool}
  {client : ApiClient}

theorem member_of_lookup (name : String) {value : Json}
    (found : (minerMembers config format now client).lookup name = some value) :
    (buildApiMiner config format now includeAddress client).member name = some value := by
  rw [buildApiMiner, member_objectOf, List.lookup_append, found, Option.some_or]

theorem member_of_not_lookup (name : String) (other : name ∉ addressNames)
    (missing : (minerMembers config format now client).lookup name = none) :
    (buildApiMiner config format now includeAddress client).member name = none := by
  rw [buildApiMiner, member_objectOf, List.lookup_append, missing, Option.none_or,
    List.lookup_eq_none_iff]
  intro entry isEntry
  rw [bne_iff_ne]
  rintro rfl
  apply other
  split at isEntry
  · obtain ⟨written, isWritten, value⟩ := List.mem_filterMap.mp isEntry
    obtain ⟨value, -, rfl⟩ := Option.map_eq_some_iff.mp value
    simp only [List.mem_cons, List.not_mem_nil, or_false] at isWritten
    rcases isWritten with rfl | rfl | rfl <;> simp [addressNames]
  · contradiction

/-! ## The parts of a row -/

theorem rawRate_buildApiMiner :
    Row.rawRate (buildApiMiner config format now includeAddress client) =
      some (.number (client.rated.estimateHashrate config none now)) := by
  rw [Row.rawRate, member_of_lookup _ rfl]
  rfl

theorem accepted_buildApiMiner :
    Row.accepted (buildApiMiner config format now includeAddress client) =
      some (.number client.rated.miner.metrics.accepted) := by
  rw [Row.accepted, member_of_not_lookup _ (by decide) rfl, member_of_lookup _ rfl]
  rfl

theorem rejected_buildApiMiner :
    Row.rejected (buildApiMiner config format now includeAddress client) =
      some (.number client.rated.miner.metrics.rejected) := by
  rw [Row.rejected, member_of_not_lookup _ (by decide) rfl, member_of_lookup _ rfl]
  rfl

theorem stale_buildApiMiner :
    Row.stale (buildApiMiner config format now includeAddress client) =
      some (.number client.rated.miner.metrics.stale) := by
  rw [Row.stale, member_of_not_lookup _ (by decide) rfl, member_of_lookup _ rfl]
  rfl

theorem blocksFoundRaw_buildApiMiner :
    Row.blocksFoundRaw (buildApiMiner config format now includeAddress client) =
      some (.number client.rated.miner.metrics.blocksFound) := by
  rw [Row.blocksFoundRaw, member_of_lookup _ rfl]
  rfl

theorem pingMsRaw_buildApiMiner :
    Row.pingMsRaw (buildApiMiner config format now includeAddress client) =
      some (.number (client.ping.lastPingMs.getD 0)) := by
  rw [Row.pingMsRaw, member_of_lookup _ rfl]
  rfl

theorem pick_string {text : Text} (some_ : text ≠ []) (others : List (Option Json)) :
    pick (some (.string text) :: others) = some (.string text) := by
  have given : isGiven (some (.string text)) = true := by
    simp [isGiven, some_]
  rw [pick, List.find?_cons_of_pos given]
  rfl

theorem formatDifficulty_ne_nil (format : NumberFormat) (value : ℚ) :
    formatDifficulty format (some value) ≠ [] := by
  unfold formatDifficulty
  dsimp only
  split
  · decide
  · obtain ⟨k, bound, scaled, -, -⟩ :=
      exists_scaleDown_eq (difficultyUnits.length - 1) (|value| / 1000) 0
    rw [scaled]
    apply List.append_ne_nil_of_right_ne_nil
    apply FollowsNumber.ne_nil
    rw [Nat.zero_add]
    exact followsNumber_difficultyUnit bound

theorem formatSolutionsRate_ne_nil (format : NumberFormat) (rate : ℚ) :
    formatSolutionsRate format (some rate) ≠ [] := by
  unfold formatSolutionsRate
  dsimp only
  split
  · decide
  · simp

theorem formatDuration_ne_nil (format : NumberFormat) (seconds : Option ℚ) :
    formatDuration format seconds ≠ [] := by
  unfold formatDuration
  split
  · decide
  · dsimp only
    split
    · simp
    · split
      · simp
      · split <;> simp

theorem highestDifficulty_buildApiMiner :
    Row.highestDifficulty (buildApiMiner config format now includeAddress client) =
      some (.string (formatDifficulty format (some client.best))) := by
  rw [Row.highestDifficulty, member_of_lookup _ rfl]
  exact pick_string (formatDifficulty_ne_nil format client.best) _

theorem worker_ne_nil (client : ApiClient) : client.worker ≠ [] := by
  unfold ApiClient.worker
  split
  · assumption
  · change "miner-".toList ++ Nat.toDigits 10 client.id ≠ []
    exact List.append_ne_nil_of_right_ne_nil _ Nat.toDigits_ne_nil

/-- The name under which a worker is shown: the last part of an address, or the
name itself. -/
def shownName (worker : Text) (i : Nat) : Text :=
  if isIpText worker then
    let last := (worker.splitOn '.').getLastD []
    "miner-".toList ++ if last.isEmpty then Nat.toDigits 10 (i + 1) else last
  else worker

theorem shownName_ne_nil {worker : Text} (some_ : worker ≠ []) (i : Nat) :
    shownName worker i ≠ [] := by
  unfold shownName
  split
  · simp
  · exact some_

theorem safeMinerName_text {worker : Text} (some_ : worker ≠ []) (fallback : Option Json) (i : Nat) :
    safeMinerName (some (.string worker)) fallback i = some (.string (shownName worker i)) := by
  rw [safeMinerName, pick_string some_, shownName]
  dsimp only
  split <;> rfl

theorem name_buildApiMiner (fallback : Option Json) (i : Nat) :
    Row.name (buildApiMiner config format now includeAddress client) fallback i =
      some (.string (shownName client.worker i)) := by
  have given : ∀ others, pick (none :: some (.string client.worker) :: others) =
      some (.string client.worker) := fun others => pick_string (worker_ne_nil client) others
  rw [Row.name, member_of_not_lookup _ (by decide) rfl, member_of_lookup _ rfl, given]
  exact safeMinerName_text (worker_ne_nil client) fallback i

theorem nestedRate_buildApiMiner :
    Row.nestedRate (buildApiMiner config format now includeAddress client) = none := by
  rw [Row.nestedRate, nestedPick, List.map_cons, follow, member_of_not_lookup _ (by decide) rfl,
    List.map_cons, follow, member_of_not_lookup _ (by decide) rfl]
  rfl

theorem exists_formatHashesMaybe (engine : Engine) (n : ℚ) :
    ∃ value, formatHashesMaybe engine (some (.number n)) = some value :=
  ⟨_, rfl⟩

theorem hashrate_buildApiMiner (engine : Engine) :
    Row.hashrate engine (buildApiMiner config format now includeAddress client) =
      some (some (.string (formatSolutionsRate format
        (some (client.rated.estimateHashrate config none now))))) := by
  obtain ⟨rate, converted⟩ := exists_formatHashesMaybe engine
    (client.rated.estimateHashrate config none now)
  rw [Row.hashrate, nestedRate_buildApiMiner, member_of_lookup "solutionRate" rfl,
    member_of_lookup "hashrate" rfl, member_of_not_lookup "hashRate" (by decide) rfl,
    member_of_not_lookup "solps" (by decide) rfl,
    member_of_not_lookup "hashesPerSecond" (by decide) rfl,
    member_of_lookup "solutionRateText" rfl, converted]
  exact congrArg some (pick_string (formatSolutionsRate_ne_nil format _) _)

theorem parseDurationValue_number (engine : Engine) {n : ℚ} (nonneg : 0 ≤ n) :
    parseDurationValue engine (some (.number n)) = some (some n) := by
  have kept : (some n).filter (fun n => decide (0 ≤ n)) = some n := by
    simp [nonneg]
  simp [parseDurationValue, isGiven, kept]

theorem exists_parseDurationValue (engine : Engine) (text : Text) :
    ∃ seconds, parseDurationValue engine (some (.string text)) = some seconds := by
  unfold parseDurationValue
  split
  · exact ⟨_, rfl⟩
  · simp only [Engine.number_string, Engine.string_string, Option.bind_eq_bind, Option.bind_some]
    split <;> exact ⟨_, rfl⟩

/-- What is made of the time of the connection does not throw, and is not taken. -/
theorem exists_formatConnectedFromTimestamp (engine : Engine) (connectedAt : Nat) :
    ∃ text, formatConnectedFromTimestamp engine
        (some (if connectedAt = 0 then Json.null else .string (isoText connectedAt))) = some text ∧
      ∃ seconds, parseDurationValue engine text = some seconds := by
  have converts : ∃ text, engine.string
      (some (if connectedAt = 0 then Json.null else .string (isoText connectedAt))) =
        some text := by
    split <;> exact ⟨_, rfl⟩
  obtain ⟨text, converts⟩ := converts
  rw [formatConnectedFromTimestamp, Engine.date, converts]
  cases parsed : engine.dateParse text with
  | none => exact ⟨none, by simp [parsed], none, rfl⟩
  | some ms =>
      refine ⟨_, rfl, ?_⟩
      rw [parsed]
      exact exists_parseDurationValue engine _

theorem connectedSeconds_buildApiMiner (engine : Engine) :
    Row.connectedSeconds engine (buildApiMiner config format now includeAddress client) =
      some (some (client.connectedSeconds now : ℚ)) := by
  obtain ⟨text, written, seconds, read⟩ :=
    exists_formatConnectedFromTimestamp engine client.rated.miner.connectedAt
  rw [Row.connectedSeconds, nestedPick, List.map_cons, follow,
    member_of_lookup "connectedSeconds" rfl,
    member_of_not_lookup "connectionSeconds" (by decide) rfl,
    member_of_not_lookup "connectedForSeconds" (by decide) rfl,
    member_of_not_lookup "stats" (by decide) rfl, List.map_cons, follow,
    member_of_not_lookup "connection" (by decide) rfl, member_of_lookup "connectedAt" rfl,
    parseDurationValue_number engine (Nat.cast_nonneg _), written]
  change (do
    let connectedAt ← parseDurationValue engine text
    pure (pickNumber [some (client.connectedSeconds now : ℚ), none, none, none, connectedAt])) = _
  rw [read]
  rfl

theorem connected_buildApiMiner (engine : Engine) (seconds : ℚ) :
    Row.connected engine (buildApiMiner config format now includeAddress client) (some seconds) =
      some (some (.string (formatDuration format (some (client.connectedSeconds now : ℚ))))) := by
  obtain ⟨text, written, -⟩ :=
    exists_formatConnectedFromTimestamp engine client.rated.miner.connectedAt
  rw [Row.connected, member_of_lookup "connectedAt" rfl, written,
    member_of_lookup "connectedText" rfl]
  exact congrArg some (pick_string (formatDuration_ne_nil format _) _)

/-! ## Times -/

theorem twoDigits_isDigit {n : Nat} (small : n < 100) :
    ∀ c ∈ Calendar.twoDigits n, c.isDigit = true := by
  have digits : ∀ d < 10, (Nat.digitChar d).isDigit = true := by decide
  intro c member
  rcases List.mem_cons.mp member with rfl | second
  · exact digits _ (by omega)
  · rw [List.mem_singleton.mp second]
    exact digits _ (Nat.mod_lt n (by decide))

/-- The text of a time is no number. -/
theorem numberOfText_isoText {ms : Nat} (bounded : ms / 86400000 ≤ Calendar.lastDay) :
    numberOfText (isoText ms) = none := by
  have year := (Calendar.civil_bounds bounded).1
  generalize dated : Calendar.civil (ms / 86400000) = date at year
  let decimal : Decimal := {
    whole := Calendar.twoDigits (date.year / 100) ++ Calendar.twoDigits (date.year % 100)
    frac := []
    whole_ne_nil := List.cons_ne_nil _ _
    isDigit_whole := by
      intro c member
      rcases List.mem_append.mp member with first | second
      · exact twoDigits_isDigit (by omega) c first
      · exact twoDigits_isDigit (by omega) c second
    isDigit_frac := by
      intro c member
      contradiction }
  have split : ∃ rest, isoText ms = decimal.text ++ '-' :: rest ∧ rest.getLast? = some 'Z' := by
    refine ⟨Calendar.twoDigits date.month ++
      ('-' :: (Calendar.twoDigits date.day ++ 'T' :: clockText ms)), ?_, ?_⟩
    · simp [decimal, isoText, dated, Calendar.Civil.text, Decimal.text, Decimal.fraction]
    · simp [clockText, List.getLast?_append, List.getLast?_cons]
  obtain ⟨rest, split, ending⟩ := split
  have ends : Ends ('-' :: rest) := by
    rintro c ⟨⟩
    decide
  have last : ∀ c ∈ ('-' :: rest).getLast?, ¬isSpace c = true := by
    intro c isLast
    rw [List.getLast?_cons, ending] at isLast
    cases isLast
    decide
  rw [split, decimal.numberOfText_append ends last]
  rfl

theorem isoText_ne_nil (ms : Nat) : isoText ms ≠ [] := by
  unfold isoText
  apply List.append_ne_nil_of_right_ne_nil
  exact List.cons_ne_nil _ _

theorem agoText_ne_nil (engine : Engine) (ms : ℚ) : agoText engine ms ≠ [] := by
  unfold agoText
  dsimp only
  split
  · simp
  · split
    · simp
    · split <;> simp

/-- The browser reads the text of a time as this time. -/
def Reads (engine : Engine) (ms : Nat) : Prop :=
  ms / 86400000 ≤ Calendar.lastDay ∧ engine.dateParse (isoText ms) = some (ms : ℚ)

theorem parseTimestampMs_isoMember {engine : Engine} {shared : Option Nat}
    (reads : ∀ ms ∈ shared, Reads engine ms) :
    parseTimestampMs engine (some (isoMember shared)) = some (shared.map Nat.cast) := by
  cases shared with
  | none => rfl
  | some ms =>
      obtain ⟨bounded, read⟩ := reads ms rfl
      have given : isGiven (some (.string (isoText ms))) = true := by
        simp [isGiven, isoText_ne_nil]
      change parseTimestampMs engine (some (.string (isoText ms))) = _
      simp [parseTimestampMs, given, numberOfText_isoText bounded, read]

theorem formatRelativeTime_isoMember {engine : Engine} {shared : Option Nat}
    (reads : ∀ ms ∈ shared, Reads engine ms) :
    formatRelativeTime engine (some (isoMember shared)) =
      some (some (.string (agoText engine ((shared.getD 0 : ℕ) : ℚ)))) := by
  cases shared with
  | none =>
      change some (some (Json.string
        (agoText engine (if (0 : ℚ) > 10000000000 then 0 else 0 * 1000)))) = _
      simp
  | some ms =>
      obtain ⟨bounded, read⟩ := reads ms rfl
      change formatRelativeTime engine (some (.string (isoText ms))) = _
      simp [formatRelativeTime, numberOfText_isoText bounded, read]

theorem exists_formatRelativeTime_none (engine : Engine) :
    ∃ text, formatRelativeTime engine none = some text := by
  have number : engine.number none = some none := rfl
  have date : engine.date none = some (engine.dateParse "undefined".toList) := rfl
  unfold formatRelativeTime
  simp only [number, date, Option.bind_eq_bind, Option.bind_some]
  split <;> exact ⟨_, rfl⟩

theorem lastShareTimestampMs_buildApiMiner {engine : Engine}
    (reads : ∀ ms ∈ client.rated.miner.metrics.lastShareAt, Reads engine ms) :
    Row.lastShareTimestampMs engine (buildApiMiner config format now includeAddress client) =
      some (client.rated.miner.metrics.lastShareAt.map Nat.cast) := by
  rw [Row.lastShareTimestampMs, member_of_lookup "lastShareAt" rfl,
    parseTimestampMs_isoMember reads, member_of_not_lookup "lastShareTimestamp" (by decide) rfl,
    member_of_not_lookup "lastSubmit" (by decide) rfl,
    member_of_not_lookup "last_share" (by decide) rfl,
    member_of_not_lookup "lastShare" (by decide) rfl,
    member_of_not_lookup "lastShareText" (by decide) rfl]
  cases client.rated.miner.metrics.lastShareAt <;> rfl

/-- A share that was never found is shown as one of the first second of 1970. -/
theorem lastShare_buildApiMiner {engine : Engine}
    (reads : ∀ ms ∈ client.rated.miner.metrics.lastShareAt, Reads engine ms) :
    Row.lastShare engine (buildApiMiner config format now includeAddress client) =
      some (some (.string (agoText engine
        ((client.rated.miner.metrics.lastShareAt.getD 0 : ℕ) : ℚ)))) := by
  obtain ⟨text, none_⟩ := exists_formatRelativeTime_none engine
  rw [Row.lastShare, member_of_lookup "lastShareAt" rfl, formatRelativeTime_isoMember reads,
    member_of_not_lookup "lastShareTimestamp" (by decide) rfl,
    member_of_not_lookup "lastSubmit" (by decide) rfl,
    member_of_not_lookup "last_share" (by decide) rfl,
    member_of_not_lookup "lastShare" (by decide) rfl, none_]
  exact congrArg some (pick_string (agoText_ne_nil engine _) _)

end Members

/-! ## The row -/

theorem parseScaledValue_text (engine : Engine) {text : Text} (some_ : text ≠ []) :
    parseScaledValue engine (some (.string text)) = some (parseScaledNumber text) := by
  have notEmpty : text.isEmpty = false := by
    simp [some_]
  have given : isGiven (some (.string text)) = true := by
    simp [isGiven, notEmpty]
  unfold parseScaledValue parseScaledNumber
  rw [given, notEmpty]
  simp only [Engine.number_string, Engine.string_string, Option.bind_eq_bind, Option.bind_some]
  cases numberOfText text with
  | some n => rfl
  | none => cases matchScaled (trim text) <;> rfl

section ShownRow

variable (engine : Engine) (config : Stratum.RateConfig) (format : NumberFormat) (now : Nat)

/-- What is shown of a client, and what its row is sorted by. -/
def shownRow (client : ApiClient) (i : Nat) : MinerRow :=
  let m := client.rated.miner.metrics
  let rate := client.rated.estimateHashrate config none now
  let name := shownName client.worker i
  { rawRate := some (.number rate)
    name := some (.string name)
    hashrate := some (.string (formatSolutionsRate format (some rate)))
    accepted := some (.number m.accepted)
    rejected := some (.number m.rejected)
    stale := some (.number m.stale)
    blocksFound := m.blocksFound
    highestDifficulty := some (.string (formatDifficulty format (some client.best)))
    connected := some (.string (formatDuration format (some (client.connectedSeconds now : ℚ))))
    ping := toFixed engine.format (client.ping.lastPingMs.getD 0) 1 ++ " ms".toList
    lastShare := some (.string (agoText engine ((m.lastShareAt.getD 0 : ℕ) : ℚ)))
    sortName := engine.toLowerCase name
    sortHashrate := some rate
    sortAccepted := some m.accepted
    sortRejected := some m.rejected
    sortStale := some m.stale
    sortBlocksFound := m.blocksFound
    sortHighestDifficulty := some (Numbers.leadingDigits 10 3 client.best)
    sortConnectedSeconds := some (client.connectedSeconds now : ℚ)
    sortPingMs := some (client.ping.lastPingMs.getD 0)
    sortLastShareMs := m.lastShareAt.map Nat.cast }

/-- A client of the server whose best share is a difficulty that the dashboard can
read, and whose last share has a time that it can read. -/
structure Legible (exp : ℚ → ℚ) (client : ApiClient) : Prop where
  reached : client.Reached config exp
  small : client.best < 10 ^ 21
  reads : ∀ ms ∈ client.rated.miner.metrics.lastShareAt, Reads engine ms

variable {engine config format now} {exp : ℚ → ℚ}

/-- The dashboard makes the row of what the pool knows of the client. -/
theorem normalizeMinerRow_buildApiMiner {client : ApiClient}
    (legible : Legible engine config exp client) (includeAddress : Bool) (fallback : Option Json)
    (i : Nat) :
    normalizeMinerRow engine (buildApiMiner config format now includeAddress client) fallback i =
      some (shownRow engine config format now client i) := by
  obtain ⟨seconds, read⟩ := exists_parseDurationValue engine
    (formatDuration format (some (client.connectedSeconds now : ℚ)))
  have scaled := parseScaledValue_text engine (formatSolutionsRate_ne_nil format
    (client.rated.estimateHashrate config none now))
  have difficulty := parseScaledValue_text engine (formatDifficulty_ne_nil format client.best)
  have nonneg := ApiClient.best_nonneg legible.reached
  rw [parseScaledNumber_formatDifficulty format nonneg legible.small] at difficulty
  have named : Rpc.orTruthy (some (.string (shownName client.worker i))) (.string []) =
      .string (shownName client.worker i) := by
    have truthy : (Json.string (shownName client.worker i)).truthy = true := by
      simp [Json.truthy, shownName_ne_nil (worker_ne_nil client)]
    rw [Rpc.orTruthy, Option.filter_some, truthy]
    rfl
  rw [normalizeMinerRow, rawRate_buildApiMiner, name_buildApiMiner, hashrate_buildApiMiner,
    accepted_buildApiMiner, rejected_buildApiMiner, stale_buildApiMiner,
    highestDifficulty_buildApiMiner, connectedSeconds_buildApiMiner,
    lastShareTimestampMs_buildApiMiner legible.reads, lastShare_buildApiMiner legible.reads,
    pingMsRaw_buildApiMiner, blocksFoundRaw_buildApiMiner]
  dsimp only [Option.bind_eq_bind, Option.bind_some]
  rw [connected_buildApiMiner, Option.bind_some, named, scaled, difficulty, read]
  rfl

end ShownRow

end ZcashSoloPool.Dashboard
