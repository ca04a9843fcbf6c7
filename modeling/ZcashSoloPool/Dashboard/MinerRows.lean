import ZcashSoloPool.Calendar.Civil
import ZcashSoloPool.Dashboard.DurationText
import ZcashSoloPool.JavaScript.Json
import ZcashSoloPool.Pool.PingSweep
import ZcashSoloPool.Rpc.NodeInfo
import ZcashSoloPool.Stratum.HashRate

/-!
# The rows of the miners

The pool answers with an object for each miner, and the dashboard makes a row of
it, for the table and for sorting.  The dashboard knows many names for one
member, takes the first that is given, and reads some numbers from texts.
-/

namespace ZcashSoloPool.Dashboard

open ZcashSoloPool.Bytes
open ZcashSoloPool.JavaScript

/-! ## The engine -/

/-- What depends on the engine of the browser and on the clock: how numbers are
written, which other texts are dates, and how letters are lowered and compared. -/
structure Engine where
  now : ℚ
  write : ℚ → Text
  write_integer : ∀ n : Int, n.natAbs < 2 ^ 53 → write n = (toString n).toList
  printable : ∀ value, ∀ c ∈ write value, 0x20 ≤ c.toNat ∧ c.toNat < 0x7f
  exponential : ∀ x, 10 ^ 21 ≤ x → Exponential (write x)
  dateParse : Text → Option ℚ
  toLowerCase : Text → Text
  localeCompare : Text → Text → ℚ

namespace Engine

/-- The conversions between numbers and strings. -/
def numbers (engine : Engine) : JavaScript.NumberFormat :=
  ⟨engine.write, numberOfText, engine.write_integer, engine.printable⟩

/-- The numbers that `toFixed` writes. -/
def format (engine : Engine) : NumberFormat :=
  ⟨engine.write, engine.exponential⟩

/-- `Number(_)`, with `none` where it throws and `some none` for no finite
number. -/
def number (engine : Engine) (value : Option Json) : Option (Option ℚ) :=
  Rpc.numberOf engine.numbers value

/-- `String(_)`, with `none` where it throws. -/
def string (engine : Engine) : Option Json → Option Text
  | none => some "undefined".toList
  | some value => value.toText? engine.numbers

/-- `Date.parse(_)`. -/
def date (engine : Engine) (value : Option Json) : Option (Option ℚ) :=
  (engine.string value).map engine.dateParse

@[simp]
theorem number_number (engine : Engine) (n : ℚ) :
    engine.number (some (.number n)) = some (some n) :=
  rfl

@[simp]
theorem number_string (engine : Engine) (text : Text) :
    engine.number (some (.string text)) = some (numberOfText text) :=
  rfl

@[simp]
theorem string_string (engine : Engine) (text : Text) :
    engine.string (some (.string text)) = some text :=
  rfl

@[simp]
theorem date_string (engine : Engine) (text : Text) :
    engine.date (some (.string text)) = some (engine.dateParse text) :=
  rfl

end Engine

/-- The part of `toISOString` behind the date. -/
def clockText (ms : Nat) : Text :=
  Calendar.twoDigits (ms / 3600000 % 24) ++ ':' ::
    (Calendar.twoDigits (ms / 60000 % 60) ++ ':' ::
      (Calendar.twoDigits (ms / 1000 % 60) ++ '.' ::
        (Nat.digitChar (ms % 1000 / 100) :: (Calendar.twoDigits (ms % 100) ++ ['Z']))))

/-- `toISOString` of a time up to the year 9999. -/
def isoText (ms : Nat) : Text :=
  (Calendar.civil (ms / 86400000)).text ++ 'T' :: clockText ms

example : isoText 1709210096789 = "2024-02-29T12:34:56.789Z".toList := by
  decide +kernel

/-! ## What is given -/

/-- The value is neither `undefined` nor `null` nor empty. -/
def isGiven : Option Json → Bool
  | none => false
  | some .null => false
  | some (.string text) => !text.isEmpty
  | some _ => true

/-- `pick`. -/
def pick (values : List (Option Json)) : Option Json :=
  (values.find? isGiven).join

/-- The member at the end of a path. -/
def follow (value : Json) : List String → Option Json
  | [] => some value
  | name :: rest => (value.member name).bind fun inner => follow inner rest

/-- `nestedPick`. -/
def nestedPick (value : Json) (paths : List (List String)) : Option Json :=
  pick (paths.map (follow value))

/-- `pick` of numbers, some of which are `null` or `undefined`. -/
def pickNumber (values : List (Option ℚ)) : Option ℚ :=
  (values.find? Option.isSome).join

/-! ## Names -/

/-- A part of what `looksLikeIp` matches: one to three digits. -/
def isOctetText (part : Text) : Bool :=
  !part.isEmpty && decide (part.length ≤ 3) && part.all Char.isDigit

/-- The pattern of `looksLikeIp`, and whether a text matches it. -/
def isIpText (text : Text) : Bool :=
  let parts := (trim text).splitOn '.'
  decide (parts.length = 4) && parts.all isOctetText

/-- `looksLikeIp`. -/
def looksLikeIp : Option Json → Bool
  | some (.string text) => isIpText text
  | _ => false

/-- `miner-${index + 1}`. -/
def numberedName (index : Nat) : Text :=
  "miner-".toList ++ Nat.toDigits 10 (index + 1)

/-- `safeMinerName`. -/
def safeMinerName (primary fallback : Option Json) (index : Nat) : Option Json :=
  match pick [primary, fallback, some (.string (numberedName index))] with
  | some (.string chosen) =>
      if isIpText chosen then
        let last := (chosen.splitOn '.').getLastD []
        some (.string ("miner-".toList ++
          if last.isEmpty then Nat.toDigits 10 (index + 1) else last))
      else some (.string chosen)
  | chosen => chosen

/-! ## Numbers and times -/

/-- `parseScaledNumber` of any value. -/
def parseScaledValue (engine : Engine) (value : Option Json) : Option (Option ℚ) :=
  if !isGiven value then some none
  else do
    match ← engine.number value with
    | some n => pure (some n)
    | none =>
        match matchScaled (trim (← engine.string value)) with
        | none => pure none
        | some (number, letter) =>
            pure ((numberOfText number).map fun n => n * 1000 ^ scalePower letter)

/-- `Number.isFinite(Number(_)) ? Number(_) : parseScaledNumber(_)`. -/
def sortNumber (engine : Engine) (value : Option Json) : Option (Option ℚ) := do
  match ← engine.number value with
  | some n => pure (some n)
  | none => parseScaledValue engine value

/-- `parseTimestampMs`. -/
def parseTimestampMs (engine : Engine) (value : Option Json) : Option (Option ℚ) :=
  if !isGiven value then some none
  else do
    match ← engine.number value with
    | some n => pure (some (if n > 10000000000 then n else n * 1000))
    | none => engine.date value

/-- `parseDurationSeconds` of any value. -/
def parseDurationValue (engine : Engine) (value : Option Json) : Option (Option ℚ) :=
  if !isGiven value then some none
  else do
    match (← engine.number value).filter fun n => 0 ≤ n with
    | some n => pure (some n)
    | none =>
        let text := JavaScript.toLowerCase (trim (← engine.string value))
        pure (if text.isEmpty then none else sumDurations (matchAll text.length text))

/-- `\w`. -/
def isWordChar (c : Char) : Bool :=
  c.isAlphanum || c == '_'

/-- `replace(/\bago\b/, "")`, where the character before is in a word or not. -/
def removeAgo (inWord : Bool) : Text → Text
  | [] => []
  | c :: rest =>
      if !inWord && "ago".toList.isPrefixOf (c :: rest) &&
          !(rest.drop 2).head?.any isWordChar then rest.drop 2
      else c :: removeAgo (isWordChar c) rest

/-- `parseRelativeAgoToTimestampMs`. -/
def parseRelativeAgoToTimestampMs (engine : Engine) (value : Option Json) :
    Option (Option ℚ) :=
  if !isGiven value then some none
  else do
    match ← parseTimestampMs engine value with
    | some timestamp => pure (some timestamp)
    | none =>
        let text := JavaScript.toLowerCase (trim (← engine.string value))
        if !decide ("ago".toList <:+: text) then pure none
        else
          let seconds ← parseDurationValue engine (some (.string (trim (removeAgo false text))))
          pure (seconds.map fun seconds => engine.now - seconds * 1000)

/-- The units of `formatHashes`. -/
def hashUnits : List Text :=
  ["Sol/s", "KSol/s", "MSol/s", "GSol/s", "TSol/s", "PSol/s"].map String.toList

/-- The part of `formatHashes` behind the conversion to a number. -/
def formatRate (engine : Engine) (rate : Option ℚ) : Text :=
  match rate.filter fun n => 0 < n with
  | none => "--".toList
  | some n =>
      let (v, i) := scaleDown (hashUnits.length - 1) n 0
      toFixed engine.format v (ratePrecision v) ++ ' ' :: hashUnits.getD i []

/-- `formatHashes`; `none` where it throws. -/
def formatHashes (engine : Engine) (value : Json) : Option Text :=
  match value with
  | .string text =>
      if text.any Char.isAlpha then some text else some (formatRate engine (numberOfText text))
  | value => (engine.number (some value)).map (formatRate engine)

/-- `formatHashesMaybe`. -/
def formatHashesMaybe (engine : Engine) : Option Json → Option (Option Json)
  | none => some none
  | some value =>
      if !isGiven (some value) then some none
      else (formatHashes engine value).map fun formatted =>
        if formatted = "--".toList then none else some (.string formatted)

/-- `formatDuration` of any value. -/
def formatDurationValue (engine : Engine) (value : Option Json) : Option (Option Json) :=
  (engine.number value).map fun n =>
    (n.filter fun n => 0 ≤ n).map fun n => .string (formatDuration engine.format (some n))

/-- `formatConnectedFromTimestamp`. -/
def formatConnectedFromTimestamp (engine : Engine) (timestamp : Option Json) :
    Option (Option Json) :=
  (engine.date timestamp).map fun parsed => parsed.map fun parsed =>
    .string (formatDuration engine.format (some (max 0 ⌊(engine.now - parsed) / 1000⌋)))

/-- How long ago a time was. -/
def agoText (engine : Engine) (ms : ℚ) : Text :=
  let sec := ⌊(engine.now - ms) / 1000⌋₊
  let text := wholeText engine.format
  if sec < 60 then text sec ++ "s ago".toList
  else if sec < 3600 then text (sec / 60) ++ "m ago".toList
  else if sec < 86400 then text (sec / 3600) ++ "h ago".toList
  else text (sec / 86400) ++ "d ago".toList

/-- `formatRelativeTime`. -/
def formatRelativeTime (engine : Engine) (timestamp : Option Json) : Option (Option Json) := do
  match ← engine.number timestamp with
  | some raw =>
      pure (some (.string (agoText engine (if raw > 10000000000 then raw else raw * 1000))))
  | none =>
      match ← engine.date timestamp with
      | some ms => pure (some (.string (agoText engine ms)))
      | none => pure (some (Rpc.orTruthy timestamp (.string "--".toList)))

/-! ## Rows -/

/-- What `normalizeMinerRow` returns. -/
structure MinerRow where
  rawRate : Option Json
  name : Option Json
  hashrate : Option Json
  accepted : Option Json
  rejected : Option Json
  stale : Option Json
  blocksFound : ℚ
  highestDifficulty : Option Json
  connected : Option Json
  ping : Text
  lastShare : Option Json
  sortName : Text
  sortHashrate : Option ℚ
  sortAccepted : Option ℚ
  sortRejected : Option ℚ
  sortStale : Option ℚ
  sortBlocksFound : ℚ
  sortHighestDifficulty : Option ℚ
  sortConnectedSeconds : Option ℚ
  sortPingMs : Option ℚ
  sortLastShareMs : Option ℚ

namespace Row

variable (engine : Engine) (m : Json)

/-- `nestedPick(m, _)` of the rates. -/
def nestedRate : Option Json :=
  nestedPick m [["stats", "hashrate"], ["shares", "hashrate"]]

def rawRate : Option Json :=
  pick [m.member "solutionRate", m.member "hashrate", m.member "hashRate", m.member "solps",
    m.member "hashesPerSecond", nestedRate m]

def name (nameFallback : Option Json) (i : Nat) : Option Json :=
  safeMinerName
    (pick [m.member "name", m.member "worker", m.member "workerName", m.member "username",
      m.member "login", m.member "address"])
    nameFallback i

def hashrate : Option (Option Json) := do
  let solutionRate ← formatHashesMaybe engine (m.member "solutionRate")
  let hashrate ← formatHashesMaybe engine (m.member "hashrate")
  let hashRate ← formatHashesMaybe engine (m.member "hashRate")
  let solps ← formatHashesMaybe engine (m.member "solps")
  let hashesPerSecond ← formatHashesMaybe engine (m.member "hashesPerSecond")
  let nested ← formatHashesMaybe engine (nestedRate m)
  pure (pick [m.member "solutionRateText", m.member "hashrateText", m.member "hashrateString",
    solutionRate, hashrate, hashRate, solps, hashesPerSecond, nested])

def accepted : Option Json :=
  pick [m.member "accepted", m.member "acceptedShares", m.member "sharesAccepted",
    m.member "validShares", m.member "shares",
    nestedPick m [["stats", "accepted"], ["shares", "accepted"], ["totals", "accepted"]]]

def rejected : Option Json :=
  pick [m.member "rejected", m.member "rejectedShares", m.member "sharesRejected",
    m.member "invalidShares", m.member "invalidshares",
    nestedPick m [["stats", "rejected"], ["shares", "rejected"], ["totals", "rejected"]]]

def stale : Option Json :=
  pick [m.member "stale", m.member "staleShares", m.member "staleshares",
    nestedPick m [["stats", "stale"], ["shares", "stale"], ["totals", "stale"]]]

def highestDifficulty : Option Json :=
  pick [m.member "bestDiffText", m.member "bestShareDifficultyText",
    m.member "highestDifficultyText", m.member "highestDifficulty", m.member "bestDifficulty",
    m.member "bestShareDifficulty", m.member "maxShareDiff", m.member "bestDiff",
    nestedPick m [["stats", "bestDiff"], ["stats", "highestDifficulty"],
      ["shares", "bestDifficulty"], ["bestShare", "difficulty"]]]

def connectedSeconds : Option (Option ℚ) := do
  let connectedSeconds ← parseDurationValue engine (m.member "connectedSeconds")
  let connectionSeconds ← parseDurationValue engine (m.member "connectionSeconds")
  let connectedForSeconds ← parseDurationValue engine (m.member "connectedForSeconds")
  let nested ← parseDurationValue engine
    (nestedPick m [["stats", "connectedSeconds"], ["connection", "seconds"]])
  let connectedAt ← parseDurationValue engine
    (← formatConnectedFromTimestamp engine (m.member "connectedAt"))
  pure (pickNumber [connectedSeconds, connectionSeconds, connectedForSeconds, nested, connectedAt])

def connected (connectedSeconds : Option ℚ) : Option (Option Json) := do
  let seconds ← formatDurationValue engine (connectedSeconds.map Json.number)
  let connectedAt ← formatConnectedFromTimestamp engine (m.member "connectedAt")
  pure (pick [m.member "connectedText", m.member "connectedFor", m.member "connectedDurationText",
    seconds, connectedAt])

def lastShareTimestampMs : Option (Option ℚ) := do
  let lastShareAt ← parseTimestampMs engine (m.member "lastShareAt")
  let lastShareTimestamp ← parseTimestampMs engine (m.member "lastShareTimestamp")
  let lastSubmit ← parseTimestampMs engine (m.member "lastSubmit")
  let last_share ← parseTimestampMs engine (m.member "last_share")
  let lastShare ← parseRelativeAgoToTimestampMs engine (m.member "lastShare")
  let lastShareText ← parseRelativeAgoToTimestampMs engine (m.member "lastShareText")
  pure (pickNumber [lastShareAt, lastShareTimestamp, lastSubmit, last_share, lastShare,
    lastShareText])

/-- `typeof _ === "string" ? _ : undefined`. -/
def ifString : Option Json → Option Json
  | some (.string text) => some (.string text)
  | _ => none

def lastShare : Option (Option Json) := do
  let lastShareAt ← formatRelativeTime engine (m.member "lastShareAt")
  let lastShareTimestamp ← formatRelativeTime engine (m.member "lastShareTimestamp")
  let lastSubmit ← formatRelativeTime engine (m.member "lastSubmit")
  let last_share ← formatRelativeTime engine (m.member "last_share")
  let number ← engine.number (m.member "lastShare")
  let lastShare ← if number.isSome then formatRelativeTime engine (m.member "lastShare") else pure none
  pure (pick [ifString (m.member "lastShare"), lastShareAt, lastShareTimestamp, lastSubmit,
    last_share, lastShare])

def pingMsRaw : Option Json :=
  pick [m.member "pingMs", m.member "ping", m.member "latencyMs", m.member "lastPingMs",
    nestedPick m [["stats", "pingMs"], ["metrics", "pingMs"], ["ping", "ms"]]]

def pingStatusRaw : Option Json :=
  pick [m.member "pingStatus", m.member "lastPingStatus",
    nestedPick m [["stats", "pingStatus"], ["metrics", "pingStatus"], ["ping", "status"]]]

def pingStatus : Option Text :=
  match pingStatusRaw m with
  | some (.string text) => some (engine.toLowerCase text)
  | _ => none

def pingDisplay (pingMsNum : Option ℚ) : Text :=
  match pingMsNum with
  | some ms => toFixed engine.format ms 1 ++ " ms".toList
  | none =>
      if pingStatus engine m = some "fail".toList then "fail".toList
      else if pingStatus engine m = some "ok".toList then "ok".toList
      else "--".toList

def blocksFoundRaw : Option Json :=
  pick [m.member "blocksFound", m.member "blocks_found", m.member "sessionBlocksFound",
    nestedPick m [["stats", "blocksFound"], ["metrics", "blocksFound"]]]

end Row

/-- `normalizeMinerRow`; `none` where a conversion throws. -/
def normalizeMinerRow (engine : Engine) (m : Json) (nameFallback : Option Json) (i : Nat) :
    Option MinerRow := do
  let rawRate := Row.rawRate m
  let name := Row.name m nameFallback i
  let hashrate ← Row.hashrate engine m
  let accepted := Row.accepted m
  let rejected := Row.rejected m
  let stale := Row.stale m
  let highestDifficulty := Row.highestDifficulty m
  let connectedSeconds ← Row.connectedSeconds engine m
  let connected ← Row.connected engine m connectedSeconds
  let lastShareTimestampMs ← Row.lastShareTimestampMs engine m
  let lastShare ← Row.lastShare engine m
  let pingMsNum ← engine.number (Row.pingMsRaw m)
  let rate ← engine.number rawRate
  let blocksFound := (← engine.number (Row.blocksFoundRaw m)).getD 0
  pure {
    rawRate := rawRate
    name := name
    hashrate := hashrate
    accepted := accepted
    rejected := rejected
    stale := stale
    blocksFound := blocksFound
    highestDifficulty := highestDifficulty
    connected := connected
    ping := Row.pingDisplay engine m pingMsNum
    lastShare := lastShare
    sortName := engine.toLowerCase (← engine.string (Rpc.orTruthy name (.string [])))
    sortHashrate := pickNumber [rate, ← parseScaledValue engine hashrate]
    sortAccepted := ← sortNumber engine accepted
    sortRejected := ← sortNumber engine rejected
    sortStale := ← sortNumber engine stale
    sortBlocksFound := blocksFound
    sortHighestDifficulty := ← parseScaledValue engine highestDifficulty
    sortConnectedSeconds := pickNumber [connectedSeconds, ← parseDurationValue engine connected]
    sortPingMs := pingMsNum
    sortLastShareMs := lastShareTimestampMs }

/-- `normalizeMiners`; `none` where it throws. -/
def normalizeMiners (engine : Engine) : Option Json → Option (List MinerRow)
  | some (.array miners) => miners.zipIdx.mapM fun (m, i) =>
      if m.isNull then none else normalizeMinerRow engine m (m.member "ip") i
  | some (.object members) => members.zipIdx.mapM fun ((name, m), i) =>
      if m.isNull then none
      else normalizeMinerRow engine m
        (if isIpText name then m.member "ip" else some (.string name)) i
  | _ => some []

/-- The miners that `normalizePayload` finds in an answer with members of its own. -/
def minersOf (payload : Json) : Option Json :=
  let root := Rpc.nullish (Rpc.nullish (payload.member "result") (payload.member "data")) (some payload)
  root.bind fun root => ["miners", "minerStats", "miner_stats", "workers"].findSome? fun name =>
    (root.member name).filter Rpc.isObject

end ZcashSoloPool.Dashboard
