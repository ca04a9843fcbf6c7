import ZcashSoloPool.JavaScript.Json
import ZcashSoloPool.Stratum.Course

/-!
# Requests of a client

`handleRequest` on a JSON value: what it does to the client, and in their order
the messages it writes, the lines it logs and the submission it hands over.  An
exception ends it where it stands, with what was done until then.
-/

namespace ZcashSoloPool.Stratum

open ZcashSoloPool.JavaScript
open ZcashSoloPool.WorkManager

/-- The settings of the server that its requests read. -/
structure RequestSettings where
  shares : ShareConfig
  zip301 : Bool
  useSetTarget : Bool
  extranonce2Size : Nat
  jobResendDelayMs : Nat
  logOutbound : Bool
  logSubmissions : Bool
  submitAudit : Bool
  numbers : NumberFormat

/-! ## Messages and lines -/

/-- The result of a response, or its error. -/
inductive Body where
  /-- `[[], {}]`. -/
  | noExtensions
  /-- `[null, extranonce1, extranonce2Size]`. -/
  | session (extranonce1 : Text) (extranonce2Size : Nat)
  /-- The same behind the list of notifications. -/
  | subscription (extranonce1 : Text) (extranonce2Size : Nat)
  /-- `true`. -/
  | success
  | failure (code : Nat) (message : CodeUnits)
  deriving DecidableEq, Repr

/-- A message to a client.  Only a response has the id of a request. -/
inductive Outbound where
  | response (id : Option Json) (body : Body)
  | setDifficulty (difficulty : ℚ)
  | setTarget (shareTarget : Option Text)
  | notify (job : Job)

/-- A part of a line: text of the server's own, a number that it formats, text
of a client, or the JSON text of a message. -/
inductive Piece where
  | own (text : Text)
  | number (value : ℚ)
  | client (units : CodeUnits)
  | message (data : Outbound)

/-- A line for the logger. -/
abbrev Line :=
  List Piece

/-- What a request does outside the client's fields. -/
inductive Effect where
  | send (message : Outbound)
  | log (line : Line)
  /-- The event `submit`. -/
  | submit (requestId : Option Json) (worker : Option Json) (parsed : ParsedSubmit)
  /-- The timer that sends the last job once more. -/
  | resendLater

/-- How a request ends: the client, what was done, and whether it threw. -/
structure Handled where
  miner : Miner
  effects : List Effect
  threw : Bool

/-- The message that reports the difficulty of a client. -/
def difficultyMessage (miner : Miner) : Outbound :=
  .setDifficulty miner.currentDifficulty

/-- The message that reports its target, if the server sends targets. -/
def targetMessages (settings : RequestSettings) (miner : Miner) : List Outbound :=
  if settings.useSetTarget then [.setTarget miner.client.shareTarget] else []

/-- The messages at the end of `applyDifficulty`. -/
def announcement (settings : RequestSettings) (miner : Miner) : List Outbound :=
  if miner.authorized then difficultyMessage miner :: targetMessages settings miner else []

/-! ## The parameters -/

/-- A member counts as true. -/
def truthy (value : Option Json) : Bool :=
  value.any Json.truthy

/-- `params && params[0]`. -/
def firstParam (params : Option Json) : Option Json :=
  params.bind fun value => if value.truthy then value.elementZero else some value

/-- `params || []`, where that is an array. -/
def submitParams (params : Option Json) : Option (List Json) :=
  match params with
  | some (.array elements) => some elements
  | some value => if value.truthy then none else some []
  | none => some []

/-- The parameter that is the worker of a submission. -/
def workerParam (params : Option (List Json)) : Option Json :=
  match params with
  | some values => if values.length ≥ 5 then values[0]? else some .null
  | none => some .null

/-- The parameter that is its job. -/
def jobParam (params : Option (List Json)) : Option Json :=
  match params with
  | some values =>
      if values.length ≥ 5 then values[1]? else if values.length = 4 then values[0]? else none
  | none => none

/-- A conversion to a string throws; that of a missing value does not. -/
def unprintable (numbers : NumberFormat) (value : Option Json) : Bool :=
  value.any fun json => (json.toText? numbers).isNone

/-- What a template literal writes for a value of the client. -/
def shownText (numbers : NumberFormat) (value : Option Json) : Text :=
  match value with
  | some json => (json.toText? numbers).getD []
  | none => Value.undefined.toText

/-- A value of the client in a line, or a word where it counts as false. -/
def shown (numbers : NumberFormat) (value : Option Json) (fallback : String) : Piece :=
  if truthy value then .client (codeUnits (shownText numbers value)) else .own fallback.toList

/-- A field of the parsed submission in a line. -/
def shownField (field : Option Text) (fallback : String) : Piece :=
  if field.getD [] ≠ [] then .client (codeUnits (field.getD [])) else .own fallback.toList

/-- A length in a line. -/
def shownLength (length : Nat) : Piece :=
  .own (Nat.toDigits 10 length)

/-! ## The lines -/

/-- `#` and the number of the client. -/
def clientTag (clientId : Nat) : Piece :=
  .own ('#' :: Nat.toDigits 10 clientId)

/-- The line of `mining.subscribe` in the mode `zip301`. -/
def subscribeLine (settings : RequestSettings) (clientId : Nat) (miner : Miner) : Line :=
  [.own "[Stratum] ZIP301 subscribe -> ".toList, clientTag clientId, .own " extranonce1=".toList,
    .own miner.client.extranonce1, .own " extranonce2_size=".toList,
    shownLength settings.extranonce2Size]

/-- The line of `mining.suggest_difficulty`. -/
def suggestLine (clientId : Nat) (suggested : ℚ) (before after : Miner) : Line :=
  [.own "[Stratum] Client ".toList, clientTag clientId, .own " suggested diff ".toList,
    .number suggested, .own " -> ".toList, .number after.currentDifficulty, .own " (was ".toList,
    .number before.currentDifficulty, .own ")".toList]

/-- The line of `mining.authorize`. -/
def authorizeLine (settings : RequestSettings) (clientId : Nat) (first : Option Json) : Line :=
  [.own "[Stratum] Authorize request ".toList, clientTag clientId, .own " user=".toList,
    shown settings.numbers first "unknown"]

/-- The line of `mining.submit`. -/
def submitLine (clientId : Nat) (parsed : ParsedSubmit) : Line :=
  [.own "[Stratum] Share submit from client ".toList, clientTag clientId, .own " job ".toList,
    shownField parsed.jobId "unknown", .own " nTime=".toList, shownField parsed.nTime "n/a",
    .own " nonceLen=".toList, shownLength (unitLength (parsed.nonce.getD []))]

/-- `previewHex`. -/
def previewHex (value : Option Text) : Piece :=
  match value with
  | none => .own "n/a".toList
  | some text =>
      let normalized := codeUnits (strip0x (toLowerCase (trim text)))
      if normalized.isEmpty then .own "empty".toList
      else if normalized.length ≤ 24 then .client normalized
      else .client (normalized.take 12 ++ codeUnits "...".toList ++
        normalized.drop (normalized.length - 12))

/-- `JSON.stringify(params || [])`. -/
def stringifiedParams (numbers : NumberFormat) (params : Option Json) : Text :=
  match params with
  | some value => if value.truthy then value.stringify numbers else ['[', ']']
  | none => ['[', ']']

/-- The line of a submission with `logSubmissions`. -/
def detailLine (settings : RequestSettings) (clientId : Nat) (params : Option Json)
    (worker : Option Json) (parsed : ParsedSubmit) : Line :=
  [.own "[Stratum] Submit detail ".toList, clientTag clientId, .own " worker=".toList,
    shown settings.numbers worker "n/a", .own " nonce=".toList, previewHex parsed.nonce,
    .own " solution=".toList, previewHex parsed.solution, .own " raw=".toList,
    .client (codeUnits (stringifiedParams settings.numbers params))]

/-- `(params || []).length`. -/
def paramsLength (params : Option Json) : Option Json :=
  match params with
  | some value => if value.truthy then value.length else some (.number 0)
  | none => some (.number 0)

/-- The length of a field without its prefix. -/
def hexLength (field : Option Text) : Nat :=
  unitLength (strip0x (toLowerCase (field.getD [])))

/-- The line of a submission with `submitAudit`. -/
def auditLine (settings : RequestSettings) (clientId : Nat) (params : Option Json)
    (worker : Option Json) (parsed : ParsedSubmit) : Line :=
  [.own "[Stratum][Audit] client=".toList, clientTag clientId, .own " worker=".toList,
    shown settings.numbers worker "n/a", .own " job=".toList, shownField parsed.jobId "n/a",
    .own " params=".toList, .client (codeUnits (shownText settings.numbers (paramsLength params))),
    .own " nTimeHexLen=".toList, shownLength (hexLength parsed.nTime), .own " nonceHexLen=".toList,
    shownLength (hexLength parsed.nonce), .own " solutionHexLen=".toList,
    shownLength (hexLength parsed.solution)]

/-! ## The methods -/

/-- `mining.subscribe`. -/
def subscribe (settings : RequestSettings) (clientId : Nat) (id : Option Json) (miner : Miner) :
    Handled :=
  let extranonce1 := miner.client.extranonce1
  if settings.zip301 then
    ⟨miner, [.log (subscribeLine settings clientId miner),
      .send (.response id (.session extranonce1 settings.extranonce2Size))], false⟩
  else
    ⟨miner, [.send (.response id (.subscription extranonce1 settings.extranonce2Size)),
      .send (difficultyMessage miner)], false⟩

/-- `Number(params && params[0])`. -/
def suggestedNumber (numbers : NumberFormat) (first : Option Json) : Option (Option ℚ) :=
  match first with
  | some value => value.toNumber? numbers
  | none => some none

/-- `mining.suggest_difficulty`. -/
def suggestDifficulty (settings : RequestSettings) (clientId : Nat) (id first : Option Json)
    (now : Nat) (miner : Miner) : Handled :=
  match suggestedNumber settings.numbers first with
  | none => ⟨miner, [], true⟩
  | some suggested =>
      match parsePositiveNumber suggested with
      | none => ⟨miner, [.send (.response id .success)], false⟩
      | some difficulty =>
          let after := miner.applyDifficulty settings.shares difficulty now
          ⟨after, (announcement settings after).map .send ++
            [.log (suggestLine clientId difficulty miner after),
              .send (.response id .success)], false⟩

/-- The name of `mining.authorize` before it is cleaned; `none` where its
conversion throws. -/
def rawName (numbers : NumberFormat) (clientId : Nat) (first : Option Json)
    (workerName : Option CodeUnits) : Option CodeUnits :=
  match first with
  | some value =>
      if value.truthy then (value.toText? numbers).map codeUnits
      else some (chooseName workerName clientId none)
  | none => some (chooseName workerName clientId none)

/-- `sendJob` of the last job, and the timer for it. -/
def welcomeJob (settings : RequestSettings) (lastJob : Option Job) : List Effect :=
  match lastJob with
  | none => []
  | some job =>
      .send (.notify job) :: if settings.jobResendDelayMs > 0 then [.resendLater] else []

/-- `mining.authorize`. -/
def authorize (settings : RequestSettings) (clientId : Nat) (id first : Option Json)
    (lastJob : Option Job) (miner : Miner) : Handled :=
  let authorized := { miner with authorized := true }
  match rawName settings.numbers clientId first miner.workerName with
  | none => ⟨authorized, [], true⟩
  | some name =>
      let named := { authorized with workerName := some (sanitizeWorkerName name) }
      ⟨named, [.log (authorizeLine settings clientId first), .send (.response id .success),
        .send (difficultyMessage named)] ++ (targetMessages settings named).map .send ++
          welcomeJob settings lastJob, false⟩

/-- The lines of a submission in front of the audit. -/
def submitLines (settings : RequestSettings) (clientId : Nat) (params worker : Option Json)
    (parsed : ParsedSubmit) : List Effect :=
  .log (submitLine clientId parsed) ::
    if settings.logSubmissions then [.log (detailLine settings clientId params worker parsed)]
    else []

/-- The client after a submission was counted. -/
def countSubmit (miner : Miner) : Miner :=
  { miner with metrics := { miner.metrics with submits := miner.metrics.submits + 1 } }

/-- The client after a submission was counted and its worker taken. -/
def nameSubmit (numbers : NumberFormat) (worker : Option Json) (miner : Miner) : Miner :=
  if truthy worker then
    { countSubmit miner with
      workerName := some (sanitizeWorkerName (codeUnits (shownText numbers worker))) }
  else countSubmit miner

/-- `mining.submit`. -/
def submit (settings : RequestSettings) (clientId : Nat) (id params : Option Json)
    (miner : Miner) : Handled :=
  if !miner.authorized then
    ⟨miner, [.send (.response id (.failure 24 (codeUnits "Unauthorized".toList)))], false⟩
  else
    let values := submitParams params
    if unprintable settings.numbers (jobParam values) then ⟨miner, [], true⟩
    else
      let parsed := parseSubmit (values.map fun list => list.map (Json.toValue settings.numbers))
      let worker := workerParam values
      if truthy worker && unprintable settings.numbers worker then ⟨countSubmit miner, [], true⟩
      else
        let named := nameSubmit settings.numbers worker miner
        let lines := submitLines settings clientId params worker parsed
        if settings.submitAudit then
          -- The template reads `params.length`, which an object chooses freely.
          if unprintable settings.numbers (paramsLength params) then ⟨named, lines, true⟩
          else ⟨named, lines ++ [.log (auditLine settings clientId params worker parsed),
            .submit id worker parsed], false⟩
        else ⟨named, lines ++ [.submit id worker parsed], false⟩

/-- The reply to a method that is not known, with its name cleaned and cut. -/
def unsupported (numbers : NumberFormat) (id method : Option Json) (miner : Miner) : Handled :=
  if truthy method && unprintable numbers method then ⟨miner, [], true⟩
  else
    let name := if truthy method then codeUnits (shownText numbers method) else []
    ⟨miner, [.send (.response id (.failure 20
      (codeUnits "Unsupported method ".toList ++ (stripControls name).take 64)))], false⟩

/-- The request calls the method. -/
def calls (request : Json) (method : String) : Bool :=
  match request.member "method" with
  | some (.string name) => name == method.toList
  | _ => false

/-- `handleRequest`. -/
def handleRequest (settings : RequestSettings) (clientId : Nat) (lastJob : Option Job) (now : Nat)
    (miner : Miner) (request : Json) : Handled :=
  let params := request.member "params"
  let id := request.member "id"
  if calls request "mining.configure" then
    ⟨miner, [.send (.response id .noExtensions)], false⟩
  else if calls request "mining.subscribe" then subscribe settings clientId id miner
  else if calls request "mining.extranonce.subscribe" then
    ⟨miner, [.send (.response id .success)], false⟩
  else if calls request "mining.suggest_difficulty" then
    suggestDifficulty settings clientId id (firstParam params) now miner
  else if calls request "mining.authorize" then
    authorize settings clientId id (firstParam params) lastJob miner
  else if calls request "mining.submit" then submit settings clientId id params miner
  else unsupported settings.numbers id (request.member "method") miner

end ZcashSoloPool.Stratum
