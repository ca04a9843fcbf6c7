import ZcashSoloPool.Pool.SubmitHandler
import ZcashSoloPool.Stratum.Requests

/-!
# The pool in service

The desk together with the sockets of its clients, the job that was broadcast
last and the log.  Requests arrive as JSON values; what they and the outcomes
of submissions write and log is carried out in order.  Lines in which only the
pool and the node speak are left out, and so are those about connections.
-/

namespace ZcashSoloPool.Pool

open ZcashSoloPool.JavaScript
open ZcashSoloPool.Stratum
open ZcashSoloPool.Transition
open ZcashSoloPool.WorkManager (AcceptedShare BlockTemplate Externals Job)

/-! ## The state -/

/-- The settings of the pool. -/
structure ServiceConfig where
  requests : RequestSettings
  ledger : LedgerConfig

/-- Those of the desk. -/
def ServiceConfig.desk (config : ServiceConfig) : DeskConfig where
  shares := config.requests.shares
  ledger := config.ledger
  submitAudit := config.requests.submitAudit

/-- A message on a socket.  The source does not keep the last two: the
difficulty and the target of the client when it was written. -/
structure Written where
  message : Outbound
  difficulty : ℚ
  shareTarget : Option Text

/-- The socket of a client with everything that was written to it. -/
structure Socket where
  destroyed : Bool
  written : List Written

/-- A new socket. -/
def Socket.opened : Socket :=
  ⟨false, []⟩

/-- A socket and the log. -/
structure Channel where
  socket : Socket
  lines : List Line

/-- The pool in service.  The ids and workers of the submissions, and the
sockets, stand in the order of the handlers and clients of the desk. -/
structure Service where
  desk : Desk
  sockets : List Socket
  requestIds : List (Option Json)
  lastJob : Option Job
  lines : List Line

/-- What may happen next.  Every write is told the length of the unsent data it
finds. -/
inductive ServiceEvent where
  /-- A template arrives, the network is refreshed, the node answers, or the
  recent submissions are pruned. -/
  | node (event : DeskEvent)
  | connect (now : Instant)
  | disconnect (client : Nat)
  /-- The socket is destroyed, for whatever reason. -/
  | destroy (client : Nat)
  | request (client : Nat) (line : Json) (now : Instant) (backlog : Nat → Nat)
  /-- The handler of a submission continues. -/
  | resume (handler : Nat) (now : Instant) (backlog : Nat → Nat)
  | checkIdleMiners (now : Instant) (backlog : Nat → Nat → Nat)
  | broadcastJob (job : Job) (backlog : Nat → Nat)
  /-- The timer of an authorization sends the last job once more. -/
  | resend (client : Nat) (backlog : Nat)

/-! ## Effects -/

/-- The number of bytes in a line. -/
def backlogLine (clientId backlog : Nat) : Line :=
  [.own "[Stratum] Outbound backlog exceeded for ".toList, clientTag clientId, .own " (".toList,
    shownLength backlog, .own " bytes), closing".toList]

/-- The line of a message with `logOutbound`. -/
def outboundLine (clientId : Nat) (message : Outbound) : Line :=
  [.own "[Stratum][TX] -> ".toList, clientTag clientId, .own " ".toList, .message message]

namespace Channel

/-- `send`. -/
def send (settings : RequestSettings) (clientId : Nat) (miner : Miner) (message : Outbound)
    (backlog : Nat) (channel : Channel) : Channel :=
  if channel.socket.destroyed then channel
  else
    let logged :=
      if settings.logOutbound then channel.lines ++ [outboundLine clientId message]
      else channel.lines
    if backlog > maxBufferBytes then
      ⟨{ channel.socket with destroyed := true }, logged ++ [backlogLine clientId backlog]⟩
    else
      ⟨{ channel.socket with written := channel.socket.written ++
        [⟨message, miner.currentDifficulty, miner.client.shareTarget⟩] }, logged⟩

/-- Carry out one effect.  Submissions are the desk's, and the timer is an event
of its own. -/
def perform (settings : RequestSettings) (clientId : Nat) (miner : Miner) (channel : Channel)
    (effect : Effect) (backlog : Nat) : Channel :=
  match effect with
  | .send message => channel.send settings clientId miner message backlog
  | .log line => { channel with lines := channel.lines ++ [line] }
  | .submit _ _ _ => channel
  | .resendLater => channel

/-- Carry out effects in their order. -/
def performAll (settings : RequestSettings) (clientId : Nat) (miner : Miner) :
    List Effect → (Nat → Nat) → Channel → Channel
  | [], _, channel => channel
  | effect :: rest, backlog, channel =>
      performAll settings clientId miner rest (fun place => backlog (place + 1))
        (channel.perform settings clientId miner effect (backlog 0))

end Channel

/-! ## The outcome of a submission -/

/-- The text of a label in a line. -/
def labelPiece : WorkerLabel → Piece
  | .name units => .client units
  | .value value => .client (codeUnits value.toText)

/-- The first 16 digits of a hash. -/
def hashPiece (hash : Text) : Piece :=
  .own (hash.take 16)

/-- A difficulty that may be missing. -/
def difficultyPiece : Option ℚ → Piece
  | some difficulty => .number difficulty
  | none => .own "n/a".toList

/-- The difficulty of a client was changed, which is when `applyDifficulty` was
called for a retarget. -/
def Retargeted (before after : Miner) : Prop :=
  after.currentDifficulty ≠ before.currentDifficulty

instance (before after : Miner) : Decidable (Retargeted before after) :=
  inferInstanceAs (Decidable (¬_))

/-- The messages of a retarget. -/
def retargetEffects (settings : RequestSettings) (before after : Miner) : List Effect :=
  if Retargeted before after then (announcement settings after).map .send else []

/-- The line of a retarget after an accepted share. -/
def retargetLine (clientId : Nat) (before after : Miner) (vardiff : VardiffConfig) : Line :=
  [.own "[VarDiff] Miner ".toList, clientTag clientId, .own " diff ".toList,
    .number before.currentDifficulty, .own " -> ".toList, .number after.currentDifficulty,
    .own " (avg ".toList, .number (Miner.averageInterval vardiff after.shareTimes),
    .own "s/share)".toList]

/-- The share is better than the best one. -/
def Desk.Best (desk : Desk) (share : AcceptedShare) (miner : Miner) : Prop :=
  (desk.foundDiff share).getD (computeShareDifficulty miner.currentDifficulty share.shareQuality) >
    desk.allTimeBestShare.difficulty

instance (desk : Desk) (share : AcceptedShare) (miner : Miner) :
    Decidable (desk.Best share miner) :=
  inferInstanceAs (Decidable (_ < _))

/-- The line of a new best share. -/
def bestLine (desk : Desk) (label : WorkerLabel) (share : AcceptedShare) (miner : Miner) : Line :=
  [.own "[AllTimeBest] New all-time best share! diff=".toList,
    .number ((desk.foundDiff share).getD
      (computeShareDifficulty miner.currentDifficulty share.shareQuality)),
    .own " worker=".toList, labelPiece label, .own " hash=".toList, hashPiece share.hash]

/-- The line of an accepted share. -/
def acceptedLine (label : WorkerLabel) (share : AcceptedShare) (miner : Miner) : Line :=
  [.own "Share Accepted: ".toList, hashPiece share.hash, .own " worker=".toList, labelPiece label,
    .own " diff=".toList,
    .number (computeShareDifficulty miner.currentDifficulty share.shareQuality)]

/-- The line of a block. -/
def blockLine (desk : Desk) (clientId : Nat) (label : WorkerLabel) (share : AcceptedShare) : Line :=
  [.own "!!! BLOCK FOUND !!! hash=".toList, hashPiece share.hash, .own " worker=".toList,
    labelPiece label, .own " minerId=".toList, shownLength clientId, .own " height=".toList,
    .own desk.surroundings.currentHeight.toText, .own " netDiff=".toList,
    difficultyPiece desk.network.difficulty, .own " foundDiff=".toList,
    difficultyPiece (desk.foundDiff share)]

/-- The line of a block that was submitted already. -/
def duplicateLine (share : AcceptedShare) : Line :=
  [.own "[BLOCK] Duplicate block candidate suppressed: ".toList, hashPiece share.hash]

/-- The lines of a share that is a block. -/
def blockLines (config : LedgerConfig) (desk : Desk) (clientId : Nat) (label : WorkerLabel)
    (share : AcceptedShare) (now : Instant) : List Line :=
  if share.isBlock then
    blockLine desk clientId label share ::
      match desk.ledger.recentBlockSubmissions.get? (normalizeBlockKey share.hash) with
      | some prev => if Suppresses config now prev then [duplicateLine share] else []
      | none => []
  else []

/-- What the handler of an accepted share does outside the desk. -/
def acceptedEffects (config : ServiceConfig) (desk : Desk) (handler : Handler) (miner : Miner)
    (requestId : Option Json) (share : AcceptedShare) (now : Instant) : List Effect :=
  let after := desk.creditMiner config.desk share miner now
  let label := Desk.label handler miner
  let clientId := handler.client + 1
  [.send (.response requestId .success)] ++ retargetEffects config.requests miner after ++
    (if Retargeted miner after then
      [.log (retargetLine clientId miner after config.requests.shares.vardiff)]
    else []) ++
    (if desk.Best share miner then [.log (bestLine desk label share miner)] else []) ++
    [.log (acceptedLine label share miner)] ++
    (blockLines config.ledger desk clientId label share now).map .log

/-- What a handler does outside the desk when it continues. -/
def resumeEffects (config : ServiceConfig) (desk : Desk) (handler : Handler) (miner : Miner)
    (requestId : Option Json) (now : Instant) : List Effect :=
  match handler.result with
  | .ok (.valid share) => acceptedEffects config desk handler miner requestId share now
  | .ok (.invalid error) =>
      [.send (.response requestId (.failure 23 (codeUnits error.toList))),
        .log [.own "Share Rejected: ".toList, .own error.toList]]
  | .error message =>
      [.log [.own "[Submit] Handler failure: ".toList, .own message.toList],
        .send (.response requestId (.failure 20 (codeUnits "Internal server error".toList)))]

/-- The line of the node's verdict on a block. -/
def verdictLine (config : LedgerConfig) (call : BlockCall) (difficulty : Option ℚ) :
    Except String Value → Line
  | .error message => [.own "[BLOCK] submitblock failed: ".toList, .own message.toList]
  | .ok result =>
      if isNullish result then
        [.own "[BLOCK] submitblock accepted by node: ".toList, hashPiece call.share.hash,
          .own " worker=".toList, labelPiece call.minerLabel, .own " netDiff=".toList,
          difficultyPiece difficulty, .own " foundDiff=".toList,
          difficultyPiece (foundDifficulty difficulty call.share)]
      else if result.throwsOn config.unwritable then
        [.own "[BLOCK] submitblock failed: ".toList,
          .own "Cannot convert object to primitive value".toList]
      else
        [.own "[BLOCK] submitblock returned rejection: ".toList, .own result.toText,
          .own " worker=".toList, labelPiece call.minerLabel]

/-- The lines of what the node says. -/
def nodeLines (config : LedgerConfig) (desk : Desk) : DeskEvent → List Line
  | .verdict call reply _ =>
      (desk.ledger.calls[call]?.map fun called =>
        verdictLine config called desk.network.difficulty reply).toList
  | _ => []

/-! ## Requests -/

/-- A submission as the effects of a request hand it over. -/
structure Submitted where
  requestId : Option Json
  worker : Option Json
  parsed : ParsedSubmit

/-- The submission among the effects of a request. -/
def handedOver (effects : List Effect) : Option Submitted :=
  effects.findSome? fun effect =>
    match effect with
    | .submit requestId worker parsed => some ⟨requestId, worker, parsed⟩
    | _ => none

/-- A value of a request, as the desk keeps it. -/
def valueOf (numbers : NumberFormat) (value : Option Json) : Value :=
  (value.map (Json.toValue numbers)).getD .undefined

/-- The handler that a submission starts. -/
def Submitted.handler (deps : Externals) (numbers : NumberFormat) (desk : Desk) (client : Nat)
    (miner : Miner) (now : Instant) (submitted : Submitted) : Handler :=
  desk.startHandler deps client (valueOf numbers submitted.requestId)
    (valueOf numbers submitted.worker) miner
    { client := miner.client
      jobId := submitted.parsed.jobId
      nTime := submitted.parsed.nTime
      nonce := submitted.parsed.nonce
      solution := submitted.parsed.solution } now

/-- The line of a validation that tried candidates and found none good enough.
The digits of the best hash are not kept. -/
def validationLines (submitted : Submitted) (handler : Handler) : List Line :=
  match handler.checked, handler.result with
  | some _, .ok (.invalid _) =>
      [[.own "[Share] Rejected job=".toList, shownField submitted.parsed.jobId "null",
        .own " best=".toList]]
  | _, _ => []

namespace Service

/-- A pool that has just loaded its state. -/
def initial (walletAddress poolTarget : Text) (ledger : Ledger) (best : BestShare) : Service where
  desk := .initial walletAddress poolTarget ledger best
  sockets := []
  requestIds := []
  lastJob := none
  lines := []

/-- Carry out effects for one client. -/
def perform (config : ServiceConfig) (service : Service) (client : Nat) (miner : Miner)
    (effects : List Effect) (backlog : Nat → Nat) : Service :=
  match service.sockets[client]? with
  | some socket =>
      let channel := Channel.performAll config.requests (client + 1) miner effects backlog
        ⟨socket, service.lines⟩
      { service with
        sockets := service.sockets.set client channel.socket
        lines := channel.lines }
  | none => service

/-- The desk after a request. -/
def requestDesk (desk : Desk) (client : Nat) (miner : Miner) (handled : Handled)
    (handler : Option Handler) : Desk :=
  { desk with
    miners := desk.miners.set client handled.miner
    handlers := desk.handlers ++ handler.toList
    unconvertible :=
      if handled.threw ∧ handled.miner.metrics.submits ≠ miner.metrics.submits then
        desk.unconvertible ++ [client]
      else desk.unconvertible }

/-- A request of a client. -/
def request (deps : Externals) (config : ServiceConfig) (service : Service) (client : Nat)
    (miner : Miner) (line : Json) (now : Instant) (backlog : Nat → Nat) : Service :=
  let handled :=
    Stratum.handleRequest config.requests (client + 1) service.lastJob now.ms miner line
  let submitted := handedOver handled.effects
  let start := Submitted.handler deps config.requests.numbers service.desk client handled.miner now
  let performed := service.perform config client handled.miner handled.effects backlog
  { performed with
    desk := requestDesk service.desk client miner handled (submitted.map start)
    requestIds := service.requestIds ++ (submitted.map Submitted.requestId).toList
    lines := performed.lines ++
      (submitted.map fun submission => validationLines submission (start submission)).getD [] }

/-- The handler of a submission continues. -/
def resume (config : ServiceConfig) (service : Service) (place : Nat) (handler : Handler)
    (miner : Miner) (now : Instant) (backlog : Nat → Nat) : Service :=
  let desk := service.desk.resume config.desk place handler miner now
  let effects := resumeEffects config service.desk handler miner
    (service.requestIds.getD place none) now
  { service.perform config handler.client (desk.miners.getD handler.client miner) effects backlog
    with desk := desk }

/-- The effects of the sweep for idle miners on one client. -/
def idleEffects (config : ServiceConfig) (clientId : Nat) (before after : Miner) : List Effect :=
  retargetEffects config.requests before after ++
    if Retargeted before after then
      [.log [.own "[VarDiff] Idle retarget Miner ".toList, clientTag clientId, .own " diff ".toList,
        .number before.currentDifficulty, .own " -> ".toList, .number after.currentDifficulty]]
    else []

/-- Carry out effects for several clients, one after the other. -/
def performEach (config : ServiceConfig) (effects : Nat → Miner → List Effect)
    (backlog : Nat → Nat → Nat) : List (Nat × Miner) → Service → Service
  | [], service => service
  | (client, miner) :: rest, service =>
      performEach config effects backlog rest
        (service.perform config client miner (effects client miner) (backlog client))

/-- The clients with their places. -/
def places (miners : List Miner) : List (Nat × Miner) :=
  miners.zipIdx.map Prod.swap

/-- The sweep for idle miners. -/
def checkIdleMiners (config : ServiceConfig) (service : Service) (now : Instant)
    (backlog : Nat → Nat → Nat) : Service :=
  let swept := if config.requests.shares.vardiff.enabled then
      service.desk.miners.map (Miner.checkIdle config.requests.shares now.ms)
    else service.desk.miners
  { performEach config (fun client after =>
        idleEffects config (client + 1) (service.desk.miners.getD client after) after)
      backlog (places swept) service with
    desk := { service.desk with miners := swept } }

/-- `broadcastJob`.  It logs nothing but the backlog. -/
def broadcastJob (config : ServiceConfig) (service : Service) (job : Job) (backlog : Nat → Nat) :
    Service :=
  performEach { config with requests := { config.requests with logOutbound := false } }
    (fun _ miner => if miner.listed && miner.authorized then [.send (.notify job)] else [])
    (fun client _ => backlog client) (places service.desk.miners)
    { service with lastJob := some job }

/-- The delayed resend of the last job. -/
def resend (config : ServiceConfig) (service : Service) (client : Nat) (miner : Miner)
    (backlog : Nat) : Service :=
  match service.lastJob with
  | some job =>
      if miner.authorized then
        service.perform config client miner [.send (.notify job)] fun _ => backlog
      else service
  | none => service

/-- Destroy a socket. -/
def destroy (service : Service) (client : Nat) : Service :=
  { service with
    sockets := service.sockets.modify client fun socket => { socket with destroyed := true } }

/-- An event in which the node or a timer speaks. -/
def isNode : DeskEvent → Bool
  | .generateJob _ _ => true
  | .network _ => true
  | .verdict _ _ _ => true
  | .proposal _ _ => true
  | .cleanup _ => true
  | _ => false

/-- An event of the desk that concerns no socket. -/
def withDesk (deps : Externals) (config : ServiceConfig) (service : Service) (event : DeskEvent)
    (lines : List Line) : Option Service :=
  (Desk.next deps Json.unconverted config.desk service.desk event).map fun desk =>
    { service with desk := desk, lines := service.lines ++ lines }

/-- The event loop. -/
def next (deps : Externals) (config : ServiceConfig) : Next Service ServiceEvent
  | service, .node event =>
      if isNode event then
        service.withDesk deps config event (nodeLines config.desk.ledger service.desk event)
      else none
  | service, .connect now =>
      (service.withDesk deps config (.connect now) []).map fun connected =>
        { connected with sockets := service.sockets ++ [.opened] }
  | service, .disconnect client => service.withDesk deps config (.disconnect client) []
  | service, .destroy client => some (service.destroy client)
  | service, .request client line now backlog =>
      service.desk.miners[client]?.map fun miner =>
        service.request deps config client miner line now backlog
  | service, .resume place now backlog =>
      (service.desk.waiting place).map fun (handler, miner) =>
        service.resume config place handler miner now backlog
  | service, .checkIdleMiners now backlog => some (service.checkIdleMiners config now backlog)
  | service, .broadcastJob job backlog => some (service.broadcastJob config job backlog)
  | service, .resend client backlog =>
      service.desk.miners[client]?.map fun miner => service.resend config client miner backlog

end Service

end ZcashSoloPool.Pool
