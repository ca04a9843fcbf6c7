import ZcashSoloPool.Pool.SubmitHandler

/-!
# Requests of a client

What the stratum server does with a line of a client: the limit on messages
before the authorisation, the request, and the count of malformed messages.
Of the replies only their kind is kept; how much of them is unsent depends on
the network and is told to each write, and so is the last job.
-/

namespace ZcashSoloPool.Pool

open ZcashSoloPool.JavaScript
open ZcashSoloPool.Stratum
open ZcashSoloPool.Transition
open ZcashSoloPool.WorkManager (Externals Job parsePositiveNumber)

/-- `maxPreAuthMessages`. -/
def maxPreAuthMessages : Nat :=
  10

/-- A request: `params && params[0]` with the finite number it converts to, and
`params || []`. -/
structure Request where
  id : Value
  method : Value
  first : Value
  suggested : Option ℚ
  params : Params
  deriving DecidableEq, Repr

/-- The reasons for which the server closes a connection itself. -/
inductive Reason where
  | bufferOverflow
  | preauthFlood
  | malformedJson
  deriving DecidableEq, Repr

/-- What the server keeps of a client for its requests: the connection, the
counters, and what was closed, banned, handled and passed on. -/
structure Session where
  peer : Peer
  badJsonCount : Nat
  preAuthMessages : Nat
  submits : Nat
  closings : List Reason
  bans : List Reason
  requests : List Request
  submissions : List (Value × ParsedSubmit)

/-- The server, as far as one client depends on it: its settings, `JSON.parse`
with the members that are read, and what the n-th request finds: the last job
and the length of the unsent data at each of its writes. -/
structure StratumServer where
  clientId : Nat
  zip301 : Bool
  delivery : DeliverySettings
  banOnBadJson : Bool
  maxBadJsonBeforeClose : Nat
  submitAudit : Bool
  parse : Text → Option Request
  hostile : Nat → Bool
  lastJob : Nat → Option Job
  writableLength : Nat → Nat → Nat

namespace Session

/-- A new connection. -/
def connected : Session where
  peer := .connected
  badJsonCount := 0
  preAuthMessages := 0
  submits := 0
  closings := []
  bans := []
  requests := []
  submissions := []

/-- Close the connection, with a ban or without. -/
def close (session : Session) (reason : Reason) (ban : Bool) : Session :=
  { session with
    peer := session.peer.destroy
    closings := session.closings ++ [reason]
    bans := if ban then session.bans ++ [reason] else session.bans }

/-- Write a message. -/
def send (session : Session) (message : Message) (writableLength : Nat) : Session :=
  { session with peer := session.peer.send message writableLength }

/-! ## The methods -/

/-- `mining.suggest_difficulty`.  The new difficulty is sent to an authorized
client before the reply. -/
def suggestDifficulty (server : StratumServer) (request : Request) (writableLength : Nat → Nat)
    (session : Session) : Session × Bool :=
  if request.first.throwsOn server.hostile then (session, true)
  else
    let applied := (parsePositiveNumber request.suggested).isSome && session.peer.authorized
    let told := if applied then session.send .setDifficulty (writableLength 0) else session
    let targeted :=
      if applied && server.delivery.useSetTarget then told.send .setTarget (writableLength 1)
      else told
    (targeted.send .response (writableLength 2), false)

/-- The name that `mining.authorize` gives, before it is cleaned. -/
def rawName (server : StratumServer) (first : Value) (workerName : Option CodeUnits) : CodeUnits :=
  if first.truthy then codeUnits first.toText
  else chooseName workerName server.clientId none

/-- The messages of an authorisation. -/
def welcome (server : StratumServer) (lastJob : Option Job) (writableLength : Nat → Nat)
    (session : Session) : Session :=
  let answered :=
    (session.send .response (writableLength 0)).send .setDifficulty (writableLength 1)
  let targeted :=
    if server.delivery.useSetTarget then answered.send .setTarget (writableLength 2)
    else answered
  { targeted with peer := targeted.peer.sendLastJob lastJob (writableLength 3) }

/-- `mining.authorize`.  The client is authorized even where its name throws. -/
def authorize (server : StratumServer) (request : Request) (lastJob : Option Job)
    (writableLength : Nat → Nat) (session : Session) : Session × Bool :=
  let authorized := { session with peer := { session.peer with authorized := true } }
  if request.first.truthy && request.first.throwsOn server.hostile then (authorized, true)
  else
    let name := sanitizeWorkerName (rawName server request.first session.peer.workerName)
    let named := { authorized with peer := { authorized.peer with workerName := some name } }
    (named.welcome server lastJob writableLength, false)

/-- A submission is counted. -/
def countSubmit (session : Session) : Session :=
  { session with submits := session.submits + 1 }

/-- The worker of a submission names the client. -/
def nameWorker (session : Session) (worker : Value) : Session :=
  if worker.truthy then
    { session with peer := { session.peer with
        workerName := some (sanitizeWorkerName (codeUnits worker.toText)) } }
  else session

/-- `mining.submit`.  The line of the audit may throw where the parameters are no
array. -/
def submit (server : StratumServer) (request : Request) (writableLength : Nat → Nat)
    (session : Session) : Session × Bool :=
  if !session.peer.authorized then (session.send .response (writableLength 0), false)
  else
    match parseSubmit? server.hostile request.params.values? with
    | none => (session, true)
    | some parsed =>
        if parsed.worker.truthy && parsed.worker.throwsOn server.hostile then
          (session.countSubmit, true)
        else
          let named := session.countSubmit.nameWorker parsed.worker
          if server.submitAudit && request.params.lengthThrows server.hostile then (named, true)
          else ({ named with submissions := named.submissions ++ [(request.id, parsed)] }, false)

end Session

/-- The request calls the method. -/
def Request.calls (request : Request) (method : String) : Bool :=
  request.method = .string method.toList

/-- `handleRequest`, and whether it throws. -/
def handleRequest (server : StratumServer) (session : Session) (request : Request) :
    Session × Bool :=
  let lastJob := server.lastJob session.requests.length
  let writableLength := server.writableLength session.requests.length
  let heard := { session with requests := session.requests ++ [request] }
  let answered := heard.send .response (writableLength 0)
  if request.calls "mining.configure" then (answered, false)
  else if request.calls "mining.subscribe" then
    (if server.zip301 then answered else answered.send .setDifficulty (writableLength 1), false)
  else if request.calls "mining.extranonce.subscribe" then (answered, false)
  else if request.calls "mining.suggest_difficulty" then
    heard.suggestDifficulty server request writableLength
  else if request.calls "mining.authorize" then
    heard.authorize server request lastJob writableLength
  else if request.calls "mining.submit" then heard.submit server request writableLength
  else if request.method.truthy && request.method.throwsOn server.hostile then (heard, true)
  else (answered, false)

/-- The line has nothing but white space. -/
def isBlank (line : Text) : Bool :=
  (trim line).isEmpty

/-- The message is counted before the authorisation. -/
def countMessage (session : Session) : Session :=
  if session.peer.authorized then session
  else { session with preAuthMessages := session.preAuthMessages + 1 }

/-- `JSON.parse` and `handleRequest`; what throws counts as malformed. -/
def handleMessage (server : StratumServer) (session : Session) (trimmed : Text) : Session × Bool :=
  match server.parse trimmed with
  | some request => handleRequest server session request
  | none => (session, true)

/-- The body of the loop over the lines; `true` is its `return`. -/
def handleLine (server : StratumServer) (session : Session) (line : Text) : Session × Bool :=
  if isBlank line then (session, false)
  else
    let counted := countMessage session
    if !session.peer.authorized && decide (counted.preAuthMessages > maxPreAuthMessages) then
      (counted.close .preauthFlood server.banOnBadJson, true)
    else
      let handled := handleMessage server counted (trim line)
      if handled.2 then
        let bad := { handled.1 with badJsonCount := handled.1.badJsonCount + 1 }
        if bad.badJsonCount ≥ server.maxBadJsonBeforeClose then
          (bad.close .malformedJson (server.banOnBadJson && !bad.peer.authorized), true)
        else (bad, false)
      else (handled.1, false)

/-! ## What a request leaves alone -/

theorem send_of_destroyed {peer : Peer} (destroyed : peer.destroyed = true) (message : Message)
    (writableLength : Nat) : peer.send message writableLength = peer :=
  if_pos destroyed

theorem sendLastJob_of_destroyed {peer : Peer} (destroyed : peer.destroyed = true)
    (lastJob : Option Job) (writableLength : Nat) :
    peer.sendLastJob lastJob writableLength = peer := by
  cases lastJob with
  | none => rfl
  | some job => exact send_of_destroyed destroyed _ _

/-- The log and the counters of the data handler are as before, and a destroyed
socket stays destroyed. -/
structure Keeps (session after : Session) : Prop where
  requests : after.requests = session.requests
  badJsonCount : after.badJsonCount = session.badJsonCount
  preAuthMessages : after.preAuthMessages = session.preAuthMessages
  closings : after.closings = session.closings
  bans : after.bans = session.bans
  destroyed : session.peer.destroyed = true → after.peer.destroyed = true

namespace Keeps

variable {session after : Session}

theorem refl (session : Session) : Keeps session session :=
  ⟨rfl, rfl, rfl, rfl, rfl, id⟩

theorem send (keeps : Keeps session after) (message : Message) (writableLength : Nat) :
    Keeps session (after.send message writableLength) := by
  refine ⟨keeps.requests, keeps.badJsonCount, keeps.preAuthMessages, keeps.closings, keeps.bans,
    fun destroyed => ?_⟩
  have stays := keeps.destroyed destroyed
  rw [Session.send, send_of_destroyed stays]
  exact stays

theorem sendLastJob (keeps : Keeps session after) (lastJob : Option Job) (writableLength : Nat) :
    Keeps session { after with peer := after.peer.sendLastJob lastJob writableLength } := by
  refine ⟨keeps.requests, keeps.badJsonCount, keeps.preAuthMessages, keeps.closings, keeps.bans,
    fun destroyed => ?_⟩
  have stays := keeps.destroyed destroyed
  rw [sendLastJob_of_destroyed stays]
  exact stays

theorem suggestDifficulty (server : StratumServer) (request : Request)
    (writableLength : Nat → Nat) (session : Session) :
    Keeps session (session.suggestDifficulty server request writableLength).1 := by
  unfold Session.suggestDifficulty
  split
  · exact refl session
  · refine send ?_ _ _
    split
    · refine send ?_ _ _
      split
      · exact (refl session).send _ _
      · exact refl session
    · split
      · exact (refl session).send _ _
      · exact refl session

theorem welcome (keeps : Keeps session after) (server : StratumServer) (lastJob : Option Job)
    (writableLength : Nat → Nat) : Keeps session (after.welcome server lastJob writableLength) := by
  have answered := (keeps.send .response (writableLength 0)).send .setDifficulty (writableLength 1)
  refine sendLastJob ?_ _ _
  split
  · exact answered.send _ _
  · exact answered

theorem authorize (server : StratumServer) (request : Request) (lastJob : Option Job)
    (writableLength : Nat → Nat) (session : Session) :
    Keeps session (session.authorize server request lastJob writableLength).1 := by
  unfold Session.authorize
  split
  · exact ⟨rfl, rfl, rfl, rfl, rfl, id⟩
  · refine welcome ?_ server lastJob writableLength
    exact ⟨rfl, rfl, rfl, rfl, rfl, id⟩

theorem nameWorker (keeps : Keeps session after) (worker : Value) :
    Keeps session (after.nameWorker worker) := by
  unfold Session.nameWorker
  split
  · exact ⟨keeps.requests, keeps.badJsonCount, keeps.preAuthMessages, keeps.closings, keeps.bans,
      keeps.destroyed⟩
  · exact keeps

theorem submit (server : StratumServer) (request : Request) (writableLength : Nat → Nat)
    (session : Session) : Keeps session (session.submit server request writableLength).1 := by
  unfold Session.submit
  split
  · exact (refl session).send _ _
  · split
    · exact refl session
    · next parsed _ =>
        have counted : Keeps session session.countSubmit := ⟨rfl, rfl, rfl, rfl, rfl, id⟩
        have named := counted.nameWorker parsed.worker
        dsimp only
        split
        · exact counted
        · split
          · exact named
          · exact ⟨named.requests, named.badJsonCount, named.preAuthMessages, named.closings,
              named.bans, named.destroyed⟩

end Keeps

/-- A request is logged and changes no counter of the data handler. -/
theorem keeps_handleRequest (server : StratumServer) (session : Session) (request : Request) :
    Keeps { session with requests := session.requests ++ [request] }
      (handleRequest server session request).1 := by
  have heard := Keeps.refl { session with requests := session.requests ++ [request] }
  unfold handleRequest
  dsimp only
  split
  · exact heard.send _ _
  · split
    · split
      · exact heard.send _ _
      · exact (heard.send _ _).send _ _
    · split
      · exact heard.send _ _
      · split
        · exact .suggestDifficulty server request _ _
        · split
          · exact .authorize server request _ _ _
          · split
            · exact .submit server request _ _
            · split
              · exact heard
              · exact heard.send _ _

/-! ## What a line changes -/

/-- What the data handler has counted. -/
def effort (session : Session) : Nat :=
  session.preAuthMessages + session.requests.length + session.badJsonCount

/-- What the message of a line changes before it is judged. -/
structure Answers (session after : Session) (threw : Bool) : Prop where
  closings : after.closings = session.closings
  bans : after.bans = session.bans
  destroyed : session.peer.destroyed = true → after.peer.destroyed = true
  /-- What is not logged has thrown. -/
  progress : effort session < effort after ∨ threw = true ∧ effort session ≤ effort after

theorem Keeps.answers {session after : Session} {request : Request}
    (keeps : Keeps { session with requests := session.requests ++ [request] } after)
    (threw : Bool) : Answers session after threw := by
  refine ⟨keeps.closings, keeps.bans, keeps.destroyed, Or.inl ?_⟩
  rw [effort, effort, keeps.requests, keeps.preAuthMessages, keeps.badJsonCount,
    List.length_append, List.length_singleton]
  dsimp only
  omega

theorem answers_handleMessage (server : StratumServer) (session : Session) (trimmed : Text) :
    Answers session (handleMessage server session trimmed).1
      (handleMessage server session trimmed).2 := by
  unfold handleMessage
  split
  · next request _ => exact (keeps_handleRequest server session request).answers _
  · exact ⟨rfl, rfl, id, Or.inr ⟨rfl, Nat.le_refl _⟩⟩

theorem answers_countMessage (session : Session) : Answers session (countMessage session) true := by
  unfold countMessage
  split
  · exact ⟨rfl, rfl, id, Or.inr ⟨rfl, Nat.le_refl _⟩⟩
  · refine ⟨rfl, rfl, id, Or.inr ⟨rfl, ?_⟩⟩
    rw [effort, effort]
    exact Nat.add_le_add_right (Nat.add_le_add_right (Nat.le_succ _) _) _

theorem Answers.trans {first second third : Session} {threw : Bool}
    (before : Answers first second true) (after : Answers second third threw) :
    Answers first third threw := by
  refine ⟨after.closings.trans before.closings, after.bans.trans before.bans,
    fun destroyed => after.destroyed (before.destroyed destroyed), ?_⟩
  have grows : effort first ≤ effort second := before.progress.elim Nat.le_of_lt And.right
  exact after.progress.imp grows.trans_lt (And.imp_right grows.trans)

/-- What a line that is not blank changes. -/
structure Handles (session after : Session) (left : Bool) : Prop where
  progress : effort session < effort after
  destroyed : session.peer.destroyed = true ∨ left = true → after.peer.destroyed = true
  /-- No line is punished for what the buffer holds. -/
  overflow : (.bufferOverflow ∈ after.closings ↔ .bufferOverflow ∈ session.closings) ∧
    (.bufferOverflow ∈ after.bans ↔ .bufferOverflow ∈ session.bans)

theorem Answers.close {session after : Session} (answers : Answers session after false)
    {reason : Reason} (other : reason ≠ .bufferOverflow) (ban : Bool) :
    Handles session (after.close reason ban) true := by
  have progress : effort session < effort (after.close reason ban) :=
    answers.progress.resolve_right fun threw => Bool.false_ne_true threw.1
  refine ⟨progress, fun _ => rfl, ?_, ?_⟩
  · simp [Session.close, answers.closings, other.symm]
  · cases ban <;> simp [Session.close, answers.bans, other.symm]

theorem Answers.handles {session after : Session} (answers : Answers session after false) :
    Handles session after false := by
  refine ⟨answers.progress.resolve_right fun threw => Bool.false_ne_true threw.1, ?_, ?_, ?_⟩
  · exact fun destroyed => answers.destroyed (destroyed.resolve_right Bool.false_ne_true)
  · rw [answers.closings]
  · rw [answers.bans]

/-- A malformed message is counted. -/
theorem Answers.bad {session after : Session} {threw : Bool}
    (answers : Answers session after threw) :
    Answers session { after with badJsonCount := after.badJsonCount + 1 } false := by
  refine ⟨answers.closings, answers.bans, answers.destroyed, Or.inl ?_⟩
  have grows : effort session ≤ effort after := answers.progress.elim Nat.le_of_lt And.right
  rw [effort] at grows ⊢
  rw [effort] at grows ⊢
  dsimp only
  omega

theorem handleLine_of_isBlank (server : StratumServer) (session : Session) {line : Text}
    (blank : isBlank line = true) : handleLine server session line = (session, false) :=
  if_pos blank

theorem handles_handleLine (server : StratumServer) (session : Session) {line : Text}
    (counts : isBlank line = false) :
    Handles session (handleLine server session line).1 (handleLine server session line).2 := by
  have counted := answers_countMessage session
  have handled := counted.trans
    (answers_handleMessage server (countMessage session) (trim line))
  unfold handleLine
  rw [if_neg (Bool.eq_false_iff.mp counts)]
  dsimp only
  split
  · next flood =>
      rw [Bool.and_eq_true, Bool.not_eq_true'] at flood
      refine Answers.close ⟨counted.closings, counted.bans, counted.destroyed, Or.inl ?_⟩
        (by decide) _
      rw [countMessage, flood.1, if_neg Bool.false_ne_true, effort, effort]
      dsimp only
      omega
  · split
    · split
      · exact handled.bad.close (by decide) _
      · exact handled.bad.handles
    · next quiet =>
        rw [Bool.not_eq_true] at quiet
        rw [quiet] at handled
        exact handled.handles

/-! ## The miner of a session -/

/-- The miner and the session are the same client. -/
structure SameClient (miner : Miner) (session : Session) : Prop where
  authorized : miner.authorized = session.peer.authorized
  workerName : miner.workerName = session.peer.workerName
  submits : miner.metrics.submits = session.submits

theorem send_workerName (peer : Peer) (message : Message) (writableLength : Nat) :
    (peer.send message writableLength).workerName = peer.workerName := by
  unfold Peer.send
  split
  · rfl
  · split <;> rfl

namespace SameClient

variable {miner : Miner} {session : Session}

/-- A write changes the socket only. -/
theorem send (same : SameClient miner session) (message : Message) (writableLength : Nat) :
    SameClient miner (session.send message writableLength) :=
  ⟨same.authorized.trans (Peer.send_authorized _ _ _).symm,
    same.workerName.trans (send_workerName _ _ _).symm, same.submits⟩

theorem sendLastJob (same : SameClient miner session) (lastJob : Option Job)
    (writableLength : Nat) :
    SameClient miner { session with peer := session.peer.sendLastJob lastJob writableLength } := by
  cases lastJob with
  | none => exact same
  | some job => exact same.send (.notify job) writableLength

theorem welcome (same : SameClient miner session) (server : StratumServer) (lastJob : Option Job)
    (writableLength : Nat → Nat) :
    SameClient miner (session.welcome server lastJob writableLength) := by
  have answered := (same.send .response (writableLength 0)).send .setDifficulty (writableLength 1)
  refine sendLastJob ?_ _ _
  split
  · exact answered.send _ _
  · exact answered

theorem suggestDifficulty (same : SameClient miner session) (server : StratumServer)
    (request : Request) (writableLength : Nat → Nat) :
    SameClient miner (session.suggestDifficulty server request writableLength).1 := by
  unfold Session.suggestDifficulty
  split
  · exact same
  · refine send ?_ _ _
    split
    · refine send ?_ _ _
      split
      · exact same.send _ _
      · exact same
    · split
      · exact same.send _ _
      · exact same

end SameClient

/-- The desk's authorization can give the name of the request.  It takes no empty
string, and a string of one control character is cleaned to the same. -/
theorem exists_user (server : StratumServer) (first : Value) (workerName : Option CodeUnits) :
    ∃ user, sanitizeWorkerName (chooseName workerName server.clientId user) =
      sanitizeWorkerName (Session.rawName server first workerName) := by
  unfold Session.rawName
  split
  · by_cases nonempty : codeUnits first.toText = []
    · exact ⟨some [1], by rw [nonempty]; rfl⟩
    · exact ⟨some (codeUnits first.toText), congrArg _ (if_pos nonempty)⟩
  · exact ⟨none, rfl⟩

variable {deps : Externals} {config : DeskConfig} {server : StratumServer} {desk : Desk}
  {client : Nat} {miner : Miner} {session : Session}

/-- Some events take the desk to a state whose miner is the client of the
session. -/
def Reaches (deps : Externals) (config : DeskConfig) (server : StratumServer)
    (desk : Desk) (client : Nat) (session : Session) : Prop :=
  ∃ events target after, run (Desk.next deps server.hostile config) desk events = some target ∧
    target.miners[client]? = some after ∧ SameClient after session

theorem SameClient.reaches (same : SameClient miner session)
    (present : desk.miners[client]? = some miner) :
    Reaches deps config server desk client session :=
  ⟨[], desk, miner, rfl, present, same⟩

/-- An event that changes the miner. -/
theorem SameClient.reaches_withMiner {change : Miner → Miner}
    (same : SameClient (change miner) session) (present : desk.miners[client]? = some miner)
    (event : DeskEvent)
    (step : Desk.next deps server.hostile config desk event = desk.withMiner client change) :
    Reaches deps config server desk client session := by
  have bound := (List.getElem?_eq_some_iff.mp present).1
  refine ⟨[event], { desk with miners := desk.miners.set client (change miner) }, change miner, ?_,
    List.getElem?_set_self bound, same⟩
  rw [run_cons, step, Desk.withMiner, present]
  rfl

theorem SameClient.reaches_authorize (same : SameClient miner session)
    (present : desk.miners[client]? = some miner) (number : server.clientId = client + 1)
    (request : Request) (lastJob : Option Job) (writableLength : Nat → Nat) :
    Reaches deps config server desk client
      (session.authorize server request lastJob writableLength).1 := by
  unfold Session.authorize
  split
  · have authorized : SameClient { miner with authorized := true }
        { session with peer := { session.peer with authorized := true } } :=
      ⟨rfl, same.workerName, same.submits⟩
    exact authorized.reaches_withMiner present (.authorizeThrows client) rfl
  · obtain ⟨user, cleaned⟩ := exists_user server request.first session.peer.workerName
    have named : SameClient (Miner.authorize (client + 1) user miner)
        { session with peer := { session.peer with
            authorized := true
            workerName := some (sanitizeWorkerName
              (Session.rawName server request.first session.peer.workerName)) } } := by
      refine ⟨rfl, ?_, same.submits⟩
      rw [Miner.authorize, same.workerName, ← number, cleaned]
    exact (named.welcome server lastJob writableLength).reaches_withMiner present
      (.authorize client user) rfl

theorem SameClient.nameWorker (same : SameClient miner session) (worker : Value) :
    SameClient (Desk.nameWorker worker miner) (session.nameWorker worker) := by
  unfold Session.nameWorker Desk.nameWorker
  split
  · exact ⟨same.authorized, rfl, same.submits⟩
  · exact same

/-- What is no array has no worker. -/
theorem worker_of_lengthThrows {hostile : Nat → Bool} {params : Params}
    (throws : params.lengthThrows hostile = true) :
    (parseSubmit params.values?).worker = .null := by
  cases params with
  | array values => contradiction
  | other length => rfl

/-- A submission counts and names the same in both, whether or not either keeps an
audit. -/
theorem SameClient.submit (same : SameClient miner session)
    (present : desk.miners[client]? = some miner) (request : Request)
    (writableLength : Nat → Nat) (now : Instant) :
    ∃ after, (desk.submit deps server.hostile config client miner request.id request.params
        now).miners[client]? = some after ∧
      SameClient after (session.submit server request writableLength).1 := by
  have bound := (List.getElem?_eq_some_iff.mp present).1
  have counted : SameClient (Desk.countSubmit miner) session.countSubmit :=
    ⟨same.authorized, same.workerName, congrArg (· + 1) same.submits⟩
  have named := counted.nameWorker (parseSubmit request.params.values?).worker
  unfold Session.submit Desk.submit parseSubmit?
  rw [handleSubmit, ← same.authorized]
  cases authorized : miner.authorized with
  | false => exact ⟨miner, present, same.send _ _⟩
  | true =>
      rw [if_pos rfl, if_neg (by decide)]
      dsimp only
      cases (jobIdParam request.params.values?).throwsOn server.hostile with
      | true => exact ⟨miner, present, same⟩
      | false =>
          rw [if_neg Bool.false_ne_true, if_neg Bool.false_ne_true]
          dsimp only
          cases ((parseSubmit request.params.values?).worker.truthy &&
              (parseSubmit request.params.values?).worker.throwsOn server.hostile) with
          | true => exact ⟨_, List.getElem?_set_self bound, counted⟩
          | false =>
              rw [Bool.false_or, if_neg Bool.false_ne_true]
              cases throws : request.params.lengthThrows server.hostile with
              | false =>
                  rw [Bool.and_false, Bool.and_false, if_neg Bool.false_ne_true,
                    if_neg Bool.false_ne_true]
                  exact ⟨_, List.getElem?_set_self bound,
                    ⟨named.authorized, named.workerName, named.submits⟩⟩
              | true =>
                  rw [worker_of_lengthThrows throws] at named ⊢
                  refine ⟨Desk.countSubmit miner, ?_, ?_⟩
                  · split <;> exact List.getElem?_set_self bound
                  · split <;> exact ⟨counted.authorized, counted.workerName, counted.submits⟩

theorem SameClient.reaches_submit (same : SameClient miner session)
    (present : desk.miners[client]? = some miner) (request : Request)
    (writableLength : Nat → Nat) :
    Reaches deps config server desk client (session.submit server request writableLength).1 := by
  let now : Instant := ⟨1, Nat.one_ne_zero⟩
  obtain ⟨after, found, sameAfter⟩ := same.submit present request writableLength now
  refine ⟨[.submit client request.id request.params now], _, after, ?_, found, sameAfter⟩
  rw [run_cons, Desk.next, present]
  rfl

/-- What a request does to the session, the events of the desk can do to its
miner. -/
theorem SameClient.reaches_handleRequest (same : SameClient miner session)
    (present : desk.miners[client]? = some miner) (number : server.clientId = client + 1)
    (request : Request) :
    Reaches deps config server desk client (handleRequest server session request).1 := by
  have heard : SameClient miner { session with requests := session.requests ++ [request] } :=
    ⟨same.authorized, same.workerName, same.submits⟩
  unfold handleRequest
  dsimp only
  split
  · exact (heard.send _ _).reaches present
  · split
    · split
      · exact (heard.send _ _).reaches present
      · exact ((heard.send _ _).send _ _).reaches present
    · split
      · exact (heard.send _ _).reaches present
      · split
        · exact (heard.suggestDifficulty server request _).reaches present
        · split
          · exact heard.reaches_authorize present number request _ _
          · split
            · exact heard.reaches_submit present request _
            · split
              · exact heard.reaches present
              · exact (heard.send _ _).reaches present

/-- What is reached can be gone on from. -/
theorem Reaches.trans {next : Session} (reaches : Reaches deps config server desk client session)
    (goesOn : ∀ (target : Desk) (after : Miner), target.miners[client]? = some after →
      SameClient after session → Reaches deps config server target client next) :
    Reaches deps config server desk client next := by
  obtain ⟨events, middle, after, reached, found, same⟩ := reaches
  obtain ⟨later, target, last, reachedLater, foundLater, sameLater⟩ :=
    goesOn middle after found same
  refine ⟨events ++ later, target, last, ?_, foundLater, sameLater⟩
  rw [run_append, reached, Option.bind_some, reachedLater]

/-- Sessions that are the same client. -/
theorem Reaches.mono {next : Session} (reaches : Reaches deps config server desk client session)
    (same : ∀ miner, SameClient miner session → SameClient miner next) :
    Reaches deps config server desk client next := by
  obtain ⟨events, target, after, reached, found, sameAfter⟩ := reaches
  exact ⟨events, target, after, reached, found, same after sameAfter⟩

theorem SameClient.close (same : SameClient miner session) (reason : Reason) (ban : Bool) :
    SameClient miner (session.close reason ban) :=
  ⟨same.authorized, same.workerName, same.submits⟩

theorem SameClient.countMessage (same : SameClient miner session) :
    SameClient miner (countMessage session) := by
  unfold Pool.countMessage
  split
  · exact same
  · exact ⟨same.authorized, same.workerName, same.submits⟩

/-- So it is for every line. -/
theorem Reaches.handleLine (reaches : Reaches deps config server desk client session)
    (number : server.clientId = client + 1) (line : Text) :
    Reaches deps config server desk client (handleLine server session line).1 := by
  have counted := reaches.mono fun _ same => same.countMessage
  have handled : Reaches deps config server desk client
      (handleMessage server (countMessage session) (trim line)).1 := by
    unfold handleMessage
    split
    · next request _ =>
        exact counted.trans fun target after found same =>
          same.reaches_handleRequest found number request
    · exact counted
  have bad := handled.mono fun miner same =>
    show SameClient miner { (handleMessage server (countMessage session) (trim line)).1 with
      badJsonCount := (handleMessage server (countMessage session) (trim line)).1.badJsonCount + 1 }
    from ⟨same.authorized, same.workerName, same.submits⟩
  unfold Pool.handleLine
  split
  · exact reaches
  · dsimp only
    split
    · exact counted.mono fun _ same => same.close _ _
    · split
      · split
        · exact bad.mono fun _ same => same.close _ _
        · exact bad
      · exact handled

end ZcashSoloPool.Pool
