import ZcashSoloPool.JavaScript.CodeUnits
import ZcashSoloPool.Stratum.Messages

/-!
# Delivery of jobs to miners

What the stratum server writes to a connection.  A write to a destroyed socket
does nothing, and a write that finds too much unsent data destroys the socket;
how much is unsent depends on the network and is told to each write.
-/

namespace ZcashSoloPool.Stratum

open ZcashSoloPool.JavaScript
open ZcashSoloPool.WorkManager

/-- `maxBufferBytes`. -/
def maxBufferBytes : Nat :=
  16 * 1024

/-- `maxWorkerNameLength`. -/
def maxWorkerNameLength : Nat :=
  128

/-- The worker name without control characters, cut to its maximal length. -/
def sanitizeWorkerName (rawName : CodeUnits) : CodeUnits :=
  (stripControls rawName).take maxWorkerNameLength

/-- The name of a miner without one. -/
def minerLabel (clientId : Nat) : Text :=
  "miner-".toList ++ Nat.toDigits 10 clientId

/-- The name that an authorisation gives: the user, or the name the client
already has, or one made from its number; an empty string does not count. -/
def chooseName (workerName : Option CodeUnits) (clientId : Nat) (user : Option CodeUnits) :
    CodeUnits :=
  if user.getD [] ≠ [] then user.getD []
  else if workerName.getD [] ≠ [] then workerName.getD []
  else codeUnits (minerLabel clientId)

/-! ## Messages and connections -/

/-- A message to a miner.  Of a `mining.notify` only the job matters here. -/
inductive Message where
  | response
  | setDifficulty
  | setTarget
  | notify (job : Job)

/-- The job of a `mining.notify`. -/
def Message.job? : Message → Option Job
  | .notify job => some job
  | _ => none

/-- A client of the server with everything that was written to its socket.  It
is listed until its connection is cleaned up. -/
structure Peer where
  authorized : Bool
  workerName : Option CodeUnits
  listed : Bool
  destroyed : Bool
  sent : List Message

/-- The two settings that decide what follows an authorisation. -/
structure DeliverySettings where
  useSetTarget : Bool
  jobResendDelayMs : Nat

namespace Peer

/-- A new connection. -/
def connected : Peer where
  authorized := false
  workerName := none
  listed := true
  destroyed := false
  sent := []

/-- The jobs the client was notified of, oldest first. -/
def notified (peer : Peer) : List Job :=
  peer.sent.filterMap Message.job?

/-- `send`, with the length of the unsent data. -/
def send (peer : Peer) (message : Message) (writableLength : Nat) : Peer :=
  if peer.destroyed then peer
  else if writableLength > maxBufferBytes then { peer with destroyed := true }
  else { peer with sent := peer.sent ++ [message] }

/-- `sendJob` of the last job, if there is one. -/
def sendLastJob (peer : Peer) (lastJob : Option Job) (writableLength : Nat) : Peer :=
  match lastJob with
  | some job => peer.send (.notify job) writableLength
  | none => peer

/-- `mining.authorize`: the name, the three or four messages.  The lengths are
those found by one write after the other. -/
def authorize (settings : DeliverySettings) (lastJob : Option Job) (clientId : Nat)
    (user : Option CodeUnits) (writableLength : Nat → Nat) (peer : Peer) : Peer :=
  let named := { peer with
    authorized := true
    workerName := some (sanitizeWorkerName (chooseName peer.workerName clientId user)) }
  let answered := (named.send .response (writableLength 0)).send .setDifficulty (writableLength 1)
  let targeted :=
    if settings.useSetTarget then answered.send .setTarget (writableLength 2) else answered
  targeted.sendLastJob lastJob (writableLength 3)

/-- The delayed resend of the last job. -/
def resend (lastJob : Option Job) (writableLength : Nat) (peer : Peer) : Peer :=
  if !peer.authorized || peer.destroyed then peer else peer.sendLastJob lastJob writableLength

/-- What `broadcastJob` does for one client. -/
def receiveBroadcast (job : Job) (writableLength : Nat) (peer : Peer) : Peer :=
  if !peer.listed || !peer.authorized || peer.destroyed then peer
  else peer.send (.notify job) writableLength

/-- `cleanup`: the client is deleted from the map. -/
def cleanup (peer : Peer) : Peer :=
  { peer with listed := false }

/-- `socket.destroy()`. -/
def destroy (peer : Peer) : Peer :=
  { peer with destroyed := true }

/-! ## What a write changes -/

@[simp]
theorem send_authorized (peer : Peer) (message : Message) (writableLength : Nat) :
    (peer.send message writableLength).authorized = peer.authorized := by
  unfold send
  split
  · rfl
  · split <;> rfl

@[simp]
theorem send_listed (peer : Peer) (message : Message) (writableLength : Nat) :
    (peer.send message writableLength).listed = peer.listed := by
  unfold send
  split
  · rfl
  · split <;> rfl

/-- A write destroys the socket or was made; a destroyed socket gets nothing. -/
theorem notified_send (peer : Peer) (message : Message) (writableLength : Nat) :
    (peer.send message writableLength).notified = peer.notified ∧
        (peer.send message writableLength).destroyed = true ∨
      (peer.send message writableLength).notified = peer.notified ++ message.job?.toList ∧
        peer.destroyed = false := by
  unfold send
  split
  · next dead => exact Or.inl ⟨rfl, dead⟩
  · next alive =>
      split
      · exact Or.inl ⟨rfl, rfl⟩
      · refine Or.inr ⟨?_, Bool.eq_false_iff.mpr alive⟩
        cases message <;> simp [notified, Message.job?]

@[simp]
theorem sendLastJob_authorized (peer : Peer) (lastJob : Option Job) (writableLength : Nat) :
    (peer.sendLastJob lastJob writableLength).authorized = peer.authorized := by
  cases lastJob <;> simp [sendLastJob]

/-! ## Clients that are up to date -/

/-- The job is not newer than the last one. -/
def NotNewer (lastJob : Option Job) (old : Job) : Prop :=
  ∃ job, lastJob = some job ∧ hexNumber old.jobId ≤ hexNumber job.jobId

/-- The ids of the jobs sent to the client do not go backwards, and none is
newer than that of the last job. -/
structure InOrder (lastJob : Option Job) (peer : Peer) : Prop where
  ordered : peer.notified.Pairwise fun earlier later =>
    hexNumber earlier.jobId ≤ hexNumber later.jobId
  bounded : ∀ old ∈ peer.notified, NotNewer lastJob old

/-- The client was notified of the job last, unless its socket is gone. -/
def Knows (job : Job) (peer : Peer) : Prop :=
  peer.destroyed = false → peer.notified.getLast? = some job

/-- A client in service was notified of the last job last. -/
structure UpToDate (lastJob : Option Job) (peer : Peer) : Prop where
  inOrder : InOrder lastJob peer
  latest : ∀ job, lastJob = some job → peer.listed = true → peer.authorized = true → Knows job peer

theorem upToDate_connected (lastJob : Option Job) : UpToDate lastJob connected where
  inOrder := ⟨List.Pairwise.nil, fun _ member => absurd member List.not_mem_nil⟩
  latest := fun _ _ _ unauthorized => nomatch unauthorized

/-- A message that is no notify, or a notify of the last job. -/
def Message.Current (lastJob : Option Job) (message : Message) : Prop :=
  ∀ job, message.job? = some job → lastJob = some job

theorem InOrder.send {lastJob : Option Job} {peer : Peer} (inOrder : InOrder lastJob peer)
    {message : Message} (current : Message.Current lastJob message) (writableLength : Nat) :
    InOrder lastJob (peer.send message writableLength) := by
  rcases notified_send peer message writableLength with ⟨same, _⟩ | ⟨added, _⟩
  · exact ⟨same ▸ inOrder.ordered, same ▸ inOrder.bounded⟩
  · cases jobEq : message.job? with
    | none =>
        have same : (peer.send message writableLength).notified = peer.notified := by
          rw [added, jobEq, Option.toList_none, List.append_nil]
        exact ⟨same ▸ inOrder.ordered, same ▸ inOrder.bounded⟩
    | some job =>
        have isLast := current job jobEq
        rw [jobEq, Option.toList_some] at added
        refine ⟨?_, fun old member => ?_⟩
        · rw [added, List.pairwise_append]
          refine ⟨inOrder.ordered, List.pairwise_singleton _ _, fun old member new newMember => ?_⟩
          rw [List.mem_singleton.mp newMember]
          rcases inOrder.bounded old member with ⟨last, lastEq, notNewer⟩
          rw [isLast] at lastEq
          cases lastEq
          exact notNewer
        · rw [added] at member
          rcases List.mem_append.mp member with earlier | new
          · exact inOrder.bounded old earlier
          · rw [List.mem_singleton.mp new]
            exact ⟨job, isLast, Nat.le_refl _⟩

theorem knows_send_notify (peer : Peer) (job : Job) (writableLength : Nat) :
    Knows job (peer.send (.notify job) writableLength) := by
  intro alive
  rcases notified_send peer (.notify job) writableLength with ⟨_, dead⟩ | ⟨added, _⟩
  · rw [dead] at alive
    contradiction
  · rw [added]
    simp [Message.job?]

theorem Knows.send {job : Job} {peer : Peer} (knows : Knows job peer) {message : Message}
    (other : message.job? = none) (writableLength : Nat) :
    Knows job (peer.send message writableLength) := by
  intro alive
  rcases notified_send peer message writableLength with ⟨_, dead⟩ | ⟨added, wasAlive⟩
  · rw [dead] at alive
    contradiction
  · rw [added, other, Option.toList_none, List.append_nil]
    exact knows wasAlive

theorem InOrder.sendLastJob {lastJob : Option Job} {peer : Peer} (inOrder : InOrder lastJob peer)
    (writableLength : Nat) : InOrder lastJob (peer.sendLastJob lastJob writableLength) := by
  cases lastJob with
  | none => exact inOrder
  | some job =>
      refine inOrder.send (fun other same => ?_) writableLength
      cases same
      rfl

theorem knows_sendLastJob (peer : Peer) {lastJob : Option Job} {job : Job}
    (isLast : lastJob = some job) (writableLength : Nat) :
    Knows job (peer.sendLastJob lastJob writableLength) := by
  rw [isLast]
  exact knows_send_notify peer job writableLength

/-! ## What keeps a client up to date -/

theorem UpToDate.send {lastJob : Option Job} {peer : Peer} (upToDate : UpToDate lastJob peer)
    {message : Message} (other : message.job? = none) (writableLength : Nat) :
    UpToDate lastJob (peer.send message writableLength) where
  inOrder := by
    refine upToDate.inOrder.send (fun job isJob => ?_) writableLength
    rw [other] at isJob
    contradiction
  latest := fun job isLast listed authorized => by
    rw [send_listed] at listed
    rw [send_authorized] at authorized
    exact (upToDate.latest job isLast listed authorized).send other writableLength

theorem UpToDate.authorize {lastJob : Option Job} {peer : Peer} (upToDate : UpToDate lastJob peer)
    (settings : DeliverySettings) (clientId : Nat) (user : Option CodeUnits)
    (writableLength : Nat → Nat) :
    UpToDate lastJob (peer.authorize settings lastJob clientId user writableLength) := by
  have plain : ∀ message : Message, message.job? = none → Message.Current lastJob message := by
    intro message other job isJob
    rw [other] at isJob
    contradiction
  have named : InOrder lastJob { peer with
      authorized := true
      workerName := some (sanitizeWorkerName (chooseName peer.workerName clientId user)) } :=
    ⟨upToDate.inOrder.ordered, upToDate.inOrder.bounded⟩
  have answered := (named.send (plain .response rfl) (writableLength 0)).send
    (plain .setDifficulty rfl) (writableLength 1)
  refine ⟨?_, fun job isLast _ _ => knows_sendLastJob _ isLast _⟩
  refine InOrder.sendLastJob ?_ _
  split
  · exact answered.send (plain .setTarget rfl) (writableLength 2)
  · exact answered

theorem UpToDate.resend {lastJob : Option Job} {peer : Peer} (upToDate : UpToDate lastJob peer)
    (writableLength : Nat) : UpToDate lastJob (peer.resend lastJob writableLength) := by
  unfold Peer.resend
  split
  · exact upToDate
  · exact ⟨upToDate.inOrder.sendLastJob writableLength,
      fun job isLast _ _ => knows_sendLastJob peer isLast writableLength⟩

theorem UpToDate.cleanup {lastJob : Option Job} {peer : Peer} (upToDate : UpToDate lastJob peer) :
    UpToDate lastJob peer.cleanup where
  inOrder := ⟨upToDate.inOrder.ordered, upToDate.inOrder.bounded⟩
  latest := fun _ _ unlisted => nomatch unlisted

theorem UpToDate.destroy {lastJob : Option Job} {peer : Peer} (upToDate : UpToDate lastJob peer) :
    UpToDate lastJob peer.destroy where
  inOrder := ⟨upToDate.inOrder.ordered, upToDate.inOrder.bounded⟩
  latest := fun _ _ _ _ dead => nomatch dead

/-- A broadcast of a newer job brings a client up to date with it. -/
theorem UpToDate.receiveBroadcast {lastJob : Option Job} {peer : Peer}
    (upToDate : UpToDate lastJob peer) {job : Job}
    (newer : ∀ old, lastJob = some old → hexNumber old.jobId ≤ hexNumber job.jobId)
    (writableLength : Nat) : UpToDate (some job) (peer.receiveBroadcast job writableLength) := by
  have inOrder : InOrder (some job) peer := by
    refine ⟨upToDate.inOrder.ordered, fun old member => ⟨job, rfl, ?_⟩⟩
    rcases upToDate.inOrder.bounded old member with ⟨last, isLast, notNewer⟩
    exact notNewer.trans (newer last isLast)
  unfold Peer.receiveBroadcast
  split
  · next outOfService =>
      refine ⟨inOrder, fun other _ listed authorized alive => ?_⟩
      simp [listed, authorized, alive] at outOfService
  · refine ⟨inOrder.sendLastJob writableLength, fun other isLast _ _ => ?_⟩
    exact knows_sendLastJob peer isLast writableLength

end Peer

end ZcashSoloPool.Stratum
