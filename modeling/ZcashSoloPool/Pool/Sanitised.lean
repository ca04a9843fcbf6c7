import ZcashSoloPool.Pool.Agreement
import ZcashSoloPool.Pool.FoundBlocks
import ZcashSoloPool.Stratum.CleanText

/-!
# Sanitised text

Names of clients are bounded in every run.  Labels and lines are exactly where
the values that requests have shown are clean and no share is put down to a
worker in place of a name that was empty once cleaned.
-/

namespace ZcashSoloPool.Pool

open ZcashSoloPool.JavaScript
open ZcashSoloPool.Stratum
open ZcashSoloPool.Transition
open ZcashSoloPool.WorkManager (AcceptedShare Externals Job)

/-- No line is forged. -/
def CleanLines (numbers : NumberFormat) (lines : List Line) : Prop :=
  ∀ line ∈ lines, forged numbers line = false

theorem cleanLines_append {numbers : NumberFormat} {first second : List Line} :
    CleanLines numbers (first ++ second) ↔ CleanLines numbers first ∧ CleanLines numbers second :=
  List.forall_mem_append

theorem cleanLines_singleton {numbers : NumberFormat} {line : Line} :
    CleanLines numbers [line] ↔ forged numbers line = false :=
  List.forall_mem_singleton

theorem cleanLines_nil (numbers : NumberFormat) : CleanLines numbers [] := by
  intro line member
  contradiction

/-! ## The log of a channel -/

theorem forged_outboundLine (numbers : NumberFormat) (clientId : Nat) (message : Outbound) :
    forged numbers (outboundLine clientId message) = false ↔ message.forges numbers = false := by
  have parts : forged numbers (outboundLine clientId message) =
      (message.forges numbers || false) := rfl
  rw [parts, Bool.or_false]

/-- A message is logged where the socket is open, which it stays unless too much
is unsent. -/
theorem lines_send (settings : RequestSettings) (clientId : Nat) (miner : Miner)
    (message : Outbound) (backlog : Nat) (channel : Channel) :
    let after := channel.send settings clientId miner message backlog
    (CleanLines settings.numbers after.lines ↔ CleanLines settings.numbers channel.lines ∧
        (channel.socket.destroyed = false → settings.logOutbound = true →
          message.forges settings.numbers = false)) ∧
      (after.socket.destroyed = false ↔
        channel.socket.destroyed = false ∧ backlog ≤ maxBufferBytes) := by
  have own : forged settings.numbers (backlogLine clientId backlog) = false := rfl
  unfold Channel.send
  dsimp only
  cases isOpen : channel.socket.destroyed with
  | true =>
      rw [if_pos rfl]
      constructor
      · exact (and_iff_left fun impossible => by contradiction).symm
      · rw [isOpen]
        exact iff_of_false (by decide) fun both => absurd both.1 (by decide)
  | false =>
      rw [if_neg Bool.false_ne_true, imp_iff_right rfl]
      have logged : CleanLines settings.numbers (if settings.logOutbound then
          channel.lines ++ [outboundLine clientId message] else channel.lines) ↔
            CleanLines settings.numbers channel.lines ∧
              (settings.logOutbound = true → message.forges settings.numbers = false) := by
        split
        · next logs =>
            rw [cleanLines_append, cleanLines_singleton, forged_outboundLine, imp_iff_right logs]
        · next silent => exact (and_iff_left fun logs => absurd logs silent).symm
      split
      · next full =>
          constructor
          · rw [cleanLines_append, cleanLines_singleton, logged]
            exact and_iff_left own
          · apply iff_of_false
            · exact fun impossible => Bool.noConfusion impossible
            · exact fun both => absurd both.2 (not_le.mpr full)
      · next fits =>
          constructor
          · exact logged
          · exact iff_of_true rfl ⟨rfl, not_lt.mp fits⟩

/-- The lines stay clean exactly when the effects log cleanly. -/
theorem lines_performAll (settings : RequestSettings) (clientId : Nat) (miner : Miner)
    (effects : List Effect) (backlog : Nat → Nat) (channel : Channel) :
    CleanLines settings.numbers
        (Channel.performAll settings clientId miner effects backlog channel).lines ↔
      CleanLines settings.numbers channel.lines ∧
        LogsCleanly settings (channel.socket.destroyed = false) effects backlog := by
  induction effects generalizing backlog channel with
  | nil => exact (and_iff_left trivial).symm
  | cons effect rest ih =>
      rw [Channel.performAll, ih]
      cases effect with
      | log line =>
          rw [Channel.perform, LogsCleanly, ← and_assoc]
          dsimp only
          rw [cleanLines_append, cleanLines_singleton]
      | send message =>
          obtain ⟨lines, isOpen⟩ := lines_send settings clientId miner message (backlog 0) channel
          rw [Channel.perform, LogsCleanly, lines, propext isOpen, and_assoc]
      | submit id worker parsed => rfl
      | resendLater => rfl

/-! ## Labels -/

/-- What a share is put down to where the client has no name. -/
def fallback (handler : Handler) : Value :=
  handler.worker.or (.string (minerLabel (handler.client + 1)))

/-- The client has no name, or an empty one. -/
def Unnamed (miner : Miner) : Prop :=
  miner.workerName.getD [] = []

theorem label_of_unnamed {miner : Miner} (unnamed : Unnamed miner) (handler : Handler) :
    Desk.label handler miner = .value (fallback handler) :=
  if_neg (not_not_intro unnamed)

/-- A label is the client's name, which is bounded, or the fallback. -/
theorem label_cases {miner : Miner} (bounded : BoundedName miner) (handler : Handler) :
    (¬Unnamed miner ∧ ∃ units, Bounded units ∧ Desk.label handler miner = .name units) ∨
      (Unnamed miner ∧ Desk.label handler miner = .value (fallback handler)) := by
  by_cases unnamed : Unnamed miner
  · exact Or.inr ⟨unnamed, label_of_unnamed unnamed handler⟩
  · apply Or.inl
    cases isName : miner.workerName with
    | none =>
        unfold Unnamed at unnamed
        rw [isName] at unnamed
        exact absurd rfl unnamed
    | some units =>
        refine ⟨unnamed, units, bounded units isName, ?_⟩
        unfold Unnamed at unnamed
        unfold Desk.label workerLabel
        rw [if_pos unnamed, isName]
        rfl

/-- The label of a share is bounded unless the fallback is taken. -/
theorem bounded_label_iff {miner : Miner} (bounded : BoundedName miner) (handler : Handler) :
    (Desk.label handler miner).Bounded ↔
      (Unnamed miner → (WorkerLabel.value (fallback handler)).Bounded) := by
  rcases label_cases bounded handler with ⟨named, units, isBounded, label⟩ | ⟨unnamed, label⟩
  · rw [label]
    exact iff_of_true isBounded fun unnamed => absurd unnamed named
  · rw [label, imp_iff_right unnamed]

/-- The label of a share is clean in a line unless the fallback is taken. -/
theorem forges_label_iff {miner : Miner} (bounded : BoundedName miner) (handler : Handler)
    (numbers : NumberFormat) :
    (labelPiece (Desk.label handler miner)).forges numbers = false ↔
      (Unnamed miner → (fallback handler).toText.any isControlChar = false) := by
  rcases label_cases bounded handler with ⟨named, units, isBounded, label⟩ | ⟨unnamed, label⟩
  · rw [label]
    exact iff_of_true isBounded.2 fun unnamed => absurd unnamed named
  · rw [label, imp_iff_right unnamed, labelPiece, Piece.forges, any_codeUnits]

/-- A name among the labels of the calls is bounded. -/
def NamedCalls (calls : List BlockCall) : Prop :=
  ∀ call ∈ calls, ∀ units, call.worker = .name units → Bounded units

/-- A block leaves the history alone until its verdict. -/
theorem candidate_labels (config : LedgerConfig) (ledger : Ledger) (share : AcceptedShare)
    (worker : WorkerLabel) (minerId : Nat) (now : Instant) :
    let after := ledger.candidate config share worker minerId now
    after.blockHistory = ledger.blockHistory ∧
      ∀ call ∈ after.calls, call ∈ ledger.calls ∨ call.worker = worker := by
  rcases Ledger.candidate_eq config ledger share worker minerId now with ⟨_, same⟩ | ⟨_, same⟩
  · rw [same]
    exact ⟨rfl, fun call member => Or.inl member⟩
  · rw [same]
    have called : ∀ new : BlockCall, new.worker = worker →
        ∀ call ∈ ledger.calls ++ [new], call ∈ ledger.calls ∨ call.worker = worker := by
      intro new isWorker call member
      rcases List.mem_append.mp member with isOld | isNew
      · exact Or.inl isOld
      · rw [List.mem_singleton.mp isNew]
        exact Or.inr isWorker
    unfold Ledger.forward Ledger.submitBlockCandidate
    dsimp only
    split
    · exact ⟨rfl, called _ rfl⟩
    · exact ⟨rfl, called _ rfl⟩

/-! ## Names -/

theorem applyDifficulty_workerName (shares : ShareConfig) (miner : Miner) (difficulty : ℚ)
    (now : Nat) : (miner.applyDifficulty shares difficulty now).workerName = miner.workerName :=
  rfl

theorem noteAcceptedShare_workerName (shares : ShareConfig) (miner : Miner) (now : Nat) :
    (miner.noteAcceptedShare shares now).workerName = miner.workerName := by
  rcases Miner.noteAcceptedShare_cases shares miner now with
    ⟨avg, proposed, _, applied⟩ | ⟨_, shareTimes, lastRetargetAt, noted, _⟩
  · rw [applied, applyDifficulty_workerName]
    rfl
  · rw [noted]
    rfl

theorem checkIdle_workerName (shares : ShareConfig) (miner : Miner) (now : Nat)
    (enabled : shares.vardiff.enabled = true) :
    (miner.checkIdle shares now).workerName = miner.workerName := by
  rcases Miner.checkIdle_cases shares miner now enabled with ⟨proposed, _, applied⟩ | ⟨_, same⟩
  · rw [applied, applyDifficulty_workerName]
    rfl
  · rw [same]

theorem creditMiner_workerName (config : DeskConfig) (desk : Desk) (share : AcceptedShare)
    (miner : Miner) (now : Instant) :
    (desk.creditMiner config share miner now).workerName = miner.workerName := by
  have noted := noteAcceptedShare_workerName config.shares
    (recordShareOutcome config.shares miner (desk.acceptedOutcome share miner) now.ms) now.ms
  unfold Desk.creditMiner
  dsimp only
  split
  · exact noted
  · exact noted

namespace Service

variable {config : ServiceConfig} {service : Service}

/-- Clients have bounded names, and each has its socket. -/
structure Named (service : Service) : Prop where
  miners : ∀ miner ∈ service.desk.miners, BoundedName miner
  calls : NamedCalls service.desk.ledger.calls
  length : service.sockets.length = service.desk.miners.length

theorem Named.miner (named : Named service) {client : Nat} {miner : Miner}
    (present : service.desk.miners[client]? = some miner) : BoundedName miner :=
  named.miners miner (List.mem_of_getElem? present)

/-- A client's socket. -/
theorem Named.socket (named : Named service) {client : Nat} {miner : Miner}
    (present : service.desk.miners[client]? = some miner) :
    ∃ socket, service.sockets[client]? = some socket := by
  have bound := (List.getElem?_eq_some_iff.mp present).1
  rw [← named.length] at bound
  exact ⟨_, List.getElem?_eq_getElem bound⟩

/-- A step that changes one client. -/
theorem Named.withMiner (named : Named service) {target : Service} {client : Nat} {after : Miner}
    (miners : target.desk.miners = service.desk.miners.set client after)
    (bounded : BoundedName after) (calls : NamedCalls target.desk.ledger.calls)
    (length : target.sockets.length = service.sockets.length) : Named target where
  miners := by
    rw [miners]
    intro miner member
    rcases List.mem_or_eq_of_mem_set member with isOld | isNew
    · exact named.miners miner isOld
    · rw [isNew]
      exact bounded
  calls := calls
  length := by
    rw [length, miners, List.length_set]
    exact named.length

/-- What the continuation of a handler changes. -/
theorem resume_named (config : ServiceConfig) {desk : Desk} {handler : Handler} {miner : Miner}
    (bounded : BoundedName miner) (calls : NamedCalls desk.ledger.calls) (place : Nat)
    (now : Instant) :
    let after := desk.resume config.desk place handler miner now
    (∃ changed, after.miners = desk.miners.set handler.client changed ∧ BoundedName changed) ∧
      NamedCalls after.ledger.calls := by
  unfold Desk.resume
  rcases handler.result with message | (share | error)
  · exact ⟨⟨_, rfl, bounded.of_same rfl⟩, calls⟩
  · constructor
    · exact ⟨_, rfl, bounded.of_same (creditMiner_workerName config.desk desk share miner now)⟩
    · dsimp only [Desk.credit]
      split
      · intro call member units isName
        rcases (candidate_labels config.desk.ledger desk.ledger share (Desk.label handler miner)
            (handler.client + 1) now).2 call member with isOld | isNew
        · exact calls call isOld units isName
        · rw [isNew] at isName
          rcases label_cases bounded handler with ⟨_, other, isBounded, label⟩ | ⟨_, label⟩
          · rw [label] at isName
            cases isName
            exact isBounded
          · rw [label] at isName
            contradiction
      · exact calls
  · exact ⟨⟨_, rfl, bounded.of_same rfl⟩, calls⟩

theorem namedCalls_set {calls : List BlockCall} (named : NamedCalls calls) {place : Nat}
    {old call : BlockCall} (present : calls[place]? = some old)
    (same : call.worker = old.worker) : NamedCalls (calls.set place call) := by
  intro other member units isName
  rcases List.mem_or_eq_of_mem_set member with isOld | isNew
  · exact named other isOld units isName
  · rw [isNew, same] at isName
    exact named old (List.mem_of_getElem? present) units isName

/-- Verdicts and proposals keep the labels of the calls. -/
theorem Named.node (named : Named service) {deps : Externals} {hostile : Nat → Bool}
    {event : DeskEvent} {desk : Desk} (node : isNode event = true)
    (step : Desk.next deps hostile config.desk service.desk event = some desk) :
    NamedCalls desk.ledger.calls := by
  cases event with
  | generateJob cleanJobs reply =>
      cases step
      exact named.calls
  | network network =>
      cases step
      exact named.calls
  | verdict call reply now =>
      obtain ⟨ledger, moved, rfl⟩ := Option.map_eq_some_iff.mp step
      obtain ⟨called, found, _, rfl⟩ := Ledger.next_verdict moved
      unfold Ledger.verdict
      split
      · exact namedCalls_set named.calls found rfl
      · split
        · exact namedCalls_set named.calls found rfl
        · split
          · exact namedCalls_set named.calls found rfl
          · exact namedCalls_set named.calls found rfl
  | proposal call reply =>
      obtain ⟨ledger, moved, rfl⟩ := Option.map_eq_some_iff.mp step
      obtain ⟨called, result, found, _, rfl⟩ := Ledger.next_proposal moved
      exact namedCalls_set named.calls found rfl
  | cleanup now =>
      cases step
      exact named.calls
  | _ => contradiction

theorem desk_perform (config : ServiceConfig) (service : Service) (client : Nat) (miner : Miner)
    (effects : List Effect) (backlog : Nat → Nat) :
    (service.perform config client miner effects backlog).desk = service.desk := by
  unfold perform
  split <;> rfl

/-- The sweep for idle miners keeps the names. -/
theorem Named.checkIdleMiners (named : Named service) (now : Instant)
    (backlog : Nat → Nat → Nat) : Named (service.checkIdleMiners config now backlog) where
  miners := by
    intro after member
    unfold Service.checkIdleMiners at member
    dsimp only at member
    split at member
    · next enabled =>
        obtain ⟨miner, isMiner, rfl⟩ := List.mem_map.mp member
        exact (named.miners miner isMiner).of_same
          (checkIdle_workerName config.requests.shares miner now.ms enabled)
    · exact named.miners after member
  calls := named.calls
  length := by
    unfold Service.checkIdleMiners
    dsimp only
    rw [length_performEach, named.length]
    split
    · exact (List.length_map _).symm
    · rfl

/-- Names stay bounded in every step. -/
theorem Named.next (named : Named service) {deps : Externals} {target : Service}
    {event : ServiceEvent} (step : Service.next deps config service event = some target) :
    Named target := by
  cases event with
  | node event =>
      rw [Service.next] at step
      split at step
      · next node =>
          obtain ⟨desk, moved, rfl⟩ := Option.map_eq_some_iff.mp step
          have miners := miners_of_isNode node moved
          constructor
          · rw [miners]
            exact named.miners
          · exact named.node node moved
          · rw [miners]
            exact named.length
      · contradiction
  | connect now =>
      cases step
      constructor
      · intro miner member
        rcases List.mem_append.mp member with isOld | isNew
        · exact named.miners miner isOld
        · rw [List.mem_singleton.mp isNew]
          intro name isName
          contradiction
      · exact named.calls
      · rw [List.length_append, List.length_append, named.length]
        rfl
  | disconnect client =>
      obtain ⟨desk, moved, rfl⟩ := Option.map_eq_some_iff.mp step
      obtain ⟨miner, present, rfl⟩ := Option.map_eq_some_iff.mp moved
      exact named.withMiner rfl ((named.miner present).of_same rfl) named.calls rfl
  | destroy client =>
      cases step
      constructor
      · exact named.miners
      · exact named.calls
      · rw [Service.destroy, List.length_modify]
        exact named.length
  | request client line now backlog =>
      obtain ⟨miner, present, rfl⟩ := Option.map_eq_some_iff.mp step
      have bounded := handleRequest_boundedName (named.miner present) config.requests (client + 1)
        service.lastJob now.ms line
      have length : (service.request deps config client miner line now backlog).sockets.length =
          service.sockets.length := length_perform _ _ _ _ _ _
      exact named.withMiner rfl bounded named.calls length
  | resume place now backlog =>
      obtain ⟨⟨handler, miner⟩, waits, rfl⟩ := Option.map_eq_some_iff.mp step
      obtain ⟨_, _, present⟩ := Desk.waiting_eq_some_iff.mp waits
      obtain ⟨⟨changed, miners, bounded⟩, calls⟩ :=
        resume_named config (named.miner present) named.calls place now
      exact named.withMiner miners bounded calls (length_perform _ _ _ _ _ _)
  | checkIdleMiners now backlog =>
      cases step
      exact named.checkIdleMiners now backlog
  | broadcastJob job backlog =>
      cases step
      have desk : (service.broadcastJob config job backlog).desk = service.desk :=
        desk_performEach _ _ _ _ _
      constructor
      · rw [desk]
        exact named.miners
      · rw [desk]
        exact named.calls
      · rw [desk, Service.broadcastJob, length_performEach]
        exact named.length
  | resend client backlog =>
      obtain ⟨miner, present, rfl⟩ := Option.map_eq_some_iff.mp step
      unfold Service.resend
      split
      · split
        · constructor
          · rw [desk_perform]
            exact named.miners
          · rw [desk_perform]
            exact named.calls
          · rw [desk_perform, length_perform]
            exact named.length
        · exact named
      · exact named

/-! ## Lines -/

theorem lines_perform {client : Nat} {socket : Socket}
    (found : service.sockets[client]? = some socket) (miner : Miner) (effects : List Effect)
    (backlog : Nat → Nat) :
    CleanLines config.requests.numbers (service.perform config client miner effects backlog).lines ↔
      CleanLines config.requests.numbers service.lines ∧
        LogsCleanly config.requests (socket.destroyed = false) effects backlog := by
  unfold perform
  rw [found]
  exact lines_performAll config.requests (client + 1) miner effects backlog ⟨socket, service.lines⟩

/-- Harmless effects log nothing of the client's on any socket. -/
theorem lines_perform_of_harmless {effects : List Effect}
    (harmless : ∀ effect ∈ effects, effect.harmless config.requests.numbers = true) (client : Nat)
    (miner : Miner) (backlog : Nat → Nat) :
    CleanLines config.requests.numbers (service.perform config client miner effects backlog).lines ↔
      CleanLines config.requests.numbers service.lines := by
  cases found : service.sockets[client]? with
  | none =>
      unfold perform
      rw [found]
  | some socket =>
      rw [lines_perform found]
      exact and_iff_left (logsCleanly_of_harmless harmless _ backlog)

theorem lines_performEach_of_harmless (writer : ServiceConfig) {effects : Nat → Miner → List Effect}
    (harmless : ∀ client miner, ∀ effect ∈ effects client miner,
      effect.harmless writer.requests.numbers = true) (backlog : Nat → Nat → Nat)
    (entries : List (Nat × Miner)) :
    CleanLines writer.requests.numbers
        (performEach writer effects backlog entries service).lines ↔
      CleanLines writer.requests.numbers service.lines := by
  induction entries generalizing service with
  | nil => rfl
  | cons entry rest ih =>
      rw [performEach, ih]
      exact lines_perform_of_harmless (harmless entry.1 entry.2) _ _ _

/-! ## Sanitised states -/

/-- Names of clients, stored labels and lines have no text of a client that is
too long or has a control character. -/
structure Sanitised (numbers : NumberFormat) (service : Service) : Prop where
  names : ∀ miner ∈ service.desk.miners, BoundedName miner
  best : ∀ label, service.desk.allTimeBestShare.worker = some label → label.Bounded
  history : ∀ entry ∈ service.desk.ledger.blockHistory, entry.worker.Bounded
  lines : CleanLines numbers service.lines

/-- What a handler logs and stores when it continues is clean: the id of its
request if the response is logged, and the fallback if the label is one. -/
structure CleanResume (config : ServiceConfig) (desk : Desk) (handler : Handler) (miner : Miner)
    (requestId : Option Json) (isOpen : Prop) : Prop where
  answer : isOpen → config.requests.logOutbound = true → NoDel requestId
  shown : ∀ share, handler.result = .ok (.valid share) → Unnamed miner →
    (fallback handler).toText.any isControlChar = false
  stored : ∀ share, handler.result = .ok (.valid share) → desk.Best share miner → Unnamed miner →
    (WorkerLabel.value (fallback handler)).Bounded

/-- The fallback that a call keeps is clean where the verdict logs it, and
bounded where it is stored. -/
structure CleanVerdict (config : LedgerConfig) (call : BlockCall) (reply : Except String Value) :
    Prop where
  shown : ∀ result value, reply = .ok result → result.throwsOn config.unwritable = false →
    call.minerLabel = .value value → value.toText.any isControlChar = false
  stored : ∀ result value, reply = .ok result → isNullish result = true →
    call.minerLabel = .value value → (WorkerLabel.value value).Bounded

/-- A step that has nothing logged or stored that is not clean. -/
def Careful (config : ServiceConfig) (service : Service) : ServiceEvent → Prop
  | .request client line _ backlog => ∀ miner socket, service.desk.miners[client]? = some miner →
      service.sockets[client]? = some socket →
        CleanRequest config.requests (socket.destroyed = false) backlog miner line
  | .resume place _ _ => ∀ handler miner socket,
      service.desk.waiting place = some (handler, miner) →
        service.sockets[handler.client]? = some socket →
          CleanResume config service.desk handler miner (service.requestIds.getD place none)
            (socket.destroyed = false)
  | .node (.verdict call reply _) => ∀ called, service.desk.ledger.calls[call]? = some called →
      CleanVerdict config.desk.ledger called reply
  | _ => True

/-! ## Steps -/

/-- A step that stores no label. -/
theorem sanitised_iff_lines {numbers : NumberFormat} {target : Service}
    (sanitised : Sanitised numbers service) (named : Named target)
    (best : target.desk.allTimeBestShare = service.desk.allTimeBestShare)
    (history : target.desk.ledger.blockHistory = service.desk.ledger.blockHistory) :
    Sanitised numbers target ↔ CleanLines numbers target.lines := by
  constructor
  · exact fun after => after.lines
  · intro lines
    constructor
    · exact named.miners
    · rw [best]
      exact sanitised.best
    · rw [history]
      exact sanitised.history
    · exact lines

/-- A step that stores no label and logs nothing of a client's. -/
theorem sanitised_of_quiet {numbers : NumberFormat} {target : Service}
    (sanitised : Sanitised numbers service) (named : Named target)
    (best : target.desk.allTimeBestShare = service.desk.allTimeBestShare)
    (history : target.desk.ledger.blockHistory = service.desk.ledger.blockHistory)
    (lines : CleanLines numbers target.lines ↔ CleanLines numbers service.lines) :
    Sanitised numbers target :=
  (sanitised_iff_lines sanitised named best history).mpr (lines.mpr sanitised.lines)

theorem handedOver_mem {effects : List Effect} {submitted : Submitted}
    (handed : handedOver effects = some submitted) :
    Effect.submit submitted.requestId submitted.worker submitted.parsed ∈ effects := by
  obtain ⟨effect, member, isSubmit⟩ := List.exists_of_findSome?_eq_some handed
  cases effect with
  | submit id worker parsed =>
      cases isSubmit
      exact member
  | _ => contradiction

theorem clean_validationLines {numbers : NumberFormat} {submitted : Submitted}
    (clean : CleanField submitted.parsed.jobId) (handler : Handler) :
    CleanLines numbers (validationLines submitted handler) := by
  unfold validationLines
  split
  · rw [cleanLines_singleton]
    have parts : forged numbers [.own "[Share] Rejected job=".toList,
        shownField submitted.parsed.jobId "null", .own " best=".toList] =
          ((shownField submitted.parsed.jobId "null").forges numbers || false) := rfl
    rw [parts, Bool.or_false, forges_shownField]
    exact clean
  · exact cleanLines_nil numbers

/-- The lines of a request are clean exactly when the values they show are. -/
theorem lines_request (deps : Externals) {client : Nat} {socket : Socket}
    (found : service.sockets[client]? = some socket) (miner : Miner) (line : Json) (now : Instant)
    (backlog : Nat → Nat) :
    CleanLines config.requests.numbers
        (service.request deps config client miner line now backlog).lines ↔
      CleanLines config.requests.numbers service.lines ∧
        CleanRequest config.requests (socket.destroyed = false) backlog miner line := by
  unfold Service.request
  dsimp only
  rw [cleanLines_append, lines_perform found, handleRequest_logsCleanly]
  apply and_iff_left_of_imp
  rintro ⟨_, clean⟩
  cases handed : handedOver (Stratum.handleRequest config.requests (client + 1) service.lastJob
      now.ms miner
      line).effects with
  | none => exact cleanLines_nil config.requests.numbers
  | some submitted =>
      have logs := (handleRequest_logsCleanly config.requests (client + 1) service.lastJob now.ms
        miner line (socket.destroyed = false) backlog).mpr clean
      have logged := logs.of_mem (log_of_submit (handedOver_mem handed))
      exact clean_validationLines ((forged_submitLine _ _ _).mp logged).1 _

theorem sanitised_request_iff {deps : Externals}
    (sanitised : Sanitised config.requests.numbers service)
    (named : Named service) {client : Nat} {miner : Miner}
    (present : service.desk.miners[client]? = some miner) {line : Json} {now : Instant}
    {backlog : Nat → Nat}
    (namedAfter : Named (service.request deps config client miner line now backlog)) :
    Sanitised config.requests.numbers
        (service.request deps config client miner line now backlog) ↔
      Careful config service (.request client line now backlog) := by
  obtain ⟨socket, found⟩ := named.socket present
  rw [sanitised_iff_lines sanitised namedAfter rfl rfl, lines_request deps found,
    and_iff_right sanitised.lines]
  constructor
  · intro clean other otherSocket isMiner isSocket
    cases present.symm.trans isMiner
    cases found.symm.trans isSocket
    exact clean
  · exact fun careful => careful miner socket present found

/-! ## Outcomes -/

section Outcomes

variable {numbers : NumberFormat} {label : WorkerLabel} {share : AcceptedShare}

theorem forges_difficultyPiece (numbers : NumberFormat) (difficulty : Option ℚ) :
    (difficultyPiece difficulty).forges numbers = false := by
  cases difficulty <;> rfl

theorem forged_acceptedLine (miner : Miner) :
    forged numbers (acceptedLine label share miner) = (labelPiece label).forges numbers := by
  have parts : forged numbers (acceptedLine label share miner) =
      ((labelPiece label).forges numbers || false) := rfl
  rw [parts, Bool.or_false]

theorem forged_bestLine (desk : Desk) (miner : Miner) :
    forged numbers (bestLine desk label share miner) = (labelPiece label).forges numbers := by
  have parts : forged numbers (bestLine desk label share miner) =
      ((labelPiece label).forges numbers || false) := rfl
  rw [parts, Bool.or_false]

theorem forged_blockLine (desk : Desk) (clientId : Nat) :
    forged numbers (blockLine desk clientId label share) = (labelPiece label).forges numbers := by
  have parts : forged numbers (blockLine desk clientId label share) =
      ((labelPiece label).forges numbers ||
        ((difficultyPiece desk.network.difficulty).forges numbers ||
          ((difficultyPiece (desk.foundDiff share)).forges numbers || false))) := rfl
  rw [parts, forges_difficultyPiece, forges_difficultyPiece]
  exact Bool.or_false _

/-- Behind the response only the label is a client's. -/
theorem harmless_of_label (clean : (labelPiece label).forges numbers = false)
    (config : LedgerConfig) (desk : Desk) (clientId : Nat) (now : Instant) :
    ∀ line ∈ blockLines config desk clientId label share now, forged numbers line = false := by
  unfold blockLines
  intro line member
  split at member
  · rcases List.mem_cons.mp member with isBlock | isDuplicate
    · rw [isBlock, forged_blockLine, clean]
    · split at isDuplicate
      · split at isDuplicate
        · rw [List.mem_singleton.mp isDuplicate]
          rfl
        · contradiction
      · contradiction
  · contradiction

theorem harmless_retargetEffects (settings : RequestSettings) (before after : Miner) :
    ∀ effect ∈ retargetEffects settings before after,
      effect.harmless settings.numbers = true := by
  unfold retargetEffects
  intro effect member
  split at member
  · exact harmless_map_send (forges_announcement settings.numbers) effect member
  · contradiction

end Outcomes

/-- An accepted share logs the label, and the id if the response is logged. -/
theorem acceptedEffects_logsCleanly (config : ServiceConfig) (desk : Desk) (handler : Handler)
    (miner : Miner) (requestId : Option Json) (share : AcceptedShare) (now : Instant)
    {isOpen : Prop} {backlog : Nat → Nat} :
    LogsCleanly config.requests isOpen
        (acceptedEffects config desk handler miner requestId share now) backlog ↔
      (isOpen → config.requests.logOutbound = true → NoDel requestId) ∧
        (labelPiece (Desk.label handler miner)).forges config.requests.numbers = false := by
  constructor
  · intro clean
    constructor
    · intro alive logged
      exact (forges_response rfl).mp (clean.1 alive logged)
    · have logged : Effect.log (acceptedLine (Desk.label handler miner) share miner) ∈
          acceptedEffects config desk handler miner requestId share now := by
        unfold acceptedEffects
        simp only [List.mem_append, List.mem_singleton, true_or, or_true]
      rw [← clean.of_mem logged, forged_acceptedLine]
  · rintro ⟨answer, label⟩
    apply logsCleanly_of_each
    intro effect member
    unfold acceptedEffects at member
    simp only [List.mem_append] at member
    rcases member with (((((isResponse | isRetarget) | isChange) | isBest) | isAccepted) | isBlock)
    · apply Or.inr
      refine ⟨_, List.mem_singleton.mp isResponse, ?_⟩
      intro alive logged
      exact (forges_response rfl).mpr (answer alive logged)
    · exact Or.inl (harmless_retargetEffects _ _ _ effect isRetarget)
    · split at isChange
      · rw [List.mem_singleton.mp isChange]
        exact Or.inl rfl
      · contradiction
    · split at isBest
      · apply Or.inl
        rw [List.mem_singleton.mp isBest, Effect.harmless, forged_bestLine, label]
        rfl
      · contradiction
    · apply Or.inl
      rw [List.mem_singleton.mp isAccepted, Effect.harmless, forged_acceptedLine, label]
      rfl
    · apply Or.inl
      obtain ⟨line, isLine, rfl⟩ := List.mem_map.mp isBlock
      rw [Effect.harmless, harmless_of_label label config.ledger desk _ now line isLine]
      rfl

theorem resumeEffects_logsCleanly (config : ServiceConfig) (desk : Desk) (handler : Handler)
    {miner : Miner} (bounded : BoundedName miner) (requestId : Option Json) (now : Instant)
    {isOpen : Prop} {backlog : Nat → Nat} :
    LogsCleanly config.requests isOpen (resumeEffects config desk handler miner requestId now)
        backlog ↔
      (isOpen → config.requests.logOutbound = true → NoDel requestId) ∧
        ∀ share, handler.result = .ok (.valid share) → Unnamed miner →
          (fallback handler).toText.any isControlChar = false := by
  unfold resumeEffects
  rcases handler.result with message | (share | error)
  · have own : forged config.requests.numbers [.own "[Submit] Handler failure: ".toList,
        .own message.toList] = false := rfl
    have reply : (Body.failure 20 (codeUnits "Internal server error".toList)).forges = false := by
      decide
    rw [logsCleanly_log own, logsCleanly_response reply (by simp)]
    exact (and_iff_left fun share impossible => by contradiction).symm
  · dsimp only
    rw [acceptedEffects_logsCleanly, forges_label_iff bounded]
    apply and_congr_right
    intro _
    constructor
    · exact fun clean _ _ => clean
    · exact fun clean => clean share rfl
  · have own : forged config.requests.numbers [.own "Share Rejected: ".toList,
        .own error.toList] = false := rfl
    have rest : ∀ effect ∈ [Effect.log [.own "Share Rejected: ".toList, .own error.toList]],
        effect.harmless config.requests.numbers = true := by
      intro effect member
      rw [List.mem_singleton.mp member]
      rfl
    have reply : (Body.failure 23 (codeUnits error.toList)).forges = false := rfl
    dsimp only
    rw [logsCleanly_response reply rest]
    exact (and_iff_left fun share impossible => by cases impossible).symm

/-- The best share after a share that was accepted. -/
theorem credit_best (config : DeskConfig) (desk : Desk) (place : Nat) (handler : Handler)
    (miner : Miner) (share : AcceptedShare) (now : Instant) :
    (desk.credit config place handler miner share now).allTimeBestShare.worker =
      if desk.Best share miner then some (Desk.label handler miner)
      else desk.allTimeBestShare.worker := by
  unfold Desk.credit Desk.bestShare
  dsimp only
  by_cases best : desk.Best share miner
  · rw [if_pos best]
    unfold Desk.Best at best
    rw [if_pos best]
  · rw [if_neg best]
    unfold Desk.Best at best
    rw [if_neg best]

/-- The share of a handler becomes the best one. -/
def StoresBest (desk : Desk) (handler : Handler) (miner : Miner) : Prop :=
  ∃ share, handler.result = .ok (.valid share) ∧ desk.Best share miner

/-- What a handler stores when it continues: the label of a best share. -/
theorem resume_stores (config : ServiceConfig) (desk : Desk) (place : Nat) (handler : Handler)
    (miner : Miner) (now : Instant) :
    let after := desk.resume config.desk place handler miner now
    after.ledger.blockHistory = desk.ledger.blockHistory ∧
      (StoresBest desk handler miner →
        after.allTimeBestShare.worker = some (Desk.label handler miner)) ∧
      (¬StoresBest desk handler miner →
        after.allTimeBestShare.worker = desk.allTimeBestShare.worker) := by
  unfold Desk.resume StoresBest
  rcases handler.result with message | (share | error)
  · refine ⟨rfl, ?_, fun _ => rfl⟩
    rintro ⟨share, impossible, _⟩
    contradiction
  · dsimp only
    rw [credit_best]
    refine ⟨?_, ?_, ?_⟩
    · dsimp only [Desk.credit]
      split
      · exact (candidate_labels _ _ _ _ _ _).1
      · rfl
    · rintro ⟨other, same, better⟩
      cases same
      exact if_pos better
    · intro worse
      exact if_neg fun better => worse ⟨share, rfl, better⟩
  · refine ⟨rfl, ?_, fun _ => rfl⟩
    rintro ⟨share, impossible, _⟩
    cases impossible

theorem sanitised_resume_iff (sanitised : Sanitised config.requests.numbers service)
    (named : Named service) {place : Nat} {handler : Handler} {miner : Miner}
    (waits : service.desk.waiting place = some (handler, miner)) {now : Instant}
    {backlog : Nat → Nat}
    (namedAfter : Named (service.resume config place handler miner now backlog)) :
    Sanitised config.requests.numbers (service.resume config place handler miner now backlog) ↔
      Careful config service (.resume place now backlog) := by
  obtain ⟨_, _, present⟩ := Desk.waiting_eq_some_iff.mp waits
  have bounded := named.miner present
  obtain ⟨socket, found⟩ := named.socket present
  obtain ⟨history, stores, keeps⟩ := resume_stores config service.desk place handler miner now
  have lines : CleanLines config.requests.numbers
      (service.resume config place handler miner now backlog).lines ↔ _ :=
    lines_perform found _ (resumeEffects config service.desk handler miner
      (service.requestIds.getD place none) now) backlog
  rw [resumeEffects_logsCleanly config service.desk handler bounded,
    and_iff_right sanitised.lines] at lines
  constructor
  · intro after other otherMiner otherSocket isWaiting isSocket
    cases waits.symm.trans isWaiting
    cases found.symm.trans isSocket
    obtain ⟨answer, shown⟩ := lines.mp after.lines
    constructor
    · exact answer
    · exact shown
    · intro share valid isBest
      apply (bounded_label_iff bounded handler).mp
      exact after.best _ (stores ⟨share, valid, isBest⟩)
  · intro careful
    have clean := careful handler miner socket waits found
    constructor
    · exact namedAfter.miners
    · intro label isLabel
      by_cases isBest : StoresBest service.desk handler miner
      · cases (stores isBest).symm.trans isLabel
        obtain ⟨share, valid, better⟩ := isBest
        exact (bounded_label_iff bounded handler).mpr (clean.stored share valid better)
      · exact sanitised.best label ((keeps isBest).symm.trans isLabel)
    · intro entry member
      have isOld : entry ∈ service.desk.ledger.blockHistory := by
        rw [← history]
        exact member
      exact sanitised.history entry isOld
    · exact lines.mpr ⟨clean.answer, clean.shown⟩

/-! ## Verdicts -/

/-- The label of a call: a bounded name, or a fallback. -/
theorem minerLabel_cases {call : BlockCall}
    (named : ∀ units, call.worker = .name units → Bounded units) :
    (∃ units, Bounded units ∧ call.minerLabel = .name units) ∨
      ∃ value, call.minerLabel = .value value := by
  cases label : call.minerLabel with
  | value value => exact Or.inr ⟨value, rfl⟩
  | name units =>
      refine Or.inl ⟨units, named units ?_, rfl⟩
      unfold BlockCall.minerLabel at label
      split at label
      · exact label
      · contradiction

theorem forged_verdictLine {numbers : NumberFormat} {config : LedgerConfig} {call : BlockCall}
    (named : ∀ units, call.worker = .name units → Bounded units) (difficulty : Option ℚ)
    (reply : Except String Value) :
    forged numbers (verdictLine config call difficulty reply) = false ↔
      ∀ result value, reply = .ok result → result.throwsOn config.unwritable = false →
        call.minerLabel = .value value → value.toText.any isControlChar = false := by
  cases reply with
  | error message => exact iff_of_true rfl fun result value impossible => by contradiction
  | ok result =>
      cases throws : result.throwsOn config.unwritable with
      | true =>
          have refused : isNullish result = false := by
            cases result with
            | object identity text buffer => rfl
            | _ => contradiction
          have failed : verdictLine config call difficulty (.ok result) =
              [.own "[BLOCK] submitblock failed: ".toList,
                .own "Cannot convert object to primitive value".toList] := by
            rw [verdictLine, refused, throws]
            rfl
          rw [failed]
          refine iff_of_true rfl fun other value same writable => ?_
          cases same
          rw [throws] at writable
          contradiction
      | false =>
          have shows : forged numbers (verdictLine config call difficulty (.ok result)) =
              (labelPiece call.minerLabel).forges numbers := by
            unfold verdictLine
            dsimp only
            rw [throws]
            split
            · have parts : forged numbers [.own "[BLOCK] submitblock accepted by node: ".toList,
                  hashPiece call.share.hash, .own " worker=".toList, labelPiece call.minerLabel,
                  .own " netDiff=".toList, difficultyPiece difficulty, .own " foundDiff=".toList,
                  difficultyPiece (foundDifficulty difficulty call.share)] =
                    ((labelPiece call.minerLabel).forges numbers ||
                      ((difficultyPiece difficulty).forges numbers ||
                        ((difficultyPiece (foundDifficulty difficulty call.share)).forges numbers ||
                          false))) := rfl
              rw [parts, forges_difficultyPiece, forges_difficultyPiece]
              exact Bool.or_false _
            · have parts : forged numbers [.own "[BLOCK] submitblock returned rejection: ".toList,
                  .own result.toText, .own " worker=".toList, labelPiece call.minerLabel] =
                    ((labelPiece call.minerLabel).forges numbers || false) := rfl
              rw [if_neg Bool.false_ne_true, parts, Bool.or_false]
          rw [shows]
          rcases minerLabel_cases named with ⟨units, bounded, label⟩ | ⟨value, label⟩
          · rw [label]
            exact iff_of_true bounded.2 fun _ value _ _ impossible => by contradiction
          · rw [label, labelPiece, Piece.forges, any_codeUnits]
            constructor
            · intro clean _ other _ _ same
              cases same
              exact clean
            · exact fun clean => clean result value rfl throws rfl

theorem bounded_minerLabel_iff {call : BlockCall}
    (named : ∀ units, call.worker = .name units → Bounded units) :
    call.minerLabel.Bounded ↔
      ∀ value, call.minerLabel = .value value → (WorkerLabel.value value).Bounded := by
  rcases minerLabel_cases named with ⟨units, bounded, label⟩ | ⟨value, label⟩
  · rw [label]
    exact iff_of_true bounded fun value impossible => by contradiction
  · rw [label]
    constructor
    · intro bounded other same
      cases same
      exact bounded
    · exact fun bounded => bounded value rfl

theorem mem_keepLast_append {α : Type} {entries : List α} {entry other : α} {n : Nat}
    (member : other ∈ keepLast n (entries ++ [entry])) : other ∈ entries ∨ other = entry := by
  rcases List.mem_append.mp (List.mem_of_mem_drop member) with isOld | isNew
  · exact Or.inl isOld
  · exact Or.inr (List.mem_singleton.mp isNew)

/-- A new entry is among the entries that are kept. -/
theorem last_mem_keepLast {α : Type} (entries : List α) (entry : α) {n : Nat} (positive : 0 < n) :
    entry ∈ keepLast n (entries ++ [entry]) := by
  have fits : (entries ++ [entry]).length - n ≤ entries.length := by
    rw [List.length_append, List.length_singleton]
    omega
  rw [keepLast, List.drop_append_of_le_length fits]
  exact List.mem_append_right _ List.mem_cons_self

/-- What a verdict stores: the label of an accepted block. -/
theorem verdict_stores {config : LedgerConfig} {ledger : Ledger} {place : Nat} {call : BlockCall}
    {reply : Except String Value} {around : Surroundings} {now : Instant}
    (history : ∀ entry ∈ ledger.blockHistory, entry.worker.Bounded) :
    (∀ entry ∈ (ledger.verdict config place call reply around now).blockHistory,
        entry.worker.Bounded) ↔
      ∀ result, reply = .ok result → isNullish result = true → call.minerLabel.Bounded := by
  cases reply with
  | error message => exact iff_of_true history fun result impossible => by contradiction
  | ok result =>
      unfold Ledger.verdict
      dsimp only
      split
      · next accepted =>
          have positive : 0 < maxBlockHistory := by decide
          have kept : ((ledger.append place (Ledger.entryFor config call around now)).close place
              { call with verdict := .accepted }).blockHistory =
                keepLast maxBlockHistory
                  (ledger.blockHistory ++ [Ledger.entryFor config call around now]) := by
            rw [Ledger.close, Ledger.append]
          rw [kept]
          constructor
          · rintro bounded other same _
            exact bounded _ (last_mem_keepLast ledger.blockHistory _ positive)
          · intro bounded entry member
            rcases mem_keepLast_append member with isOld | isNew
            · exact history entry isOld
            · rw [isNew]
              exact bounded result rfl accepted
      · next refused =>
          have stored : ∀ other, (.ok result : Except String Value) = .ok other →
              isNullish other = true → call.minerLabel.Bounded := by
            rintro other same accepted
            cases same
            exact absurd accepted refused
          split
          · exact iff_of_true history stored
          · exact iff_of_true history stored

theorem sanitised_verdict_iff {deps : Externals}
    (sanitised : Sanitised config.requests.numbers service) (named : Named service) {call : Nat}
    {reply : Except String Value} {now : Instant} {target : Service}
    (step : service.withDesk deps config (.verdict call reply now)
      (nodeLines config.desk.ledger service.desk (.verdict call reply now)) = some target)
    (namedAfter : Named target) :
    Sanitised config.requests.numbers target ↔
      Careful config service (.node (.verdict call reply now)) := by
  obtain ⟨desk, moved, rfl⟩ := Option.map_eq_some_iff.mp step
  obtain ⟨ledger, changed, rfl⟩ := Option.map_eq_some_iff.mp moved
  obtain ⟨called, found, _, rfl⟩ := Ledger.next_verdict changed
  have labels := named.calls called (List.mem_of_getElem? found)
  have history : (∀ entry ∈ (service.desk.ledger.verdict config.ledger call called reply
      service.desk.surroundings now).blockHistory, entry.worker.Bounded) ↔ _ :=
    verdict_stores sanitised.history
  have lines : nodeLines config.desk.ledger service.desk (.verdict call reply now) =
      [verdictLine config.desk.ledger called service.desk.network.difficulty reply] := by
    unfold nodeLines
    dsimp only
    rw [found]
    rfl
  rw [lines] at step namedAfter ⊢
  constructor
  · intro after other isCalled
    cases found.symm.trans isCalled
    constructor
    · exact (forged_verdictLine labels _ reply).mp
        (cleanLines_singleton.mp (cleanLines_append.mp after.lines).2)
    · intro result value isResult accepted
      exact (bounded_minerLabel_iff labels).mp (history.mp after.history result isResult accepted)
        value
  · intro careful
    have clean := careful called found
    constructor
    · exact sanitised.names
    · exact sanitised.best
    · apply history.mpr
      intro result isResult accepted
      apply (bounded_minerLabel_iff labels).mpr
      exact fun value => clean.stored result value isResult accepted
    · apply cleanLines_append.mpr
      exact ⟨sanitised.lines, cleanLines_singleton.mpr
        ((forged_verdictLine labels _ reply).mpr clean.shown)⟩

/-! ## Runs -/

theorem harmless_idleEffects (config : ServiceConfig) (clientId : Nat) (before after : Miner) :
    ∀ effect ∈ idleEffects config clientId before after,
      effect.harmless config.requests.numbers = true := by
  unfold idleEffects
  intro effect member
  rcases List.mem_append.mp member with isMessage | isLine
  · exact harmless_retargetEffects config.requests before after effect isMessage
  · split at isLine
    · rw [List.mem_singleton.mp isLine]
      rfl
    · contradiction

theorem harmless_notify (numbers : NumberFormat) (job : Job) :
    ∀ effect ∈ [Effect.send (.notify job)], effect.harmless numbers = true := by
  intro effect member
  rw [List.mem_singleton.mp member]
  rfl

/-- Only a verdict has a line. -/
theorem nodeLines_eq_nil (config : LedgerConfig) (desk : Desk) {event : DeskEvent}
    (other : ∀ call reply now, event ≠ .verdict call reply now) :
    nodeLines config desk event = [] := by
  cases event with
  | verdict call reply now => exact absurd rfl (other call reply now)
  | _ => rfl

/-- Of what the node does, only a verdict logs or stores a label. -/
theorem sanitised_node {deps : Externals} (sanitised : Sanitised config.requests.numbers service)
    {event : DeskEvent} (node : isNode event = true)
    (other : ∀ call reply now, event ≠ .verdict call reply now) {target : Service}
    (step : service.withDesk deps config event
      (nodeLines config.desk.ledger service.desk event) = some target)
    (namedAfter : Named target) : Sanitised config.requests.numbers target := by
  rw [nodeLines_eq_nil _ service.desk other] at step
  obtain ⟨desk, moved, rfl⟩ := Option.map_eq_some_iff.mp step
  have lines : CleanLines config.requests.numbers (service.lines ++ []) ↔
      CleanLines config.requests.numbers service.lines := by rw [List.append_nil]
  cases event with
  | generateJob cleanJobs reply =>
      cases moved
      exact sanitised_of_quiet sanitised namedAfter rfl rfl lines
  | network network =>
      cases moved
      exact sanitised_of_quiet sanitised namedAfter rfl rfl lines
  | verdict call reply now => exact absurd rfl (other call reply now)
  | proposal call reply =>
      obtain ⟨ledger, changed, rfl⟩ := Option.map_eq_some_iff.mp moved
      obtain ⟨called, result, _, _, rfl⟩ := Ledger.next_proposal changed
      exact sanitised_of_quiet sanitised namedAfter rfl rfl lines
  | cleanup now =>
      cases moved
      exact sanitised_of_quiet sanitised namedAfter rfl rfl lines
  | _ => contradiction

theorem sanitised_resend (sanitised : Sanitised config.requests.numbers service) (client : Nat)
    (miner : Miner) (backlog : Nat)
    (namedAfter : Named (service.resend config client miner backlog)) :
    Sanitised config.requests.numbers (service.resend config client miner backlog) := by
  have cases : service.resend config client miner backlog = service ∨ ∃ job,
      service.resend config client miner backlog =
        service.perform config client miner [.send (.notify job)] fun _ => backlog := by
    unfold Service.resend
    split
    · next job _ =>
        split
        · exact Or.inr ⟨job, rfl⟩
        · exact Or.inl rfl
    · exact Or.inl rfl
  rcases cases with same | ⟨job, sends⟩
  · rw [same]
    exact sanitised
  · rw [sends] at namedAfter ⊢
    apply sanitised_of_quiet sanitised namedAfter
    · rw [desk_perform]
    · rw [desk_perform]
    · exact lines_perform_of_harmless (harmless_notify _ job) client miner _

/-- A step keeps the state sanitised exactly when it is careful. -/
theorem sanitised_next_iff {deps : Externals} {target : Service} {event : ServiceEvent}
    (named : Named service) (sanitised : Sanitised config.requests.numbers service)
    (step : Service.next deps config service event = some target) :
    Sanitised config.requests.numbers target ↔ Careful config service event := by
  have namedAfter := named.next step
  cases event with
  | node event =>
      rw [Service.next] at step
      split at step
      · next node =>
          by_cases isVerdict : ∃ call reply now, event = .verdict call reply now
          · obtain ⟨call, reply, now, rfl⟩ := isVerdict
            exact sanitised_verdict_iff sanitised named step namedAfter
          · have other : ∀ call reply now, event ≠ .verdict call reply now :=
              fun call reply now same => isVerdict ⟨call, reply, now, same⟩
            apply iff_of_true (sanitised_node sanitised node other step namedAfter)
            cases event with
            | verdict call reply now => exact absurd rfl (other call reply now)
            | _ => exact trivial
      · contradiction
  | connect now =>
      cases step
      apply iff_of_true _ trivial
      exact sanitised_of_quiet sanitised namedAfter rfl rfl (by rw [List.append_nil])
  | disconnect client =>
      obtain ⟨desk, moved, rfl⟩ := Option.map_eq_some_iff.mp step
      obtain ⟨miner, present, rfl⟩ := Option.map_eq_some_iff.mp moved
      apply iff_of_true _ trivial
      exact sanitised_of_quiet sanitised namedAfter rfl rfl (by rw [List.append_nil])
  | destroy client =>
      cases step
      apply iff_of_true _ trivial
      exact sanitised_of_quiet sanitised namedAfter rfl rfl Iff.rfl
  | request client line now backlog =>
      obtain ⟨miner, present, rfl⟩ := Option.map_eq_some_iff.mp step
      exact sanitised_request_iff sanitised named present namedAfter
  | resume place now backlog =>
      obtain ⟨⟨handler, miner⟩, waits, rfl⟩ := Option.map_eq_some_iff.mp step
      exact sanitised_resume_iff sanitised named waits namedAfter
  | checkIdleMiners now backlog =>
      cases step
      apply iff_of_true _ trivial
      apply sanitised_of_quiet sanitised namedAfter rfl rfl
      exact lines_performEach_of_harmless config (fun client after => harmless_idleEffects _ _ _ _)
        backlog _
  | broadcastJob job backlog =>
      cases step
      have desk : (service.broadcastJob config job backlog).desk = service.desk :=
        desk_performEach _ _ _ _ _
      apply iff_of_true _ trivial
      apply sanitised_of_quiet sanitised namedAfter
      · rw [desk]
      · rw [desk]
      · apply lines_performEach_of_harmless
          { config with requests := { config.requests with logOutbound := false } }
        intro client miner effect member
        split at member
        · exact harmless_notify _ job effect member
        · contradiction
  | resend client backlog =>
      obtain ⟨miner, present, rfl⟩ := Option.map_eq_some_iff.mp step
      exact iff_of_true (sanitised_resend sanitised client miner backlog namedAfter) trivial

theorem named_initial (walletAddress poolTarget : Text) {ledger : Ledger} (fresh : ledger.Fresh)
    (best : BestShare) : Named (initial walletAddress poolTarget ledger best) where
  miners := by
    intro miner member
    contradiction
  calls := by
    have none : (initial walletAddress poolTarget ledger best).desk.ledger.calls = [] := fresh.calls
    rw [none]
    intro call member
    contradiction
  length := rfl

/-- In every run the names are bounded, and every state is sanitised exactly when
the loaded one is and every step is careful. -/
theorem sanitised_iff_of_run {deps : Externals} {config : ServiceConfig}
    {walletAddress poolTarget : Text} {ledger : Ledger} {best : BestShare}
    {events : List ServiceEvent} {target : Service} (fresh : ledger.Fresh)
    (reached : run (next deps config) (initial walletAddress poolTarget ledger best) events =
      some target) :
    (∀ miner ∈ target.desk.miners, BoundedName miner) ∧
      ((∀ before after middle, events = before ++ after →
          run (next deps config) (initial walletAddress poolTarget ledger best) before =
              some middle →
            Sanitised config.requests.numbers middle) ↔
        Sanitised config.requests.numbers (initial walletAddress poolTarget ledger best) ∧
          Throughout (next deps config) (Careful config)
            (initial walletAddress poolTarget ledger best) events) := by
  have named := named_initial walletAddress poolTarget fresh best
  have preserved : ∀ {state after : Service} {event : ServiceEvent}, Named state →
      next deps config state event = some after → Named after :=
    fun named step => named.next step
  constructor
  · exact (run_invariant Named preserved named reached).miners
  · constructor
    · intro everywhere
      have loaded := everywhere [] events _ rfl rfl
      refine ⟨loaded, ?_⟩
      exact (forall_reached_iff Named _ preserved sanitised_next_iff named loaded reached).mp
        everywhere
    · rintro ⟨loaded, careful⟩
      exact (forall_reached_iff Named _ preserved sanitised_next_iff named loaded reached).mpr
        careful

/-! ## A forged line -/

/-- A client authorizes with a name of two lines. -/
def forgingEvents : List ServiceEvent :=
  [.connect Desk.noon,
    .request 0 (requestExample "mining.authorize" (.string "eve\nBLOCK".toList)) Desk.noon
      fun _ => 0]

theorem not_sanitised_forgingEvents :
    Sanitised settingsExample.numbers freshService ∧
      ∃ service, run (next WorkManager.packagesExample serviceExample) freshService forgingEvents =
          some service ∧
        ¬Sanitised settingsExample.numbers service := by
  constructor
  · constructor
    · intro miner member
      contradiction
    · intro label isLabel
      contradiction
    · intro entry member
      contradiction
    · exact cleanLines_nil _
  · have forges : ((run (next WorkManager.packagesExample serviceExample) freshService
        forgingEvents).map fun service =>
          service.lines.any (forged settingsExample.numbers)) = some true := by decide +kernel
    obtain ⟨service, reached, isForged⟩ := Option.map_eq_some_iff.mp forges
    refine ⟨service, reached, fun sanitised => ?_⟩
    obtain ⟨line, member, bad⟩ := List.any_eq_true.mp isForged
    exact absurd (bad.symm.trans (sanitised.lines line member)) (by decide)

theorem sanitised_iff_forgingEvents : ∃ target,
    run (next WorkManager.packagesExample serviceExample) freshService forgingEvents =
        some target ∧
      (∀ miner ∈ target.desk.miners, BoundedName miner) ∧
        ((∀ before after middle, forgingEvents = before ++ after →
            run (next WorkManager.packagesExample serviceExample) freshService before =
                some middle →
              Sanitised settingsExample.numbers middle) ↔
          Sanitised settingsExample.numbers freshService ∧
            Throughout (next WorkManager.packagesExample serviceExample) (Careful serviceExample)
              freshService forgingEvents) := by
  have runs : (run (next WorkManager.packagesExample serviceExample) freshService
      forgingEvents).isSome = true := by decide +kernel
  obtain ⟨target, reached⟩ := Option.isSome_iff_exists.mp runs
  exact ⟨target, reached, sanitised_iff_of_run Desk.fresh_freshExample reached⟩

end Service

end ZcashSoloPool.Pool
