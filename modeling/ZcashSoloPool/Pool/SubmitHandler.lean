import ZcashSoloPool.Pool.BlockDedup
import ZcashSoloPool.Transition.Projection
import ZcashSoloPool.WorkManager.JobTable

/-!
# The submit handler

Submissions from the request to the response.  A request is validated in the
turn that reads it, and its handler continues after an await, so that later
requests of the same chunk and other handlers come between.  Everything that a
turn reads from the clock is one reading.
-/

namespace ZcashSoloPool.Pool

open ZcashSoloPool.JavaScript
open ZcashSoloPool.Stratum
open ZcashSoloPool.Transition
open ZcashSoloPool.WorkManager (AcceptedShare BlockTemplate Externals Halt History ShareContext
  ShareResult Submission decimalNumber parsePositiveNumber prepare validateShare)

/-! ## The state -/

/-- The settings of the pool. -/
structure DeskConfig where
  shares : ShareConfig
  ledger : LedgerConfig
  submitAudit : Bool

/-- The cached network: its difficulty and height. -/
structure Network where
  difficulty : Option ℚ
  blocks : Value
  deriving DecidableEq, Repr

/-- `allTimeBestShare`. -/
structure BestShare where
  difficulty : ℚ
  hash : Option Text
  worker : Option WorkerLabel
  foundAt : Option Nat
  deriving DecidableEq, Repr

/-- A submission between its validation and its end.  The source does not keep
the last two: what the validation compared the share with, and the difficulty
of the client at that time. -/
structure Handler where
  client : Nat
  requestId : Value
  worker : Value
  result : Halt
  settled : Bool
  checked : Option ShareContext
  difficulty : ℚ

/-- The two arguments of a response that depend on the outcome. -/
inductive Reply where
  | accepted
  | refused (code : Nat) (message : String)
  deriving DecidableEq, Repr

/-- A response to a submission, with the number of its handler. -/
structure Response where
  handler : Nat
  client : Nat
  requestId : Value
  reply : Reply
  deriving DecidableEq, Repr

/-- An outcome that was recorded, with the number of its handler and what it
added to `recentAccepted`. -/
structure Recorded where
  handler : Nat
  client : Nat
  outcome : Outcome
  contribution : ℚ
  deriving DecidableEq, Repr

/-- The pool as far as submissions concern it.  A client is known by its place
in the list, one less than its number.  The source does not keep the last
three: the responses, the outcomes and the clients of submissions that were
counted and threw before their event. -/
structure Desk where
  history : History
  miners : List Miner
  network : Network
  shares : Nat
  rejectedShares : Nat
  lastShareAt : Option Nat
  allTimeBestShare : BestShare
  ledger : Ledger
  handlers : List Handler
  responses : List Response
  outcomes : List Recorded
  unconvertible : List Nat

/-- What the event loop may do next. -/
inductive DeskEvent where
  | generateJob (cleanJobs : Bool) (reply : Except String (Option BlockTemplate))
  | network (network : Network)
  | connect (now : Instant)
  | disconnect (client : Nat)
  /-- A request `mining.authorize` with a user name or none. -/
  | authorize (client : Nat) (user : Option CodeUnits)
  /-- A request `mining.authorize` whose user name throws when converted. -/
  | authorizeThrows (client : Nat)
  | suggestDifficulty (client : Nat) (suggested : Option ℚ) (now : Instant)
  | checkIdleMiners (now : Instant)
  /-- A request `mining.submit` with its parameters. -/
  | submit (client : Nat) (requestId : Value) (params : Params) (now : Instant)
  /-- A handler continues after the validation. -/
  | resume (handler : Nat) (now : Instant)
  | verdict (call : Nat) (reply : Except String Value) (now : Instant)
  | proposal (call : Nat) (reply : Except String Value)
  | cleanup (now : Instant)

/-- `computeShareDifficulty`. -/
def computeShareDifficulty (currentDifficulty : ℚ) (shareQuality : Text) : ℚ :=
  let base := (parsePositiveNumber (some currentDifficulty)).getD 0
  let quality := (parsePositiveNumber (decimalNumber shareQuality)).getD 1
  base * quality

namespace Desk

/-- A pool that has just loaded its state. -/
def initial (walletAddress poolTarget : Text) (ledger : Ledger) (best : BestShare) : Desk where
  history := .initial walletAddress poolTarget
  miners := []
  network := ⟨none, .undefined⟩
  shares := 0
  rejectedShares := 0
  lastShareAt := none
  allTimeBestShare := best
  ledger := ledger
  handlers := []
  responses := []
  outcomes := []
  unconvertible := []

/-! ## Requests -/

/-- Change one client. -/
def withMiner (desk : Desk) (client : Nat) (change : Miner → Miner) : Option Desk :=
  desk.miners[client]?.map fun miner => { desk with miners := desk.miners.set client (change miner) }

/-- The handler that a submission starts: it runs up to its first await. -/
def startHandler (deps : Externals) (desk : Desk) (client : Nat) (requestId worker : Value)
    (miner : Miner) (submission : Submission) (now : Instant) : Handler where
  client := client
  requestId := requestId
  worker := worker
  result := validateShare deps desk.history.manager submission now.ms
  settled := false
  checked := (prepare desk.history.manager submission now.ms).toOption
  difficulty := miner.currentDifficulty

/-- The client with one more submission. -/
def countSubmit (miner : Miner) : Miner :=
  { miner with metrics := { miner.metrics with submits := miner.metrics.submits + 1 } }

/-- The client named by the worker of a submission. -/
def nameWorker (worker : Value) (miner : Miner) : Miner :=
  if worker.truthy then
    { miner with workerName := some (sanitizeWorkerName (codeUnits worker.toText)) }
  else miner

/-- `mining.submit`.  An unauthorized client is told so; a job id that throws
ends the request before it is counted, and a worker that throws after it.  So does
the line of `submitAudit` on a length that throws, where there is no worker;
nothing throws in the other lines. -/
def submit (deps : Externals) (hostile : Nat → Bool) (config : DeskConfig) (desk : Desk)
    (client : Nat) (miner : Miner) (requestId : Value) (params : Params) (now : Instant) : Desk :=
  match handleSubmit ⟨miner.authorized, miner.client⟩ params.values? with
  | none => desk
  | some submission =>
      if (jobIdParam params.values?).throwsOn hostile then desk
      else
        let worker := (parseSubmit params.values?).worker
        if worker.truthy && worker.throwsOn hostile ||
            config.submitAudit && params.lengthThrows hostile then
          { desk with
            miners := desk.miners.set client (countSubmit miner)
            unconvertible := desk.unconvertible ++ [client] }
        else
          let named := nameWorker worker (countSubmit miner)
          { desk with
            miners := desk.miners.set client named
            handlers := desk.handlers ++
              [startHandler deps desk client requestId worker named submission now] }

/-! ## The continuation of a handler -/

/-- Respond and record the outcome. -/
def settle (desk : Desk) (place : Nat) (handler : Handler) (reply : Reply) (outcome : Outcome)
    (contribution : ℚ) (miner : Miner) : Desk :=
  { desk with
    handlers := desk.handlers.set place { handler with settled := true }
    responses := desk.responses ++ [⟨place, handler.client, handler.requestId, reply⟩]
    outcomes := desk.outcomes ++ [⟨place, handler.client, outcome, contribution⟩]
    miners := desk.miners.set handler.client miner }

/-- The share was rejected, or the validation threw. -/
def refuse (config : DeskConfig) (desk : Desk) (place : Nat) (handler : Handler) (miner : Miner)
    (code : Nat) (reason : String) (now : Instant) : Desk :=
  desk.settle place handler (.refused code reason) (.rejected reason) 0
    (recordShareOutcome config.shares miner (.rejected reason) now.ms)

/-- The difficulty of the block that was found, if the share is one. -/
def foundDiff (desk : Desk) (share : AcceptedShare) : Option ℚ :=
  if share.isBlock then foundDifficulty desk.network.difficulty share else none

/-- The outcome of an accepted share. -/
def acceptedOutcome (desk : Desk) (share : AcceptedShare) (miner : Miner) : Outcome :=
  .accepted share.hash (computeShareDifficulty miner.currentDifficulty share.shareQuality)
    (desk.foundDiff share) miner.currentDifficulty

/-- The client after an accepted share. -/
def creditMiner (config : DeskConfig) (desk : Desk) (share : AcceptedShare) (miner : Miner)
    (now : Instant) : Miner :=
  let recorded := recordShareOutcome config.shares miner (desk.acceptedOutcome share miner) now.ms
  let noted := recorded.noteAcceptedShare config.shares now.ms
  if share.isBlock then
    { noted with metrics := { noted.metrics with blocksFound := noted.metrics.blocksFound + 1 } }
  else noted

/-- The worker that a handler's share is put down to. -/
def label (handler : Handler) (miner : Miner) : WorkerLabel :=
  workerLabel miner.workerName handler.worker (handler.client + 1)

/-- `allTimeBestShare` after a share. -/
def bestShare (desk : Desk) (handler : Handler) (share : AcceptedShare) (miner : Miner)
    (now : Instant) : BestShare :=
  let effectiveShareDiff := (desk.foundDiff share).getD
    (computeShareDifficulty miner.currentDifficulty share.shareQuality)
  if effectiveShareDiff > desk.allTimeBestShare.difficulty then
    ⟨effectiveShareDiff, some share.hash, some (label handler miner), some now.ms⟩
  else desk.allTimeBestShare

/-- The share was accepted. -/
def credit (config : DeskConfig) (desk : Desk) (place : Nat) (handler : Handler) (miner : Miner)
    (share : AcceptedShare) (now : Instant) : Desk :=
  { desk.settle place handler .accepted (desk.acceptedOutcome share miner)
      (diffContribution miner.currentDifficulty miner.currentDifficulty)
      (desk.creditMiner config share miner now) with
    shares := desk.shares + 1
    lastShareAt := some now.ms
    allTimeBestShare := desk.bestShare handler share miner now
    ledger :=
      if share.isBlock then
        desk.ledger.candidate config.ledger share (label handler miner) (handler.client + 1) now
      else desk.ledger }

theorem credit_history (config : DeskConfig) (desk : Desk) (place : Nat) (handler : Handler)
    (miner : Miner) (share : AcceptedShare) (now : Instant) :
    (desk.credit config place handler miner share now).history = desk.history :=
  rfl

/-- A handler from the end of its await to the next one. -/
def resume (config : DeskConfig) (desk : Desk) (place : Nat) (handler : Handler) (miner : Miner)
    (now : Instant) : Desk :=
  match handler.result with
  | .error _ => desk.refuse config place handler miner 20 "Internal server error" now
  | .ok (.invalid error) =>
      { desk.refuse config place handler miner 23 error now with
        rejectedShares := desk.rejectedShares + 1 }
  | .ok (.valid share) => desk.credit config place handler miner share now

/-! ## The event loop -/

/-- What a verdict finds of the chain. -/
def surroundings (desk : Desk) : Surroundings where
  difficulty := desk.network.difficulty
  blocks := desk.network.blocks
  currentHeight :=
    match desk.history.manager.currentJob with
    | some job => job.height
    | none => .null

/-- A step of the ledger. -/
def withLedger (config : DeskConfig) (desk : Desk) (event : LedgerEvent) : Option Desk :=
  (Ledger.next config.ledger desk.ledger event).map fun ledger => { desk with ledger := ledger }

/-- A handler that waits for its continuation, with its client. -/
def waiting (desk : Desk) (place : Nat) : Option (Handler × Miner) :=
  desk.handlers[place]?.bind fun handler =>
    if handler.settled then none
    else desk.miners[handler.client]?.map fun miner => (handler, miner)

/-- The event loop. -/
def next (deps : Externals) (hostile : Nat → Bool) (config : DeskConfig) : Next Desk DeskEvent
  | desk, .generateJob cleanJobs reply =>
      some { desk with history := desk.history.perform deps (.generateJob cleanJobs reply) }
  | desk, .network network => some { desk with network := network }
  | desk, .connect now =>
      some { desk with
        miners := desk.miners ++ [.connected config.shares (desk.miners.length + 1) now.ms] }
  | desk, .disconnect client => desk.withMiner client fun miner => { miner with listed := false }
  | desk, .authorize client user => desk.withMiner client (Miner.authorize (client + 1) user)
  | desk, .authorizeThrows client =>
      desk.withMiner client fun miner => { miner with authorized := true }
  | desk, .suggestDifficulty client suggested now =>
      desk.withMiner client (Miner.suggestDifficulty config.shares suggested now.ms)
  | desk, .checkIdleMiners now =>
      some (if config.shares.vardiff.enabled then
        { desk with miners := desk.miners.map (Miner.checkIdle config.shares now.ms) }
      else desk)
  | desk, .submit client requestId params now =>
      desk.miners[client]?.map fun miner =>
        desk.submit deps hostile config client miner requestId params now
  | desk, .resume place now =>
      (desk.waiting place).map fun (handler, miner) => desk.resume config place handler miner now
  | desk, .verdict call reply now =>
      desk.withLedger config (.verdict call reply desk.surroundings now)
  | desk, .proposal call reply => desk.withLedger config (.proposal call reply)
  | desk, .cleanup now => desk.withLedger config (.cleanup now)

/-! ## What a step can do -/

theorem waiting_eq_some_iff {desk : Desk} {place : Nat} {handler : Handler} {miner : Miner} :
    desk.waiting place = some (handler, miner) ↔ desk.handlers[place]? = some handler ∧
      handler.settled = false ∧ desk.miners[handler.client]? = some miner := by
  unfold waiting
  rw [Option.bind_eq_some_iff]
  constructor
  · rintro ⟨other, found, rest⟩
    split at rest
    · contradiction
    · next open' =>
        obtain ⟨present, client, same⟩ := Option.map_eq_some_iff.mp rest
        obtain ⟨rfl, rfl⟩ := Prod.mk.inj same
        exact ⟨found, Bool.eq_false_iff.mpr open', client⟩
  · rintro ⟨found, open', client⟩
    refine ⟨handler, found, ?_⟩
    rw [open', client]
    rfl

theorem next_resume {deps : Externals} {hostile : Nat → Bool} {config : DeskConfig}
    {desk target : Desk} {place : Nat} {now : Instant}
    (step : next deps hostile config desk (.resume place now) = some target) :
    ∃ handler miner, desk.handlers[place]? = some handler ∧ handler.settled = false ∧
      desk.miners[handler.client]? = some miner ∧
      target = desk.resume config place handler miner now := by
  obtain ⟨⟨handler, miner⟩, waits, rfl⟩ := Option.map_eq_some_iff.mp step
  rcases waiting_eq_some_iff.mp waits with ⟨found, open', client⟩
  exact ⟨handler, miner, found, open', client, rfl⟩

/-- A handler whose share was accepted continues. -/
theorem next_resume_of_valid {deps : Externals} {hostile : Nat → Bool} {config : DeskConfig}
    {desk : Desk} {place : Nat} {handler : Handler} {miner : Miner} {share : AcceptedShare}
    (found : desk.handlers[place]? = some handler) (open' : handler.settled = false)
    (present : desk.miners[handler.client]? = some miner)
    (valid : handler.result = .ok (.valid share)) (now : Instant) :
    next deps hostile config desk (.resume place now) =
      some (desk.credit config place handler miner share now) := by
  rw [next, waiting_eq_some_iff.mpr ⟨found, open', present⟩, Option.map_some]
  dsimp only
  rw [resume, valid]

/-- The request of an authorized client whose parameters parse. -/
def parses (hostile : Nat → Bool) (miner : Miner) (params : Params) : Bool :=
  miner.authorized && !(jobIdParam params.values?).throwsOn hostile

/-- The worker is converted to a string, and that throws. -/
def workerThrows (hostile : Nat → Bool) (params : Params) : Bool :=
  let worker := (parseSubmit params.values?).worker
  worker.truthy && worker.throwsOn hostile

/-- A request that is counted and not handled: its worker throws, or the line of
the audit with its length. -/
def Loses (hostile : Nat → Bool) (config : DeskConfig) (miner : Miner) (params : Params) : Prop :=
  parses hostile miner params = true ∧
    (workerThrows hostile params || config.submitAudit && params.lengthThrows hostile) = true

instance (hostile : Nat → Bool) (config : DeskConfig) (miner : Miner) (params : Params) :
    Decidable (Loses hostile config miner params) :=
  inferInstanceAs (Decidable (_ ∧ _))

theorem handleSubmit_of_parses {hostile : Nat → Bool} {miner : Miner} {params : Params}
    (parsed : parses hostile miner params = true) :
    (jobIdParam params.values?).throwsOn hostile = false ∧ ∃ submission,
      handleSubmit ⟨miner.authorized, miner.client⟩ params.values? = some submission := by
  rw [parses, Bool.and_eq_true_iff, Bool.not_eq_true'] at parsed
  refine ⟨parsed.2, ?_⟩
  rw [handleSubmit, parsed.1]
  exact ⟨_, rfl⟩

/-- A submission of an array without a worker keeps the client's name. -/
theorem submit_of_unnamed {deps : Externals} {hostile : Nat → Bool} {config : DeskConfig}
    {desk : Desk} {client : Nat} {miner : Miner} {requestId : Value} {values : List Value}
    {now : Instant} {submission : Submission}
    (submitted : handleSubmit ⟨miner.authorized, miner.client⟩ (some values) = some submission)
    (converts : (jobIdParam (some values)).throwsOn hostile = false)
    (unnamed : (parseSubmit (some values)).worker.truthy = false) :
    desk.submit deps hostile config client miner requestId (.array values) now =
      { desk with
        miners := desk.miners.set client (countSubmit miner)
        handlers := desk.handlers ++ [desk.startHandler deps client requestId
          (parseSubmit (some values)).worker (countSubmit miner) submission now] } := by
  unfold submit
  rw [Params.values?, submitted]
  dsimp only
  rw [converts, if_neg Bool.false_ne_true, nameWorker, unnamed, Params.lengthThrows, Bool.and_false]
  rfl

/-- A submission changes nothing, is counted and lost, or starts a handler. -/
theorem submit_cases (deps : Externals) (hostile : Nat → Bool) (config : DeskConfig) (desk : Desk)
    (client : Nat) (miner : Miner) (requestId : Value) (params : Params) (now : Instant) :
    (parses hostile miner params = false ∧
      desk.submit deps hostile config client miner requestId params now = desk) ∨
    (Loses hostile config miner params ∧
      desk.submit deps hostile config client miner requestId params now =
        { desk with
          miners := desk.miners.set client (countSubmit miner)
          unconvertible := desk.unconvertible ++ [client] }) ∨
    (parses hostile miner params = true ∧ ¬Loses hostile config miner params ∧
      ∃ submission workerName,
        handleSubmit ⟨miner.authorized, miner.client⟩ params.values? = some submission ∧
        let named := { countSubmit miner with workerName := workerName }
        desk.submit deps hostile config client miner requestId params now =
          { desk with
            miners := desk.miners.set client named
            handlers := desk.handlers ++ [desk.startHandler deps client requestId
              (parseSubmit params.values?).worker named submission now] }) := by
  unfold submit
  cases parsed : parses hostile miner params with
  | false =>
      refine Or.inl ⟨rfl, ?_⟩
      split
      · rfl
      · next submission submitted =>
          have authorized : miner.authorized = true := by
            by_contra unauthorized
            simp [handleSubmit, unauthorized] at submitted
          rw [parses, authorized, Bool.true_and, Bool.not_eq_false'] at parsed
          rw [if_pos parsed]
  | true =>
      obtain ⟨converts, submission, submitted⟩ := handleSubmit_of_parses parsed
      rw [submitted]
      dsimp only
      rw [converts, if_neg Bool.false_ne_true]
      by_cases loses : Loses hostile config miner params
      · exact Or.inr (Or.inl ⟨loses, if_pos loses.2⟩)
      · have passes : (workerThrows hostile params ||
            config.submitAudit && params.lengthThrows hostile) = false := by
          rw [← Bool.not_eq_true]
          exact fun throws => loses ⟨parsed, throws⟩
        unfold workerThrows at passes
        dsimp only at passes
        rw [passes, if_neg Bool.false_ne_true, nameWorker]
        refine Or.inr (Or.inr ⟨rfl, loses, submission, ?_⟩)
        split
        · exact ⟨_, rfl, rfl⟩
        · exact ⟨miner.workerName, rfl, rfl⟩

/-! ## The ledger inside the desk -/

/-- What an event of the desk is for the ledger. -/
def ledgerEvent (desk : Desk) : DeskEvent → Option LedgerEvent
  | .resume place now =>
      (desk.waiting place).bind fun (handler, miner) =>
        match handler.result with
        | .ok (.valid share) =>
            if share.isBlock then
              some (.candidate share (label handler miner) (handler.client + 1) now)
            else none
        | _ => none
  | .verdict call reply now => some (.verdict call reply desk.surroundings now)
  | .proposal call reply => some (.proposal call reply)
  | .cleanup now => some (.cleanup now)
  | _ => none

theorem ledgerEvent_resume_of_block {desk : Desk} {place : Nat} {handler : Handler} {miner : Miner}
    {share : AcceptedShare} (found : desk.handlers[place]? = some handler)
    (open' : handler.settled = false) (present : desk.miners[handler.client]? = some miner)
    (valid : handler.result = .ok (.valid share)) (isBlock : share.isBlock = true)
    (now : Instant) :
    desk.ledgerEvent (.resume place now) =
      some (.candidate share (label handler miner) (handler.client + 1) now) := by
  rw [ledgerEvent, waiting_eq_some_iff.mpr ⟨found, open', present⟩, Option.bind_some]
  dsimp only
  rw [valid]
  exact if_pos isBlock

/-- What a resumed handler brings to the ledger is a block. -/
theorem exists_candidate_of_ledgerEvent {desk : Desk} {place : Nat} {now : Instant}
    {part : LedgerEvent} (seen : desk.ledgerEvent (.resume place now) = some part) :
    ∃ share worker minerId, part = .candidate share worker minerId now := by
  rcases Option.bind_eq_some_iff.mp seen with ⟨⟨handler, miner⟩, _, candidate⟩
  dsimp only at candidate
  split at candidate
  · split at candidate
    · cases candidate
      exact ⟨_, _, _, rfl⟩
    · contradiction
  · contradiction

theorem withLedger_eq_some {config : DeskConfig} {desk target : Desk} {event : LedgerEvent}
    (step : desk.withLedger config event = some target) :
    Ledger.next config.ledger desk.ledger event = some target.ledger := by
  obtain ⟨ledger, moved, rfl⟩ := Option.map_eq_some_iff.mp step
  exact moved

theorem withMiner_ledger {desk target : Desk} {client : Nat} {change : Miner → Miner}
    (step : desk.withMiner client change = some target) : target.ledger = desk.ledger := by
  obtain ⟨miner, _, rfl⟩ := Option.map_eq_some_iff.mp step
  rfl

/-- The continuation of a handler as the ledger sees it. -/
theorem resume_ledger (config : DeskConfig) (desk : Desk) (place : Nat) (handler : Handler)
    (miner : Miner) (now : Instant) :
    (desk.resume config place handler miner now).ledger =
      match handler.result with
      | .ok (.valid share) =>
          if share.isBlock then
            desk.ledger.candidate config.ledger share (label handler miner) (handler.client + 1) now
          else desk.ledger
      | _ => desk.ledger := by
  unfold resume
  rcases handler.result with message | (share | error) <;> rfl

/-- Seen from the blocks, the desk is the ledger. -/
theorem projects_ledger (deps : Externals) (hostile : Nat → Bool) (config : DeskConfig) :
    Projects (next deps hostile config) (Ledger.next config.ledger) Desk.ledger ledgerEvent where
  moves := by
    intro desk target event partEvent step seen
    cases event with
    | resume place now =>
        obtain ⟨handler, miner, found, open', client, rfl⟩ := next_resume step
        rw [ledgerEvent, waiting_eq_some_iff.mpr ⟨found, open', client⟩, Option.bind_some] at seen
        dsimp only at seen
        rw [resume_ledger]
        split at seen
        · split at seen
          · next isBlock =>
              cases seen
              rw [if_pos isBlock]
              rfl
          · contradiction
        · contradiction
    | verdict call reply now =>
        cases seen
        exact withLedger_eq_some step
    | proposal call reply =>
        cases seen
        exact withLedger_eq_some step
    | cleanup now =>
        cases seen
        exact withLedger_eq_some step
    | _ => contradiction
  stays := by
    intro desk target event step unseen
    cases event with
    | resume place now =>
        obtain ⟨handler, miner, found, open', client, rfl⟩ := next_resume step
        rw [ledgerEvent, waiting_eq_some_iff.mpr ⟨found, open', client⟩, Option.bind_some] at unseen
        dsimp only at unseen
        rw [resume_ledger]
        split at unseen
        · split at unseen
          · contradiction
          · next notBlock => exact if_neg notBlock
        · rfl
    | submit client requestId params now =>
        obtain ⟨miner, _, rfl⟩ := Option.map_eq_some_iff.mp step
        rcases submit_cases deps hostile config desk client miner requestId params now with
          ⟨_, same⟩ | ⟨_, lost⟩ | ⟨_, _, submission, workerName, _, started⟩
        · rw [same]
        · rw [lost]
        · rw [started]
    | generateJob cleanJobs reply =>
        cases step
        rfl
    | network network =>
        cases step
        rfl
    | connect now =>
        cases step
        rfl
    | disconnect client => exact withMiner_ledger step
    | authorize client user => exact withMiner_ledger step
    | authorizeThrows client => exact withMiner_ledger step
    | suggestDifficulty client suggested now => exact withMiner_ledger step
    | checkIdleMiners now =>
        cases step
        split <;> rfl
    | _ => contradiction

end Desk

end ZcashSoloPool.Pool
