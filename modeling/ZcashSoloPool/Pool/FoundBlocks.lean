import ZcashSoloPool.Pool.ShareAccounting

/-!
# Found blocks

What the ledger of blocks guarantees, for the runs of the whole pool: the
counters of found blocks, the spacing of calls, the calls after a failure and
the balance of the ledger.
-/

namespace ZcashSoloPool.Pool

open ZcashSoloPool.JavaScript
open ZcashSoloPool.Stratum
open ZcashSoloPool.Transition
open ZcashSoloPool.WorkManager

namespace Desk

variable {deps : Externals} {hostile : Nat → Bool} {config : DeskConfig}
  {walletAddress poolTarget : Text} {loaded : Ledger} {best : BestShare} {events : List DeskEvent}
  {desk : Desk}

/-! ## Laws of the ledger in the pool -/

/-- The clock does not go back, as far as blocks are concerned. -/
def Forward : Desk → DeskEvent → Prop :=
  Lifted ledgerEvent Desk.ledger Ledger.Forward

/-- No block is found while the entry of its hash is younger than the window. -/
def Unsuppressed (config : DeskConfig) : Desk → DeskEvent → Prop :=
  Lifted ledgerEvent Desk.ledger (Ledger.Unsuppressed config.ledger)

/-- A block whose calls all threw is forwarded to the node when its share is
accepted again. -/
def AsksAgain (config : DeskConfig) : Desk → DeskEvent → Prop :=
  Lifted ledgerEvent Desk.ledger (Ledger.AsksAgain config.ledger)

/-- A share of a block whose calls all threw is accepted again only when each
of them is a window old, and its bits are a string. -/
def Patient (config : DeskConfig) : Desk → DeskEvent → Prop :=
  Lifted ledgerEvent Desk.ledger (Ledger.Patient config.ledger)

/-- The reading of the clock that an event may bring to the ledger. -/
def reading : DeskEvent → Option Instant
  | .resume _ now => some now
  | .cleanup now => some now
  | _ => none

theorem reading_of_ledgerEvent {desk : Desk} {event : DeskEvent} {part : LedgerEvent}
    (seen : ledgerEvent desk event = some part) {now : Instant}
    (read : Ledger.reading part = some now) : reading event = some now := by
  cases event with
  | resume place then' =>
      obtain ⟨share, worker, minerId, rfl⟩ := exists_candidate_of_ledgerEvent seen
      exact read
  | cleanup then' =>
      cases seen
      exact read
  | verdict call reply then' =>
      cases seen
      contradiction
  | proposal call reply =>
      cases seen
      contradiction
  | _ => contradiction

/-- Readings in order do not go back. -/
theorem forward_of_sorted {start : Desk}
    (sorted : (events.filterMap reading).Pairwise fun earlier later => earlier.ms ≤ later.ms)
    (begun : ∀ now ∈ events.filterMap reading, start.ledger.clock ≤ now.ms) :
    Throughout (next deps hostile config) Forward start events := by
  induction events generalizing start with
  | nil => exact trivial
  | cons event rest ih =>
      have projects := projects_ledger deps hostile config
      have later : ∀ now ∈ rest.filterMap reading, now ∈ (event :: rest).filterMap reading := by
        intro now member
        rw [List.filterMap_cons]
        split
        · exact member
        · exact List.mem_cons_of_mem _ member
      refine ⟨fun part seen now read => begun now ?_, fun target step => ih ?_ ?_⟩
      · rw [List.filterMap_cons, reading_of_ledgerEvent seen read]
        exact List.mem_cons_self
      · rw [List.filterMap_cons] at sorted
        split at sorted
        · exact sorted
        · exact (List.pairwise_cons.mp sorted).2
      · intro now member
        cases seen : ledgerEvent start event with
        | none =>
            rw [projects.stays step seen]
            exact begun now (later now member)
        | some part =>
            rcases Ledger.clock_next (projects.moves step seen) with same | ⟨read, isRead, moved⟩
            · rw [same]
              exact begun now (later now member)
            · rw [List.filterMap_cons, reading_of_ledgerEvent seen isRead] at sorted
              rw [moved]
              exact (List.pairwise_cons.mp sorted).1 now member

/-! ## Spacing of calls -/

/-- While the clock does not go back, calls for the same hash are at least a
window apart, and what the cleanup removes suppresses nothing any more. -/
theorem calls_spaced (fresh : Ledger.Fresh loaded)
    (forward : Throughout (next deps hostile config) Forward
      (initial walletAddress poolTarget loaded best) events)
    (reached : run (next deps hostile config) (initial walletAddress poolTarget loaded best)
      events = some desk) :
    Ledger.Spaced config.ledger desk.ledger.callStamps ∧
      ∀ (now later prev : Instant) (key : Text),
        desk.ledger.recentBlockSubmissions.get? key = some prev →
        (desk.ledger.cleanup config.ledger now).recentBlockSubmissions.get? key = none →
        now.ms ≤ later.ms → ¬Suppresses config.ledger later prev := by
  have projects := projects_ledger deps hostile config
  constructor
  · exact Ledger.spaced_of_run fresh ((projects.throughout_iff _ _ _).mp forward)
      (projects.run reached)
  · intro now later prev key present removed notEarlier
    exact Ledger.not_suppresses_of_cleanup present removed notEarlier

/-! ## Counters of found blocks -/

/-- The blocks that the clients found. -/
def blocksFound (desk : Desk) : Nat :=
  (desk.miners.map fun miner => miner.metrics.blocksFound).sum

/-- Within a window each hash increases the counters at most once. -/
structure CountedOnce (config : DeskConfig) (loaded : Ledger) (desk : Desk) : Prop where
  blockCandidates :
    desk.ledger.blockCandidates = loaded.blockCandidates + desk.ledger.found.length
  blocksFound : desk.blocksFound = desk.ledger.found.length
  spaced : Ledger.Spaced config.ledger desk.ledger.foundStamps

/-- A change of one client. -/
theorem sum_map_set {α : Type} {entries : List α} {place : Nat} {old : α} (new : α)
    (image : α → Nat) (present : entries[place]? = some old) :
    ((entries.set place new).map image).sum + image old = (entries.map image).sum + image new := by
  induction entries generalizing place with
  | nil => simp at present
  | cons entry rest ih =>
      cases place with
      | zero =>
          cases present
          simp only [List.set_cons_zero, List.map_cons, List.sum_cons]
          omega
      | succ place =>
          have later := @ih place present
          simp only [List.set_cons_succ, List.map_cons, List.sum_cons]
          omega

theorem blocksFound_eq (desk : Desk) :
    desk.blocksFound = (desk.accounts.map fun account => account.1.blocksFound).sum := by
  rw [blocksFound, accounts, List.map_map]
  rfl

/-- Other steps find nothing. -/
theorem length_found_quiet {desk target : Desk} {event : DeskEvent}
    (step : next deps hostile config desk event = some target) (quiet : Quiet event) :
    target.ledger.found.length = desk.ledger.found.length := by
  have projects := projects_ledger deps hostile config
  cases event with
  | submit client requestId params now => exact absurd quiet id
  | resume place now => exact absurd quiet id
  | verdict call reply now => exact Ledger.length_found_next (projects.moves step rfl)
  | proposal call reply => exact Ledger.length_found_next (projects.moves step rfl)
  | cleanup now => exact Ledger.length_found_next (projects.moves step rfl)
  | _ => exact congrArg (fun ledger => ledger.found.length) (projects.stays step rfl)

/-- The clients find what the ledger counts. -/
theorem blocksFound_next {desk target : Desk} {event : DeskEvent}
    (step : next deps hostile config desk event = some target) :
    target.blocksFound + desk.ledger.found.length =
      desk.blocksFound + target.ledger.found.length := by
  cases event with
  | submit client requestId params now =>
      obtain ⟨miner, present, rfl⟩ := Option.map_eq_some_iff.mp step
      rcases submit_cases deps hostile config desk client miner requestId params now with
        ⟨_, same⟩ | ⟨_, lost⟩ | ⟨_, _, submission, workerName, _, started⟩
      · rw [same]
      · rw [lost]
        exact congrArg (· + _) (congrArg List.sum (map_set_of_eq present rfl))
      · rw [started]
        exact congrArg (· + _) (congrArg List.sum (map_set_of_eq present rfl))
  | resume place now =>
      obtain ⟨handler, miner, found, _, present, rfl⟩ := next_resume step
      have refused : ∀ code reason, (desk.refuse config place handler miner code reason
          now).blocksFound = desk.blocksFound := fun code reason =>
        congrArg List.sum (map_set_of_eq present
          (counts_recordShareOutcome config.shares miner (.rejected reason) now.ms).blocksFound)
      unfold resume
      split
      · exact congrArg (· + _) (refused 20 _)
      · next error _ => exact congrArg (· + _) (refused 23 error)
      · next share _ =>
          have sums := sum_map_set (desk.creditMiner config share miner now)
            (fun miner => miner.metrics.blocksFound) present
          have credited := (account_creditMiner config desk share miner now).2.1
          have counted : (desk.credit config place handler miner share now).ledger.found.length =
              desk.ledger.found.length + if share.isBlock then 1 else 0 := by
            have step : Ledger.next config.ledger desk.ledger
                (.candidate share (label handler miner) (handler.client + 1) now) = some _ := rfl
            unfold credit
            dsimp only
            split
            · exact Ledger.length_found_next step
            · rfl
          have total : (desk.credit config place handler miner share now).blocksFound +
              miner.metrics.blocksFound = desk.blocksFound +
                (desk.creditMiner config share miner now).metrics.blocksFound := sums
          rw [counted]
          omega
  | _ =>
      have same := next_quiet step trivial
      rw [length_found_quiet step trivial, blocksFound_eq, blocksFound_eq]
      rcases same.accounts with equal | added
      · rw [equal]
      · rw [added, List.map_append, List.sum_append]
        rfl

theorem blocksFound_of_run (fresh : Ledger.Fresh loaded)
    (reached : run (next deps hostile config) (initial walletAddress poolTarget loaded best)
      events = some desk) : desk.blocksFound = desk.ledger.found.length := by
  refine run_invariant (fun desk => desk.blocksFound = desk.ledger.found.length) ?_ ?_ reached
  · intro desk target event equal step
    have moved := blocksFound_next step
    omega
  · exact (congrArg List.length fresh.found).symm

/-- While the clock does not go back, each hash increases the counters at most
once in a window unless a block is found while the entry of its hash is young;
and where that happens, it increases them more often. -/
theorem countedOnce_of_unsuppressed (fresh : Ledger.Fresh loaded)
    (reached : run (next deps hostile config) (initial walletAddress poolTarget loaded best)
      events = some desk) :
    (Throughout (next deps hostile config)
        (fun desk event => Forward desk event ∧ Unsuppressed config desk event)
        (initial walletAddress poolTarget loaded best) events →
      CountedOnce config loaded desk) ∧
    (CountedOnce config loaded desk →
      Throughout (next deps hostile config) (Unsuppressed config)
        (initial walletAddress poolTarget loaded best) events) := by
  have projects := projects_ledger deps hostile config
  have reachedLedger := projects.run reached
  constructor
  · intro lawful
    refine ⟨Ledger.blockCandidates_of_run fresh reachedLedger, blocksFound_of_run fresh reached, ?_⟩
    have lifted := projects.throughout_iff
      (fun ledger event => ledger.Forward event ∧ ledger.Unsuppressed config.ledger event)
      (initial walletAddress poolTarget loaded best) events
    refine Ledger.spaced_of_unsuppressed fresh reachedLedger (lifted.mp ?_)
    refine (throughout_of_forall (fun _ _ => trivial) _ events).mono (fun _ => True)
      (fun _ (_ : True) _ => trivial) ?_ trivial lawful
    exact fun desk event _ _ both ledgerEvent seen =>
      ⟨both.1 ledgerEvent seen, both.2 ledgerEvent seen⟩
  · intro counted
    exact (projects.throughout_iff _ _ _).mpr
      (Ledger.unsuppressed_of_spaced fresh reachedLedger counted.spaced)

/-! ## Calls after a failure -/

/-- Where every share of a block whose calls all threw comes a window after
them, the node is asked again each time; and while the clock does not go back,
only there. -/
theorem asksAgain_of_patient (fresh : Ledger.Fresh loaded) :
    (Throughout (next deps hostile config) (Patient config)
        (initial walletAddress poolTarget loaded best) events →
      Throughout (next deps hostile config) (AsksAgain config)
        (initial walletAddress poolTarget loaded best) events) ∧
    (Throughout (next deps hostile config) Forward
        (initial walletAddress poolTarget loaded best) events →
      Throughout (next deps hostile config) (AsksAgain config)
        (initial walletAddress poolTarget loaded best) events →
      Throughout (next deps hostile config) (Patient config)
        (initial walletAddress poolTarget loaded best) events) := by
  have lifts := fun law => (projects_ledger deps hostile config).throughout_iff law
    (initial walletAddress poolTarget loaded best) events
  constructor
  · exact fun patient =>
      (lifts _).mpr (Ledger.asksAgain_of_patient_ledger fresh ((lifts _).mp patient))
  · exact fun forward asksAgain => (lifts _).mpr
      (Ledger.patient_of_asksAgain fresh ((lifts _).mp forward) ((lifts _).mp asksAgain))

/-! ## The balance of the ledger -/

theorem fresh_freshExample : Ledger.Fresh freshExample.ledger :=
  ⟨rfl, rfl, rfl, rfl, rfl⟩

/-- On the easiest target of the network every share is a block, and its bits
are a string. -/
theorem block_of_easiestTarget {share : AcceptedShare}
    (accepted : acceptShare packagesExample (overlongContext easiestTarget)
      (overlongCandidate easiestTarget).headerBuf
      (overlongCandidate easiestTarget).solution.solutionFieldHex = .ok (.valid share)) :
    share.isBlock = true ∧ preflightThrows share = false := by
  rcases acceptShare_eq_valid accepted with ⟨_, hash, isBlock, _⟩
  constructor
  · rw [isBlock, hash]
    exact decide_eq_true (hexNumber_hashText_le packagesExample _)
  · have bits : (overlongContext easiestTarget).job.nbits = .string "1f07ffff".toList := rfl
    rw [preflightThrows, jobNbits_of_acceptShare accepted, bits]
    exact Bool.and_false _

/-- The submission of a block waits, and its handler will credit it. -/
theorem exists_block_handlerExample : ∃ share,
    (handlerExample configExample easiestTarget).result = .ok (.valid share) ∧
      share.isBlock = true ∧ preflightThrows share = false := by
  obtain ⟨share, valid, _, accepted⟩ := exists_share_handlerExample configExample easiestTarget
    (by decide) (List.cons_ne_nil _ _) easiest_configExample
  exact ⟨share, valid, block_of_easiestTarget accepted⟩

theorem suppresses_configExample : Suppresses configExample.ledger noon noon := by
  have window : configExample.ledger.blockSubmitDedupWindowMs = 120000 := rfl
  rw [Suppresses, window, sub_self]
  norm_num

/-- A block that is submitted twice is counted twice. -/
theorem not_countedOnce_eventsTwice :
    ¬∀ (deps : Externals) (hostile : Nat → Bool) (config : DeskConfig)
        (walletAddress poolTarget : Text) (loaded : Ledger) (best : BestShare)
        (events : List DeskEvent) (desk : Desk), Ledger.Fresh loaded →
      run (next deps hostile config) (initial walletAddress poolTarget loaded best) events =
        some desk → CountedOnce config loaded desk := by
  intro once
  obtain ⟨share, valid, isBlock, _⟩ := exists_block_handlerExample
  obtain ⟨desk, reached, _, ledgers⟩ := run_eventsTwice (fun _ => false) valid
  obtain ⟨first, second, ledger⟩ := ledgers isBlock
  have spaced := (once _ _ _ _ _ _ _ _ _ fresh_freshExample reached).spaced
  rw [ledger, Ledger.foundStamps_candidate, Ledger.foundStamps_candidate, Ledger.spaced_concat]
    at spaced
  have apart := spaced.2 _ (List.mem_append_right _ (List.mem_singleton_self _)) rfl
  exact Ledger.apart_iff_not_suppresses.mp apart suppresses_configExample

/-- The job, the client and the submission are nothing to the ledger. -/
theorem projected_readyEvents {next : Next Desk DeskEvent} {start middle : Desk}
    (reached : run next start (readyEvents easiestTarget ++ [submitExample]) = some middle)
    (rest : List DeskEvent) :
    projected next ledgerEvent start (readyEvents easiestTarget ++ [submitExample] ++ rest) =
      projected next ledgerEvent middle rest := by
  have silent : ∀ event ∈ readyEvents easiestTarget ++ [submitExample],
      ∀ desk, ledgerEvent desk event = none :=
    forall_waitingEvents easiestTarget (fun _ _ => rfl) (fun _ => rfl) (fun _ => rfl) fun _ => rfl
  rw [projected_append reached, projected_of_silent silent, List.nil_append]

/-- The submission, its block and a failure of the node before the share is
submitted again. -/
def eventsAgain : List DeskEvent :=
  readyEvents easiestTarget ++ [submitExample] ++
    [submitExample, .resume 0 noon, .verdict 0 (.error "socket hang up") noon, .resume 1 noon]

/-- The ledger sees the candidate, the failure and the candidate again. -/
theorem projected_eventsAgain {share : AcceptedShare}
    (valid : (handlerExample configExample easiestTarget).result = .ok (.valid share))
    (isBlock : share.isBlock = true) (passes : preflightThrows share = false) :
    ∃ first around second,
      projected (next packagesExample (fun _ => false) configExample) ledgerEvent freshExample
          eventsAgain =
        [.candidate share first 1 noon, .verdict 0 (.error "socket hang up") around noon,
          .candidate share second 1 noon] := by
  let config := configExample
  let handler := handlerExample config easiestTarget
  let twice := countSubmit (countSubmit (minerExample config))
  let credited := (waitingTwice config easiestTarget).creditMiner config share twice noon
  let once := (waitingTwice config easiestTarget).credit config 0 handler twice share noon
  let call : BlockCall :=
    ⟨normalizeBlockKey share.hash, noon, share, label handler twice, 1, .pending, false⟩
  let failed := { once with
    ledger := (freshExample.ledger.candidate config.ledger share (label handler twice) 1
      noon).verdict config.ledger 0 call (.error "socket hang up") once.surroundings noon }
  have onceLedger : once.ledger = freshExample.ledger.candidate config.ledger share
      (label handler twice) 1 noon := if_pos isBlock
  have submitted : ledgerEvent (waitingExample config easiestTarget) submitExample = none := rfl
  have first : next packagesExample (fun _ => false) config (waitingTwice config easiestTarget)
      (.resume 0 noon) = some once := next_resume_of_valid rfl rfl rfl valid noon
  have firstSeen : ledgerEvent (waitingTwice config easiestTarget) (.resume 0 noon) =
      some (.candidate share (label handler twice) 1 noon) :=
    ledgerEvent_resume_of_block rfl rfl rfl valid isBlock noon
  have failure : next packagesExample (fun _ => false) config once
      (.verdict 0 (.error "socket hang up") noon) = some failed := by
    refine Option.map_eq_some_iff.mpr ⟨_, ?_, rfl⟩
    rw [onceLedger]
    exact fresh_freshExample.next_verdict config.ledger passes _ 1 noon _ _ noon
  have failureSeen : ledgerEvent once (.verdict 0 (.error "socket hang up") noon) =
      some (.verdict 0 (.error "socket hang up") once.surroundings noon) := rfl
  have secondSeen : ledgerEvent failed (.resume 1 noon) =
      some (.candidate share (label handler credited) 1 noon) :=
    ledgerEvent_resume_of_block rfl rfl rfl valid isBlock noon
  refine ⟨label handler twice, once.surroundings, label handler credited, ?_⟩
  rw [eventsAgain, projected_readyEvents (run_waitingExample config _ easiestTarget),
    projected_cons (next_waitingExample config _ easiestTarget), submitted, projected_cons first,
    firstSeen, projected_cons failure, failureSeen, projected_singleton, secondSeen]
  rfl

/-- A submission that failed is not repeated within the window. -/
theorem not_asksAgain_eventsAgain :
    ¬∀ (deps : Externals) (hostile : Nat → Bool) (config : DeskConfig)
        (walletAddress poolTarget : Text) (loaded : Ledger) (best : BestShare)
        (events : List DeskEvent), Ledger.Fresh loaded →
      Throughout (next deps hostile config) (AsksAgain config)
        (initial walletAddress poolTarget loaded best) events := by
  intro always
  obtain ⟨share, valid, isBlock, passes⟩ := exists_block_handlerExample
  obtain ⟨first, around, second, seen⟩ := projected_eventsAgain valid isBlock passes
  have asks : Throughout (next packagesExample (fun _ => false) configExample)
      (AsksAgain configExample) freshExample eventsAgain :=
    always packagesExample (fun _ => false) configExample walletExample easiestTarget
      freshExample.ledger ⟨0, none, none, none⟩ eventsAgain fresh_freshExample
  rw [AsksAgain, (projects_ledger packagesExample (fun _ => false) configExample).throughout_iff,
    seen] at asks
  have afterCandidate := asks.2 _ rfl
  have afterFailure := afterCandidate.2 _ (fresh_freshExample.next_verdict configExample.ledger
    passes first 1 noon _ around noon)
  exact fresh_freshExample.not_asksAgain passes first 1 suppresses_configExample _ around second 1
    afterFailure.1

/-! ## One block and the node's verdict -/

/-- The submission of a block. -/
def eventsOnce : List DeskEvent :=
  readyEvents easiestTarget ++ [submitExample] ++ [.resume 0 noon]

theorem run_eventsOnce {share : AcceptedShare}
    (valid : (handlerExample configExample easiestTarget).result = .ok (.valid share)) :
    run (next packagesExample (fun _ => false) configExample) freshExample eventsOnce =
      some (creditedExample configExample easiestTarget share) := by
  rw [eventsOnce, run_creditedExample _ valid]

theorem history_creditedExample (share : AcceptedShare) :
    (creditedExample configExample easiestTarget share).history =
      .after packagesExample walletExample easiestTarget (callsExample easiestTarget) := by
  rw [creditedExample, credit_history, waitingExample, history_readyExample]

/-- The ledger after it. -/
theorem ledger_creditedExample {share : AcceptedShare} (isBlock : share.isBlock = true) :
    (creditedExample configExample easiestTarget share).ledger =
      freshExample.ledger.candidate configExample.ledger share
        (label (handlerExample configExample easiestTarget)
          (countSubmit (minerExample configExample))) 1 noon :=
  if_pos isBlock

theorem projected_eventsOnce {share : AcceptedShare}
    (valid : (handlerExample configExample easiestTarget).result = .ok (.valid share))
    (isBlock : share.isBlock = true) :
    projected (next packagesExample (fun _ => false) configExample) ledgerEvent freshExample
        eventsOnce =
      [.candidate share (label (handlerExample configExample easiestTarget)
        (countSubmit (minerExample configExample))) 1 noon] := by
  rw [eventsOnce, projected_readyEvents (run_waitingExample configExample _ easiestTarget),
    projected_singleton, ledgerEvent_resume_of_block rfl rfl rfl valid isBlock noon]
  rfl

/-- The node answers the call, which concerns the ledger only. -/
theorem exists_next_verdict_creditedExample {share : AcceptedShare} (isBlock : share.isBlock = true)
    (passes : preflightThrows share = false) (reply : Except String Value) :
    ∃ ledger, next packagesExample (fun _ => false) configExample
        (creditedExample configExample easiestTarget share) (.verdict 0 reply noon) =
      some { creditedExample configExample easiestTarget share with ledger := ledger } := by
  rw [next, withLedger, ledger_creditedExample isBlock,
    fresh_freshExample.next_verdict configExample.ledger passes]
  exact ⟨_, rfl⟩

/-- Without vardiff, an accepted share leaves a client what it validates with. -/
theorem creditMiner_of_disabled {config : DeskConfig}
    (disabled : config.shares.vardiff.enabled = false) (desk : Desk) (share : AcceptedShare)
    (miner : Miner) (now : Instant) :
    let credited := desk.creditMiner config share miner now
    credited.authorized = miner.authorized ∧ credited.client = miner.client ∧
      credited.currentDifficulty = miner.currentDifficulty := by
  have paused : ∀ other : Miner, other.noteAcceptedShare config.shares now.ms = other :=
    fun other => if_neg (by rw [disabled]; exact Bool.false_ne_true)
  unfold creditMiner
  dsimp only
  rw [paused]
  split
  · exact ⟨rfl, rfl, rfl⟩
  · exact ⟨rfl, rfl, rfl⟩

/-- Half a window after noon. -/
def halfWay : Instant :=
  ⟨60001, by decide⟩

/-- A window after noon. -/
def windowLater : Instant :=
  ⟨120001, by decide⟩

/-- The call of the block fails, the recent submissions are pruned, and the same
share comes again a window later. -/
def eventsLater : List DeskEvent :=
  eventsOnce ++ [.verdict 0 (.error "socket hang up") noon, .cleanup halfWay,
    .submit 0 .null (.array paramsExample) windowLater, .resume 1 windowLater]

/-- What the ledger sees before the share comes again. -/
def ledgerEventsFailed (share : AcceptedShare) (worker : WorkerLabel) (around : Surroundings) :
    List LedgerEvent :=
  [.candidate share worker 1 noon, .verdict 0 (.error "socket hang up") around noon,
    .cleanup halfWay]

/-- What it sees in all. -/
def ledgerEventsLater (share : AcceptedShare) (first second : WorkerLabel)
    (around : Surroundings) : List LedgerEvent :=
  ledgerEventsFailed share first around ++ [.candidate share second 1 windowLater]

theorem exists_run_eventsLater {share : AcceptedShare}
    (valid : (handlerExample configExample easiestTarget).result = .ok (.valid share))
    (isBlock : share.isBlock = true) (passes : preflightThrows share = false) :
    ∃ desk first second around,
      run (next packagesExample (fun _ => false) configExample) freshExample eventsLater =
        some desk ∧
      projected (next packagesExample (fun _ => false) configExample) ledgerEvent freshExample
        eventsLater = ledgerEventsLater share first second around := by
  let config := configExample
  let handler := handlerExample config easiestTarget
  let miner := countSubmit (minerExample config)
  let credited := (waitingExample config easiestTarget).creditMiner config share miner noon
  let once := creditedExample config easiestTarget share
  obtain ⟨ledger, failure⟩ := exists_next_verdict_creditedExample isBlock passes
    (.error "socket hang up")
  let failed := { once with ledger := ledger }
  let cleaned := { failed with ledger := ledger.cleanup config.ledger halfWay }
  let again := { cleaned with
    miners := [countSubmit credited]
    handlers := cleaned.handlers ++ [handler] }
  have failureSeen : ledgerEvent once (.verdict 0 (.error "socket hang up") noon) =
      some (.verdict 0 (.error "socket hang up") once.surroundings noon) := rfl
  have cleanup : next packagesExample (fun _ => false) config failed (.cleanup halfWay) =
      some cleaned := rfl
  have cleanupSeen : ledgerEvent failed (.cleanup halfWay) = some (.cleanup halfWay) := rfl
  have submitted : next packagesExample (fun _ => false) config cleaned
      (.submit 0 .null (.array paramsExample) windowLater) = some again := by
    have history : cleaned.history =
        .after packagesExample walletExample easiestTarget (callsExample easiestTarget) := by
      dsimp only [cleaned, failed, once, config]
      rw [history_creditedExample]
    have disabled : config.shares.vardiff.enabled = false := rfl
    obtain ⟨authorized, sameClient, difficulty⟩ := creditMiner_of_disabled disabled
      (waitingExample config easiestTarget) share miner noon
    exact next_submit_paramsExample config _ cleaned credited history rfl authorized sameClient
      difficulty windowLater
  have submittedSeen : ledgerEvent cleaned (.submit 0 .null (.array paramsExample) windowLater) =
      none := rfl
  have second : next packagesExample (fun _ => false) config again (.resume 1 windowLater) =
      some (again.credit config 1 handler (countSubmit credited) share windowLater) :=
    next_resume_of_valid rfl rfl rfl valid windowLater
  have secondSeen : ledgerEvent again (.resume 1 windowLater) =
      some (.candidate share (label handler (countSubmit credited)) 1 windowLater) :=
    ledgerEvent_resume_of_block rfl rfl rfl valid isBlock windowLater
  refine ⟨again.credit config 1 handler (countSubmit credited) share windowLater,
    label handler miner, label handler (countSubmit credited), once.surroundings, ?_, ?_⟩
  · rw [eventsLater, run_append, run_eventsOnce valid, Option.bind_some, run_cons, failure,
      Option.bind_some, run_cons, cleanup, Option.bind_some, run_cons, submitted,
      Option.bind_some, run_cons, second, Option.bind_some, run_nil]
  · rw [eventsLater, projected_append (run_eventsOnce valid), projected_eventsOnce valid isBlock,
      projected_cons failure, failureSeen, projected_cons cleanup, cleanupSeen,
      projected_cons submitted, submittedSeen, projected_singleton, secondSeen]
    rfl

theorem forward_eventsLater :
    Throughout (next packagesExample (fun _ => false) configExample) Forward freshExample
      eventsLater := by
  have readings : eventsLater.filterMap reading = [noon, halfWay, windowLater] := rfl
  refine forward_of_sorted ?_ fun now _ => Nat.zero_le _
  rw [readings]
  decide

/-- Just before the share comes again, the node was called for it once, and a
window ago. -/
theorem exists_ledger_failed {share : AcceptedShare} (passes : preflightThrows share = false)
    (worker : WorkerLabel) (around : Surroundings) :
    ∃ ledger, run (Ledger.next configExample.ledger) freshExample.ledger
        (ledgerEventsFailed share worker around) = some ledger ∧
      ledger.callStamps = [(normalizeBlockKey share.hash, noon)] ∧
      (∀ call ∈ ledger.calls, Ledger.Apart configExample.ledger call.calledAt.ms windowLater.ms) ∧
      ¬Ledger.Duplicate configExample.ledger ledger (normalizeBlockKey share.hash) windowLater := by
  have window : configExample.ledger.blockSubmitDedupWindowMs = 120000 := rfl
  obtain ⟨ledger, reached, calls, backed⟩ := fresh_freshExample.run_failed configExample.ledger
    passes worker 1 noon "socket hang up" around noon halfWay
  have apart : ∀ call ∈ ledger.calls,
      Ledger.Apart configExample.ledger call.calledAt.ms windowLater.ms := by
    intro call member
    rw [calls] at member
    rw [List.mem_singleton.mp member, Ledger.Apart, window, noon, windowLater]
    norm_num
  refine ⟨ledger, reached, ?_, apart, backed.not_duplicate fun call member _ => apart call member⟩
  rw [Ledger.callStamps, calls]
  rfl

/-- The node was called twice for the block. -/
theorem calls_spaced_eventsLater : ∃ desk key,
    run (next packagesExample (fun _ => false) configExample) freshExample eventsLater =
        some desk ∧
      desk.ledger.callStamps = [(key, noon), (key, windowLater)] ∧
      Ledger.Spaced configExample.ledger desk.ledger.callStamps ∧
        ∀ (now later prev : Instant) (key : Text),
          desk.ledger.recentBlockSubmissions.get? key = some prev →
          (desk.ledger.cleanup configExample.ledger now).recentBlockSubmissions.get? key = none →
          now.ms ≤ later.ms → ¬Suppresses configExample.ledger later prev := by
  obtain ⟨share, valid, isBlock, passes⟩ := exists_block_handlerExample
  obtain ⟨desk, first, second, around, reached, seen⟩ :=
    exists_run_eventsLater valid isBlock passes
  obtain ⟨ledger, failed, stamps, _, new⟩ := exists_ledger_failed passes first around
  have last : Ledger.next configExample.ledger ledger (.candidate share second 1 windowLater) =
      some (ledger.candidate configExample.ledger share second 1 windowLater) := rfl
  have moved : ledger.candidate configExample.ledger share second 1 windowLater = desk.ledger := by
    have whole := (projects_ledger packagesExample (fun _ => false) configExample).run reached
    rw [seen, ledgerEventsLater, run_append, failed, Option.bind_some, run_cons, last,
      Option.bind_some, run_nil] at whole
    exact Option.some.inj whole
  refine ⟨desk, normalizeBlockKey share.hash, reached, ?_,
    calls_spaced fresh_freshExample forward_eventsLater reached⟩
  rcases Ledger.candidate_eq configExample.ledger ledger share second 1 windowLater with
    ⟨duplicate, _⟩ | ⟨_, forwarded⟩
  · exact absurd duplicate new
  · rw [← moved, forwarded, Ledger.callStamps_forward, stamps]
    rfl

/-- It was counted twice, a window apart. -/
theorem countedOnce_eventsLater : ∃ desk key,
    run (next packagesExample (fun _ => false) configExample) freshExample eventsLater =
        some desk ∧
      desk.ledger.foundStamps = [(key, noon), (key, windowLater)] ∧
      CountedOnce configExample freshExample.ledger desk := by
  obtain ⟨share, valid, isBlock, passes⟩ := exists_block_handlerExample
  obtain ⟨desk, first, second, around, reached, seen⟩ :=
    exists_run_eventsLater valid isBlock passes
  obtain ⟨ledger, failed, _, _, new⟩ := exists_ledger_failed passes first around
  have unsuppressed : Throughout (next packagesExample (fun _ => false) configExample)
      (Unsuppressed configExample) freshExample eventsLater := by
    rw [Unsuppressed, (projects_ledger _ _ _).throughout_iff, seen, ledgerEventsLater,
      throughout_append]
    constructor
    · exact ⟨fresh_freshExample.not_duplicate configExample.ledger _ noon,
        fun _ _ => ⟨trivial, fun _ _ => ⟨trivial, fun _ _ => trivial⟩⟩⟩
    · intro middle before
      cases failed.symm.trans before
      exact ⟨new, fun _ _ => trivial⟩
  have found := Ledger.foundStamps_run
    ((projects_ledger packagesExample (fun _ => false) configExample).run reached)
  rw [seen] at found
  have counted := (countedOnce_of_unsuppressed fresh_freshExample reached).1
  exact ⟨desk, normalizeBlockKey share.hash, reached, found,
    counted (forward_eventsLater.and unsuppressed)⟩

/-- After the failure the node is asked again. -/
theorem asksAgain_eventsLater :
    Throughout (next packagesExample (fun _ => false) configExample) (AsksAgain configExample)
      freshExample eventsLater := by
  obtain ⟨share, valid, isBlock, passes⟩ := exists_block_handlerExample
  obtain ⟨desk, first, second, around, _, seen⟩ := exists_run_eventsLater valid isBlock passes
  obtain ⟨ledger, failed, _, apart, _⟩ := exists_ledger_failed passes first around
  have patient : Throughout (next packagesExample (fun _ => false) configExample)
      (Patient configExample) freshExample eventsLater := by
    rw [Patient, (projects_ledger _ _ _).throughout_iff, seen, ledgerEventsLater,
      throughout_append]
    constructor
    · refine ⟨fun _ => ⟨passes, fun call member => absurd member List.not_mem_nil⟩, fun _ _ => ?_⟩
      exact ⟨trivial, fun _ _ => ⟨trivial, fun _ _ => trivial⟩⟩
    · intro middle before
      cases failed.symm.trans before
      exact ⟨fun _ => ⟨passes, fun call member _ => apart call member⟩, fun _ _ => trivial⟩
  exact (asksAgain_of_patient fresh_freshExample).1 patient

end Desk

end ZcashSoloPool.Pool
