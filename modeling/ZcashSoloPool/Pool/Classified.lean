import ZcashSoloPool.Pool.ShareAccounting
import ZcashSoloPool.WorkManager.Rejections

/-!
# The categories of rejections

A rejected share counts as invalid, as of too low difficulty or as stale by the
words of its reason.  The texts for a nonce and for a solution that are no hex
have none of the words, so that these rejections count in no category.
-/

namespace ZcashSoloPool.Stratum

open ZcashSoloPool.JavaScript

/-- The rejections that have a category. -/
def Metrics.categories (metrics : Metrics) : Nat :=
  metrics.invalid + metrics.lowDiff + metrics.stale

/-- A reason has one of the words that are looked for. -/
def hasCategory (reason : String) : Bool :=
  let reason := toLowerCase reason.toList
  includes "invalid" reason || includes "low diff" reason || includes "expired" reason ||
    includes "stale" reason

/-- A rejection counts in one category or in none. -/
theorem categories_countRejected (metrics : Metrics) (reason : String) :
    (metrics.countRejected reason).categories =
      metrics.categories + if hasCategory reason then 1 else 0 := by
  unfold Metrics.countRejected Metrics.categories
  dsimp only
  split
  · next invalid =>
      have category : hasCategory reason = true := by simp [hasCategory, invalid]
      rw [category, if_pos rfl]
      dsimp only
      omega
  · next notInvalid =>
      split
      · next lowDiff =>
          have category : hasCategory reason = true := by simp [hasCategory, lowDiff]
          rw [category, if_pos rfl]
          dsimp only
          omega
      · next notLowDiff =>
          split
          · next late =>
              have category : hasCategory reason = true := by
                rw [hasCategory, Bool.or_assoc, late, Bool.or_true]
              rw [category, if_pos rfl]
              rfl
          · next notLate =>
              have none : hasCategory reason = false := by
                rw [hasCategory, Bool.or_assoc, Bool.eq_false_iff.mpr notInvalid,
                  Bool.eq_false_iff.mpr notLowDiff, Bool.eq_false_iff.mpr notLate]
                rfl
              rw [none]
              rfl

end ZcashSoloPool.Stratum

namespace ZcashSoloPool.Pool

open ZcashSoloPool.JavaScript
open ZcashSoloPool.Stratum
open ZcashSoloPool.Transition
open ZcashSoloPool.WorkManager

namespace Desk

variable {deps : Externals} {hostile : Nat → Bool} {config : DeskConfig}

/-! ## Rejections without a category -/

/-- The reasons that blame an unreadable field are the ones without a category. -/
theorem hasCategory_iff {manager : WorkManager}
    {submission : Submission} {now : Nat} {reason : String}
    (rejected : validateShare deps manager submission now = .ok (.invalid reason)) :
    hasCategory reason = true ↔ ¬Unreadable manager submission := by
  have unreadable : ∀ reason ∈ unreadableReasons, hasCategory reason = false := by
    decide +kernel
  have other : ∀ reason ∈ otherReasons, hasCategory reason = true := by
    decide +kernel
  constructor
  · intro category blames
    have none := unreadable reason ((mem_unreadableReasons_iff rejected).mpr blames)
    rw [category] at none
    contradiction
  · intro readable
    exact other reason (mem_otherReasons_of_readable readable rejected)

/-- The reason under which the end of a handler is counted as rejected. -/
def rejection (handler : Handler) : Option String :=
  match handler.result with
  | .error _ => some "Internal server error"
  | .ok (.invalid error) => some error
  | .ok (.valid _) => none

/-- The handler rejects its share, and the reason has no category. -/
def misses (handler : Handler) : Bool :=
  (rejection handler).any fun reason => !hasCategory reason

/-- The completed submissions of a client that were rejected without a
category. -/
def uncategorised (desk : Desk) (client : Nat) : Nat :=
  desk.handlers.countP fun handler =>
    handler.settled && misses handler && decide (handler.client = client)

/-- The rejections of every client, with a category and without. -/
def Tallied (desk : Desk) : Prop :=
  ∀ client account, desk.accounts[client]? = some account →
    account.1.rejected = account.1.categories + desk.uncategorised client

theorem tally_rejected (config : DeskConfig) {handler : Handler} (miner : Miner) {reason : String}
    (rejected : rejection handler = some reason) (now : Instant) :
    let after := recordShareOutcome config.shares miner (.rejected reason) now.ms
    after.metrics.rejected + miner.metrics.categories =
      miner.metrics.rejected + after.metrics.categories + if misses handler then 1 else 0 := by
  have counted := categories_countRejected miner.metrics reason
  have rejects := (counts_countRejected miner.metrics reason).rejected
  have misses' : misses handler = !hasCategory reason := by
    rw [misses, rejected, Option.any_some]
  change (miner.metrics.countRejected reason).rejected + miner.metrics.categories =
    miner.metrics.rejected + (miner.metrics.countRejected reason).categories + _
  rw [counted, rejects, misses']
  cases hasCategory reason with
  | false => exact Nat.add_right_comm _ _ _
  | true => exact Nat.add_assoc _ _ _ |>.trans (congrArg _ (Nat.add_comm _ _))

/-- An accepted share adds to no rejection. -/
theorem tally_creditMiner (config : DeskConfig) (desk : Desk) (share : AcceptedShare)
    (miner : Miner) (now : Instant) :
    let after := desk.creditMiner config share miner now
    after.metrics.rejected = miner.metrics.rejected ∧
      after.metrics.categories = miner.metrics.categories := by
  let recorded := recordShareOutcome config.shares miner (desk.acceptedOutcome share miner) now.ms
  have same := recorded.metrics_noteAcceptedShare config.shares now.ms
  have rejected := congrArg Metrics.rejected same
  have categories := congrArg Metrics.categories same
  unfold creditMiner
  dsimp only
  split
  · exact ⟨rejected, categories⟩
  · exact ⟨rejected, categories⟩

/-- The continuation of a handler settles it and counts its rejection. -/
theorem tally_resume (config : DeskConfig) (desk : Desk) (place : Nat) (handler : Handler)
    (miner : Miner) (now : Instant) :
    let target := desk.resume config place handler miner now
    ∃ after, target.handlers = desk.handlers.set place { handler with settled := true } ∧
      target.miners = desk.miners.set handler.client after ∧
      after.metrics.rejected + miner.metrics.categories =
        miner.metrics.rejected + after.metrics.categories + if misses handler then 1 else 0 := by
  unfold resume
  split
  · next message thrown =>
      have reason : rejection handler = some "Internal server error" := by rw [rejection, thrown]
      exact ⟨_, rfl, rfl, tally_rejected config miner reason now⟩
  · next error invalid =>
      have reason : rejection handler = some error := by rw [rejection, invalid]
      exact ⟨_, rfl, rfl, tally_rejected config miner reason now⟩
  · next share valid =>
      have none : misses handler = false := by rw [misses, rejection, valid]; rfl
      refine ⟨_, rfl, rfl, ?_⟩
      obtain ⟨rejected, categories⟩ := desk.tally_creditMiner config share miner now
      rw [none, rejected, categories]
      rfl

/-! ## The tally of a run -/

theorem Tallied.of_same {desk target : Desk} (tallied : Tallied desk) (accounted : Accounted desk)
    (same : SameShares desk target) : Tallied target := by
  intro client account found
  have kept : target.uncategorised client = desk.uncategorised client := by
    rw [uncategorised, same.handlers, uncategorised]
  rw [kept]
  rcases same.account_cases found with earlier | ⟨rfl, rfl⟩
  · exact tallied client account earlier
  · have none : desk.uncategorised desk.accounts.length = 0 := by
      rw [uncategorised, List.countP_eq_zero]
      intro handler member
      have bound := accounted.handlerClients handler member
      simp [Nat.ne_of_lt bound]
    rw [none]
    rfl

/-- A request changes no tally. -/
theorem Tallied.submit {desk : Desk} (tallied : Tallied desk) {client : Nat} {miner : Miner}
    (present : desk.miners[client]? = some miner) (requestId : Value)
    (params : Params) (now : Instant) :
    Tallied (desk.submit deps hostile config client miner requestId params now) := by
  have before := tallied client _ (accounts_getElem? present)
  rcases submit_cases deps hostile config desk client miner requestId params now with
    ⟨_, same⟩ | ⟨_, lost⟩ | ⟨_, _, submission, workerName, _, started⟩
  · rw [same]
    exact tallied
  · rw [lost]
    intro other account found
    rcases accounts_set present rfl found with ⟨rfl, rfl⟩ | ⟨_, earlier⟩
    · exact before
    · exact tallied other account earlier
  · rw [started]
    intro other account found
    rw [uncategorised, List.countP_append]
    rcases accounts_set present rfl found with ⟨rfl, rfl⟩ | ⟨_, earlier⟩
    · exact before
    · exact tallied other account earlier

/-- The continuation of a handler counts it in the tally of its client. -/
theorem Tallied.resume {desk : Desk} (tallied : Tallied desk) {place : Nat} {handler : Handler}
    {miner : Miner} (found : desk.handlers[place]? = some handler)
    (open' : handler.settled = false) (present : desk.miners[handler.client]? = some miner)
    (now : Instant) : Tallied (desk.resume config place handler miner now) := by
  obtain ⟨after, handlers, miners, tally⟩ := tally_resume config desk place handler miner now
  have before := tallied handler.client _ (accounts_getElem? present)
  intro other account member
  have counted := countP_set_add { handler with settled := true } found
    fun handler => handler.settled && misses handler && decide (handler.client = other)
  have same : misses { handler with settled := true } = misses handler := rfl
  simp only [open', Bool.false_and, Bool.false_eq_true, if_false, Nat.add_zero, Bool.true_and,
    same, Bool.and_eq_true, decide_eq_true_eq] at counted
  rw [uncategorised, handlers, counted]
  rcases accounts_set present miners member with ⟨rfl, rfl⟩ | ⟨different, earlier⟩
  · rw [uncategorised] at before
    simp only [and_true]
    change miner.metrics.rejected = miner.metrics.categories + _ at before
    change after.metrics.rejected = after.metrics.categories + _
    omega
  · rw [if_neg fun both => different both.2.symm]
    exact tallied other account earlier

theorem tallied_of_run {walletAddress poolTarget : Text} {ledger : Ledger} {best : BestShare}
    {events : List DeskEvent} {desk : Desk}
    (reached : run (next deps hostile config) (initial walletAddress poolTarget ledger best)
      events = some desk) : Tallied desk := by
  have both : Accounted desk ∧ Tallied desk := by
    refine run_invariant (fun desk => Accounted desk ∧ Tallied desk) ?_
      ⟨accounted_initial walletAddress poolTarget ledger best, nofun⟩ reached
    rintro state target event ⟨accounted, tallied⟩ step
    refine ⟨accounted.next step, ?_⟩
    cases event with
    | submit client requestId params now =>
        obtain ⟨miner, present, rfl⟩ := Option.map_eq_some_iff.mp step
        exact tallied.submit present requestId params now
    | resume place now =>
        obtain ⟨handler, miner, found, open', present, rfl⟩ := next_resume step
        exact tallied.resume found open' present now
    | _ => exact tallied.of_same accounted (next_quiet step trivial)
  exact both.2

/-! ## Unreadable submissions -/

/-- The submission of a handler was rejected without a category. -/
def blames (handler : Handler) : Bool :=
  misses handler && !threw handler

theorem startHandler_result (deps : Externals) (desk : Desk) (client : Nat)
    (requestId worker : Value) (miner : Miner) (submission : Submission) (now : Instant) :
    (desk.startHandler deps client requestId worker miner submission now).result =
      validateShare deps desk.history.manager submission now.ms :=
  rfl

theorem blames_iff (handler : Handler) {manager : WorkManager} {submission : Submission} {now : Nat}
    (validated : handler.result = validateShare deps manager submission now) :
    blames handler = true ↔ Unreadable manager submission := by
  cases result : validateShare deps manager submission now with
  | error message =>
      refine iff_of_false ?_ fun unreadable => ?_
      · simp [blames, threw, validated, result]
      · obtain ⟨_, _, rejected⟩ := validateShare_of_unreadable deps unreadable now
        cases result.symm.trans rejected
  | ok outcome =>
      cases outcome with
      | valid share =>
          refine iff_of_false ?_ fun unreadable => ?_
          · simp [blames, misses, rejection, validated, result]
          · obtain ⟨_, _, rejected⟩ := validateShare_of_unreadable deps unreadable now
            cases result.symm.trans rejected
      | invalid reason =>
          have category := hasCategory_iff result
          have same : blames handler = !hasCategory reason := by
            simp [blames, misses, rejection, threw, validated, result]
          rw [same, Bool.not_eq_true', ← Bool.not_eq_true, category, not_not]

/-- A submission that starts a handler is readable or not timely. -/
def Readable (hostile : Nat → Bool) (config : DeskConfig) (desk : Desk) : DeskEvent → Prop
  | .submit client _ params _ => ∀ miner submission, desk.miners[client]? = some miner →
      parses hostile miner params = true → ¬Loses hostile config miner params →
      handleSubmit ⟨miner.authorized, miner.client⟩ params.values? = some submission →
      ¬Unreadable desk.history.manager submission
  | _ => True

/-- The submissions that were rejected without a category, or will be. -/
def blamed (desk : Desk) : Nat :=
  desk.handlers.countP blames

/-- They come from the steps that are not readable, one from each. -/
theorem blamed_next {desk target : Desk} {event : DeskEvent}
    (step : next deps hostile config desk event = some target) :
    (Readable hostile config desk event ∧ target.blamed = desk.blamed) ∨
      (¬Readable hostile config desk event ∧ target.blamed = desk.blamed + 1) := by
  cases event with
  | submit client requestId params now =>
      obtain ⟨miner, present, rfl⟩ := Option.map_eq_some_iff.mp step
      rcases submit_cases deps hostile config desk client miner requestId params now with
        ⟨unparsed, same⟩ | ⟨loses, lost⟩ | ⟨parsed, kept, submission, workerName, given, started⟩
      · refine Or.inl ⟨fun other _ found parsed _ _ => ?_, by rw [same]⟩
        cases present.symm.trans found
        rw [unparsed] at parsed
        contradiction
      · refine Or.inl ⟨fun other _ found _ kept _ => ?_, by rw [lost]; rfl⟩
        cases present.symm.trans found
        exact absurd loses kept
      · have readable : Readable hostile config desk (.submit client requestId params now) ↔
            ¬Unreadable desk.history.manager submission := by
          refine ⟨fun all => all miner submission present parsed kept given,
            fun all other given' found _ _ handled => ?_⟩
          cases present.symm.trans found
          cases given.symm.trans handled
          exact all
        have counted := blames_iff (desk.startHandler deps client requestId
          (parseSubmit params.values?).worker { countSubmit miner with workerName := workerName }
          submission now) rfl
        rw [readable, started, blamed, List.countP_append, List.countP_singleton, blamed]
        by_cases unreadable : Unreadable desk.history.manager submission
        · exact Or.inr ⟨not_not.mpr unreadable, by rw [if_pos (counted.mpr unreadable)]⟩
        · exact Or.inl ⟨unreadable, by rw [if_neg (mt counted.mp unreadable)]; rfl⟩
  | resume place now =>
      obtain ⟨handler, miner, found, open', present, rfl⟩ := next_resume step
      obtain ⟨after, handlers, _⟩ := tally_resume config desk place handler miner now
      have counted := countP_set_add { handler with settled := true } found blames
      have same : blames { handler with settled := true } = blames handler := rfl
      rw [same] at counted
      exact Or.inl ⟨trivial, by rw [blamed, handlers]; exact Nat.add_right_cancel counted⟩
  | _ =>
      have same := (next_quiet step trivial).handlers
      exact Or.inl ⟨trivial, by rw [blamed, same, blamed]⟩

/-! ## Runs without internal server errors -/

/-- No handler continues whose validation threw. -/
def Calm (desk : Desk) : DeskEvent → Prop
  | .resume place _ => ∀ handler, desk.handlers[place]? = some handler → threw handler = false
  | _ => True

/-- No validation of a completed submission threw. -/
def Unthrown (desk : Desk) : Prop :=
  ∀ handler ∈ desk.handlers, handler.settled = true → threw handler = false

theorem Unthrown.next {desk target : Desk} {event : DeskEvent} (unthrown : Unthrown desk)
    (calm : Calm desk event) (step : Desk.next deps hostile config desk event = some target) :
    Unthrown target := by
  cases event with
  | submit client requestId params now =>
      obtain ⟨miner, present, rfl⟩ := Option.map_eq_some_iff.mp step
      rcases submit_cases deps hostile config desk client miner requestId params now with
        ⟨_, same⟩ | ⟨_, lost⟩ | ⟨_, _, submission, workerName, _, started⟩
      · rw [same]
        exact unthrown
      · rw [lost]
        exact unthrown
      · rw [started]
        intro handler member settled
        rcases List.mem_append.mp member with earlier | new
        · exact unthrown handler earlier settled
        · rw [List.mem_singleton.mp new] at settled
          contradiction
  | resume place now =>
      obtain ⟨handler, miner, found, open', present, rfl⟩ := next_resume step
      obtain ⟨after, handlers, _⟩ := tally_resume config desk place handler miner now
      intro other member settled
      rw [handlers] at member
      rcases List.mem_or_eq_of_mem_set member with earlier | rfl
      · exact unthrown other earlier settled
      · exact calm handler found
  | _ =>
      rw [Unthrown, (next_quiet step trivial).handlers]
      exact unthrown

theorem next_resume_of_waiting {desk : Desk} {place : Nat} {handler : Handler} {miner : Miner}
    (waits : desk.waiting place = some (handler, miner)) (now : Instant) :
    next deps hostile config desk (.resume place now) =
      some (desk.resume config place handler miner now) := by
  rw [next, waits]
  rfl

/-! ## Every rejection has one category -/

/-- The rejections of each client fall into the three categories. -/
def Classified (desk : Desk) : Prop :=
  ∀ (client : Nat) (miner : Miner), desk.miners[client]? = some miner →
    miner.metrics.rejected = miner.metrics.invalid + miner.metrics.lowDiff + miner.metrics.stale

theorem Tallied.classified_iff {desk : Desk} (tallied : Tallied desk) :
    Classified desk ↔ ∀ client < desk.accounts.length, desk.uncategorised client = 0 := by
  have length : desk.accounts.length = desk.miners.length := List.length_map _
  constructor
  · intro classified client bound
    rw [length] at bound
    have present := List.getElem?_eq_getElem bound
    have tally := tallied client _ (accounts_getElem? present)
    have equal : desk.miners[client].metrics.rejected = desk.miners[client].metrics.categories :=
      classified client _ present
    change desk.miners[client].metrics.rejected = desk.miners[client].metrics.categories + _
      at tally
    omega
  · intro none client miner present
    have tally := tallied client _ (accounts_getElem? present)
    have bound := (List.getElem?_eq_some_iff.mp (accounts_getElem? present)).1
    rw [none client bound] at tally
    exact tally

/-- The continuation of a handler that rejects without a category ends the
classification of its client. -/
theorem not_classified_resume {desk : Desk} {place : Nat} {handler : Handler} {miner : Miner}
    {now : Instant} (tallied : Tallied (desk.resume config place handler miner now))
    (found : desk.handlers[place]? = some handler)
    (present : desk.miners[handler.client]? = some miner) (missed : misses handler = true) :
    ¬Classified (desk.resume config place handler miner now) := by
  obtain ⟨after, handlers, miners, _⟩ := tally_resume config desk place handler miner now
  have bound := (List.getElem?_eq_some_iff.mp (accounts_getElem? present)).1
  have length := length_accounts_set desk _ miners
  intro classified
  have none := tallied.classified_iff.mp classified handler.client (length ▸ bound)
  rw [uncategorised, handlers, List.countP_eq_zero] at none
  have settled := none { handler with settled := true }
    (List.mem_of_getElem? (List.getElem?_set_self (List.getElem?_eq_some_iff.mp found).1))
  apply settled
  have same : misses { handler with settled := true } = misses handler := rfl
  simp [same, missed]

/-- A reason moves one of the three counters, and no other, exactly when it has a
category. -/
theorem categories_iff (reason : String) :
    (∀ metrics : Metrics, (metrics.countRejected reason).categories = metrics.categories + 1) ↔
      hasCategory reason = true := by
  constructor
  · intro moves
    have moved := moves .initial
    rw [categories_countRejected] at moved
    by_contra none
    rw [if_neg none] at moved
    omega
  · intro category metrics
    rw [categories_countRejected, if_pos category]

/-- A rejection has a category exactly when its submission is not unreadable, and
the runs without unreadable submissions keep every client classified.  Where all
submissions are completed, only these runs do. -/
theorem classified_iff_readable {walletAddress poolTarget : Text} {ledger : Ledger}
    {best : BestShare} {events : List DeskEvent} {desk : Desk}
    (reached : run (next deps hostile config) (initial walletAddress poolTarget ledger best)
      events = some desk)
    (calm : Throughout (next deps hostile config) Calm
      (initial walletAddress poolTarget ledger best) events) :
    (∀ manager submission now reason,
      validateShare deps manager submission now = .ok (.invalid reason) →
        ((∀ metrics : Metrics,
            (metrics.countRejected reason).categories = metrics.categories + 1) ↔
          ¬Unreadable manager submission)) ∧
      (Throughout (next deps hostile config) (Readable hostile config)
        (initial walletAddress poolTarget ledger best) events → Classified desk) ∧
      ((∀ handler ∈ desk.handlers, handler.settled = true) →
        (Classified desk ↔ Throughout (next deps hostile config) (Readable hostile config)
          (initial walletAddress poolTarget ledger best) events)) := by
  have tallied := tallied_of_run reached
  have accounted := accounted_of_run reached
  have unthrown : Unthrown desk :=
    calm.invariant Unthrown (fun unthrown calm step => unthrown.next calm step)
      (fun _ member => absurd member List.not_mem_nil) reached
  have lawful := count_eq_zero_iff blamed blamed_next rfl reached
  rw [tallied.classified_iff, ← lawful]
  have blamedNone : desk.blamed = 0 ↔ ∀ handler ∈ desk.handlers, blames handler = false := by
    rw [blamed, List.countP_eq_zero]
    simp only [Bool.not_eq_true]
  have clear : ∀ client, desk.uncategorised client = 0 ↔ ∀ handler ∈ desk.handlers,
      handler.settled = true → handler.client = client → blames handler = false := by
    intro client
    rw [uncategorised, List.countP_eq_zero]
    refine forall₂_congr fun handler member => ?_
    have sound := unthrown handler member
    rw [blames]
    cases settled : handler.settled with
    | false => simp
    | true => simp [sound settled, imp_not_comm]
  refine ⟨fun manager submission now reason rejected => ?_, fun none client _ => ?_,
    fun completed => ⟨fun none => ?_, fun none client _ => ?_⟩⟩
  · rw [categories_iff, hasCategory_iff rejected]
  · exact (clear client).mpr fun handler member _ _ => blamedNone.mp none handler member
  · refine blamedNone.mpr fun handler member => ?_
    have bound := accounted.handlerClients handler member
    exact (clear handler.client).mp (none handler.client bound) handler member
      (completed handler member) rfl
  · exact (clear client).mpr fun handler member _ _ => blamedNone.mp none handler member

/-! ## A late submission and an unreadable one -/

/-- A submission for a job that was never issued, which is completed. -/
def lateEvents : List DeskEvent :=
  [.connect noon, .authorize 0 none, .submit 0 .null (.array [.null, .null, .null, .null]) noon,
    .resume 0 noon]

/-- A pool without a job rejects it. -/
theorem classified_lateEvents :
    ∃ desk, run (next packagesExample (fun _ => false) configExample) freshExample lateEvents =
        some desk ∧
      (∃ miner, desk.miners[0]? = some miner ∧ miner.metrics.rejected = 1) ∧ Classified desk := by
  have calm : Throughout (next packagesExample (fun _ => false) configExample) Calm freshExample
      lateEvents := by
    refine ⟨trivial, fun _ step => ?_⟩
    cases step
    refine ⟨trivial, fun _ step => ?_⟩
    cases step
    refine ⟨trivial, fun _ step => ?_⟩
    cases step
    refine ⟨fun handler found => ?_, fun _ _ => trivial⟩
    cases found
    rfl
  have readable : Throughout (next packagesExample (fun _ => false) configExample)
      (Readable (fun _ => false) configExample) freshExample lateEvents := by
    refine ⟨trivial, fun _ step => ?_⟩
    cases step
    refine ⟨trivial, fun _ step => ?_⟩
    cases step
    refine ⟨?_, fun _ step => ?_⟩
    · rintro miner submission present _ _ given ⟨⟨job, found, _⟩, _⟩
      cases present
      cases given
      cases found
    · cases step
      exact ⟨trivial, fun _ _ => trivial⟩
  refine ⟨_, rfl, ⟨_, rfl, rfl⟩, ?_⟩
  exact (classified_iff_readable rfl calm).2.1 readable

/-- The job of the example with a time, and a nonce that is no hex. -/
def paramsUnreadable : List Value :=
  [.string (hexText 1), .string (List.replicate 8 '0'), .string "zz".toList, .string "00".toList]

/-- What the server makes of them. -/
def submissionUnreadable : Submission where
  client := (minerExample configExample).client
  jobId := some (hexText 1)
  nTime := some (List.replicate 8 '0')
  nonce := some "zz".toList
  solution := some "00".toList

theorem unreadable_submissionUnreadable :
    Unreadable (managerExample easiestTarget) submissionUnreadable := by
  have prepared := prepared_overlongContext easiestTarget (by decide) (List.cons_ne_nil _ _)
  refine ⟨⟨jobExample easiestTarget, prepared.job, prepared.current, List.replicate 8 '0', ?_⟩,
    Or.inl ?_⟩
  · decide
  · decide

theorem parseSubmit_paramsUnreadable :
    parseSubmit (some paramsUnreadable) = ⟨.null, some (hexText 1), some (List.replicate 8 '0'),
      some "zz".toList, some "00".toList⟩ := by
  decide +kernel

/-- The handler of the submission. -/
def handlerUnreadable : Handler :=
  (readyExample configExample easiestTarget).startHandler packagesExample 0 .null .null
    (countSubmit (minerExample configExample)) submissionUnreadable noon

/-- It will reject the submission without a category. -/
theorem blames_handlerUnreadable : blames handlerUnreadable = true := by
  have validated : handlerUnreadable.result = validateShare packagesExample
      (managerExample easiestTarget) submissionUnreadable noon.ms := by
    rw [handlerUnreadable, startHandler_result, history_readyExample, managerExample]
  exact (blames_iff handlerUnreadable validated).mpr unreadable_submissionUnreadable

/-- The pool while the submission waits for its validation. -/
def waitingUnreadable : Desk :=
  { readyExample configExample easiestTarget with
    miners := [countSubmit (minerExample configExample)]
    handlers := [handlerUnreadable] }

theorem run_waitingUnreadable :
    run (next packagesExample (fun _ => false) configExample) freshExample
      (readyEvents easiestTarget ++ [.submit 0 .null (.array paramsUnreadable) noon]) =
        some waitingUnreadable := by
  have present : (readyExample configExample easiestTarget).miners[0]? =
      some (minerExample configExample) := rfl
  have submitted : handleSubmit ⟨true, (minerExample configExample).client⟩
      (some paramsUnreadable) = some submissionUnreadable := by
    rw [handleSubmit, if_pos rfl, parseSubmit_paramsUnreadable]
    rfl
  have unnamed : (parseSubmit (some paramsUnreadable)).worker = .null := by
    rw [parseSubmit_paramsUnreadable]
  rw [run_append, run_readyEvents, Option.bind_some, run_cons, next, present, Option.map_some,
    submit_of_unnamed submitted rfl (by rw [unnamed]; rfl), unnamed, Option.bind_some, run_nil]
  rfl

/-- The job, the client, its authorization and its unreadable submission, which
is completed. -/
def unreadableEvents : List DeskEvent :=
  readyEvents easiestTarget ++ [.submit 0 .null (.array paramsUnreadable) noon] ++ [.resume 0 noon]

/-- The nonce is no hex. -/
theorem not_classified_unreadableEvents :
    ¬∀ (deps : Externals) (hostile : Nat → Bool) (config : DeskConfig)
        (walletAddress poolTarget : Text) (ledger : Ledger) (best : BestShare)
        (events : List DeskEvent) (desk : Desk),
      run (next deps hostile config) (initial walletAddress poolTarget ledger best) events =
        some desk →
      Throughout (next deps hostile config) Calm (initial walletAddress poolTarget ledger best)
        events →
      Classified desk := by
  intro classified
  have blamed := blames_handlerUnreadable
  rw [blames, Bool.and_eq_true, Bool.not_eq_true'] at blamed
  let miner := countSubmit (minerExample configExample)
  let target := waitingUnreadable.resume configExample 0 handlerUnreadable miner noon
  have waits : waitingUnreadable.waiting 0 = some (handlerUnreadable, miner) := rfl
  have reached : run (next packagesExample (fun _ => false) configExample) freshExample
      unreadableEvents = some target := by
    rw [unreadableEvents, run_append, run_waitingUnreadable, Option.bind_some, run_cons,
      next_resume_of_waiting waits, Option.bind_some, run_nil]
  have calm : Throughout (next packagesExample (fun _ => false) configExample) Calm freshExample
      unreadableEvents := by
    refine throughout_append.mpr ⟨throughout_of_mem ?_ _, fun middle passed => ?_⟩
    · simp [readyEvents, Calm]
    · obtain rfl := Option.some.inj (run_waitingUnreadable.symm.trans passed)
      refine ⟨fun other found => ?_, fun _ _ => trivial⟩
      rw [← Option.some.inj (found : some handlerUnreadable = some other)]
      exact blamed.2
  exact not_classified_resume (tallied_of_run reached) rfl rfl blamed.1
    (classified _ _ _ _ _ _ _ _ _ reached calm)

end Desk

end ZcashSoloPool.Pool
